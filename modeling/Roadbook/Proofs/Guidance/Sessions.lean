import Roadbook.Proofs.Guidance.Operations

/-!
# What holds of every session

A session starts fresh on a route made from points, and from then on it is changed by nothing but
the operations that `Session.IsInvariant` lists. What holds of a fresh session and is kept by each
of them holds of the session that is loaded in every reachable navigator
(`Session.IsInvariant.reachable`). Of a fact about guidance along the route there is no more to show
than `Session.IsGuided` lists. What holds of a session and the effects so far, and is kept by
everything but taking in a fix (`Session.Lasts`), lasts through a call unless a fix ends it or the
area is unloaded (`Session.Waits.due`, `Outcome.Shows.respond`).
-/

namespace Roadbook

variable {α : Type} [Scalar α] [Geodesy α] {config : Config α} {now : Int}

theorem Smoother.start?_eq_some {α : Type} [Scalar α] {rules : Config.Smoothing α} {s : Smoother α}
    (h : start? rules = some s) : s = .fresh := by
  unfold start? at h
  split_ifs at h
  exact (Option.some.inj h).symm

/-- True of a session that starts, and kept by everything a session does. -/
structure Session.IsInvariant (config : Config α) (P : Session α → Prop) : Prop where
  start : ∀ {points : List (Point α)} {route : Route α} {smoother : Smoother α} (area : String),
    Route.ofPoints config.turns points = .ok route →
      Smoother.start? config.smoothing = some smoother → P (.ofRoute area route smoother)
  applyFix : ∀ {now : Int} {fix : Fix α} (d : Dispatch α),
    fix.check now config.guidance.maxAge config.guidance.maxAccuracy = none →
      P d.session → P (d.applyFix config now fix).session
  begin : ∀ (now : Int) (d : Dispatch α), P d.session → P (d.begin config now).session
  settle : ∀ (now : Int) (d : Dispatch α), P d.session → P (d.settle config now).session
  accept : ∀ (now : Int) (d : Dispatch α), P d.session → P (d.accept config now).session
  dismiss : ∀ (now : Int) (d : Dispatch α), P d.session → P (d.dismiss config now).session
  resolve : ∀ (id : Nat) (found : Option (List (Point α))) (d : Dispatch α),
    P d.session → P (d.resolve id found).session
  loseSignal : ∀ d : Dispatch α, P d.session → P (d.loseSignal config).session

theorem Session.IsInvariant.checkSignal {P : Session α → Prop} (hP : IsInvariant config P)
    (now : Int) (d : Dispatch α) (h : P d.session) : P (d.checkSignal config now).session := by
  rcases d.checkSignal_cases config now with heq | heq <;> rw [heq]
  · exact hP.loseSignal d h
  · exact h

theorem Session.IsInvariant.does {P : Session α → Prop} (hP : IsInvariant config P)
    {event : Event α} {operation : Dispatch α → Dispatch α} (h : Does config now event operation)
    (d : Dispatch α) (hd : P d.session) : P (operation d).session := by
  cases h with
  | fix hgood => exact hP.applyFix d hgood hd
  | ignore => exact hP.loseSignal d hd
  | begin => exact hP.begin now d hd
  | accept => exact hP.accept now d hd
  | dismiss => exact hP.dismiss now d hd
  | resolve id found => exact hP.resolve id found d hd
  | flushed | view => exact hd
  | tick => exact hP.checkSignal now d hd

/-- True of the session that is loaded, if any. -/
def Navigator.Has (P : Session α → Prop) (n : Navigator α) : Prop :=
  ∀ s, n.session = some s → P s

namespace Outcome

open Session Navigator

variable {P : Session α → Prop} {o o' : Outcome α}

omit [Scalar α] [Geodesy α] in
theorem has_inSession (h : o.navigator.Has P) {operation : Dispatch α → Dispatch α}
    (hop : ∀ d : Dispatch α, P d.session → P (operation d).session) :
    (o.inSession operation).navigator.Has P := by
  rcases hs : o.navigator.session with _ | s
  · rwa [inSession_none hs]
  · rw [inSession_some hs]
    rintro _ ⟨⟩
    exact hop (o.dispatch s) (h s hs)

omit [Scalar α] [Geodesy α] in
theorem LeavesSession.has (h : o.LeavesSession o') (hP : o.navigator.Has P) :
    o'.navigator.Has P := by
  rwa [Navigator.Has, h.session]

theorem has_runTasks
    (hsettle : ∀ d : Dispatch α, P d.session → P (d.settle config now).session) :
    ∀ (tasks : List Task) {o : Outcome α},
      o.navigator.Has P → (tasks.foldl (runTask config now) o).navigator.Has P
  | [], _, h => h
  | .settle :: tasks, _, h => has_runTasks hsettle tasks (has_inSession h hsettle)
  | .flush area :: tasks, o, h =>
    has_runTasks hsettle tasks ((leavesSession_flush config now o area).has h)

end Outcome

namespace Navigator

open Session Outcome

variable {P : Session α → Prop}

theorem has_due (n : Navigator α)
    (hsettle : ∀ d : Dispatch α, P d.session → P (d.settle config now).session) (h : n.Has P) :
    (n.due config now).navigator.Has P :=
  has_runTasks hsettle _ h

theorem has_respond (hP : IsInvariant config P) {o o' : Outcome α} {event : Event α}
    (h : o.navigator.Has P) (hok : respond config now o event = .ok o') : o'.navigator.Has P := by
  by_cases hunloads : event.Unloads
  · cases event with
    | areaLoaded area =>
      obtain ⟨route, smoother, hroute, hsmoother, rfl⟩ := respond_areaLoaded_iff.1 hok
      rintro _ ⟨⟩
      exact hP.start area.name hroute hsmoother
    | finish =>
      cases hok
      have hnone : (o.unload config now).navigator.session = none := drain_session _
      intro s hs
      rw [hnone] at hs
      cases hs
    | _ => exact hunloads.elim
  · obtain ⟨operation, hdoes, hleaves⟩ := respond_does hunloads hok
    exact hleaves.has (has_inSession h (hP.does hdoes))

end Navigator

theorem Session.IsInvariant.reachable {P : Session α → Prop} (hP : IsInvariant config P)
    {n : Navigator α} (h : Navigator.Reachable config n) : n.Has P := by
  induction h with
  | fresh => rintro _ ⟨⟩
  | handle _ now event ih =>
    rename_i n _
    have hdue : (n.due config now).navigator.Has P := n.has_due (hP.settle now) ih
    rcases Navigator.handle_cases config n now event with ⟨o, hok, heq⟩ | ⟨_, _, heq⟩ <;> rw [heq]
    · exact Navigator.has_respond hP hdue hok
    · exact hdue

/-- True of a session that starts, and kept by all that happens to guidance along the route. -/
structure Session.IsGuided (config : Config α) (P : Session α → Prop) : Prop where
  congr : ∀ {s t : Session α}, s.SameCourse t → P t → P s
  start : ∀ {points : List (Point α)} {route : Route α} (area : String),
    Route.ofPoints config.turns points = .ok route → P (.ofRoute area route .fresh)
  begin : ∀ {now : Int} {d : Dispatch α} (phase : Phase),
    d.session.phase = .preview ∨ d.session.phase = .atStart → P d.session →
      P (d.transition config now phase).session
  resume : ∀ {now : Int} {d : Dispatch α} {m : Match α}, d.session.offer = some m →
    P d.session → P ((d.withSession (d.session.resumeAt m)).transition config now .active).session
  decline : ∀ {now : Int} {d : Dispatch α}, P d.session →
    P ((d.withSession { d.session with dismissed := true, offer := none }).transition config now
      .offRoute).session
  advance : ∀ {now : Int} {d : Dispatch α} (p : Point α) (time : Int), P d.session →
    P ((d.advance config p time).2.moveOn config now (d.advance config p time).1).session

theorem Session.IsGuided.isInvariant {P : Session α → Prop} (hP : IsGuided config P) :
    IsInvariant config P where
  start area hroute hsmoother := by
    obtain rfl := Smoother.start?_eq_some hsmoother
    exact hP.start area hroute
  applyFix {now fix} d _ h := by
    have hreceived := hP.congr (d.sameCourse_receive now fix) h
    exact hP.congr (Dispatch.sameCourse_announce config _)
      (hP.advance fix.point fix.time hreceived)
  begin now d h := by
    unfold Dispatch.begin
    by_cases hphase : d.session.phase = .preview
    · rw [if_pos hphase]
      have hbegun : P { d.session with lastSignal := some now } :=
        hP.congr (t := d.session) ⟨rfl, rfl, rfl, rfl, rfl, rfl, rfl⟩ h
      exact hP.congr (Dispatch.sameCourse_announce config _) (hP.begin _ (.inl hphase) hbegun)
    · rwa [if_neg hphase]
  settle now d h := by
    unfold Dispatch.settle
    split_ifs with hphase
    · exact hP.congr (Dispatch.sameCourse_announce config _) (hP.begin .active (.inr hphase) h)
    · exact h
  accept now d h := by
    unfold Dispatch.accept
    split
    · rename_i m hm
      split_ifs
      · extract_lets resumed shown
        have hshown : P shown.session := by
          unfold shown
          split <;> exact hP.resume hm h
        exact hP.congr (Dispatch.sameCourse_announce config _) hshown
      · exact h
    · exact h
  dismiss now d h := by
    unfold Dispatch.dismiss
    split_ifs
    · exact hP.congr (Dispatch.sameCourse_announce config _) (hP.decline h)
    · exact h
  resolve id found d h := hP.congr (d.sameCourse_resolve id found) h
  loseSignal d h := hP.congr (d.sameCourse_loseSignal config) h

/-- True of a session and the effects so far. -/
def Dispatch.Shows {α : Type} (P : Session α → List (Effect α) → Prop) (d : Dispatch α) : Prop :=
  P d.session d.effects

/-- True of the session that is loaded and the effects so far. -/
def Outcome.Shows {α : Type} (P : Session α → List (Effect α) → Prop) (o : Outcome α) : Prop :=
  ∃ s, o.navigator.session = some s ∧ P s o.effects

/-- Kept by the tasks that are due. -/
structure Session.Waits (config : Config α) (P : Session α → List (Effect α) → Prop) : Prop where
  beside : ∀ {s : Session α} {effects : List (Effect α)} {e : Effect α}, e.IsBeside →
    P s effects → P s (effects ++ [e])
  settle : ∀ (now : Int) (d : Dispatch α), d.Shows P → (d.settle config now).Shows P

/-- Kept by everything a session does but taking in a fix. -/
structure Session.Lasts (config : Config α) (P : Session α → List (Effect α) → Prop) : Prop
    extends Waits config P where
  begin : ∀ (now : Int) (d : Dispatch α), d.Shows P → (d.begin config now).Shows P
  accept : ∀ (now : Int) (d : Dispatch α), d.Shows P → (d.accept config now).Shows P
  dismiss : ∀ (now : Int) (d : Dispatch α), d.Shows P → (d.dismiss config now).Shows P
  resolve : ∀ (id : Nat) (found : Option (List (Point α))) (d : Dispatch α), d.Shows P →
    (d.resolve id found).Shows P
  loseSignal : ∀ d : Dispatch α, d.Shows P → (d.loseSignal config).Shows P

theorem Session.Lasts.checkSignal {P : Session α → List (Effect α) → Prop} (hP : Lasts config P)
    (now : Int) (d : Dispatch α) (h : d.Shows P) : (d.checkSignal config now).Shows P := by
  rcases d.checkSignal_cases config now with heq | heq <;> rw [heq]
  · exact hP.loseSignal d h
  · exact h

namespace Outcome

open Session

variable {P : Session α → List (Effect α) → Prop} {o o' : Outcome α}

omit [Scalar α] [Geodesy α] in
theorem Shows.inSession (h : o.Shows P) {operation : Dispatch α → Dispatch α}
    (hop : ∀ d : Dispatch α, d.Shows P → (operation d).Shows P) :
    (o.inSession operation).Shows P := by
  obtain ⟨s, hs, hP⟩ := h
  rw [inSession_some hs]
  exact ⟨_, rfl, hop (o.dispatch s) hP⟩

omit [Scalar α] [Geodesy α] in
theorem Shows.leaves (h : o.Shows P) (hleaves : o.LeavesSession o')
    (hbeside : ∀ {s : Session α} {effects : List (Effect α)} {e : Effect α}, e.IsBeside →
      P s effects → P s (effects ++ [e])) : o'.Shows P := by
  obtain ⟨s, hs, hshown⟩ := h
  obtain ⟨hsession, new, heffects, hnew⟩ := hleaves
  refine ⟨s, hsession.trans hs, ?_⟩
  rw [heffects]
  generalize o.effects = effects at hshown
  clear heffects
  induction new generalizing effects with
  | nil => rwa [List.append_nil]
  | cons e new ih =>
    obtain ⟨he, hnew⟩ := List.forall_mem_cons.1 hnew
    rw [List.append_cons]
    exact ih hnew (effects ++ [e]) (hbeside he hshown)

theorem Shows.runTasks (hP : Waits config P) : ∀ (tasks : List Task) {o : Outcome α}, o.Shows P →
    (tasks.foldl (runTask config now) o).Shows P
  | [], _, h => h
  | .settle :: tasks, _, h => runTasks hP tasks (h.inSession (hP.settle now))
  | .flush area :: tasks, o, h =>
    runTasks hP tasks (h.leaves (leavesSession_flush config now o area) hP.beside)

/-- What lasts is ended by nothing but a good fix, unless the area is unloaded. -/
theorem Shows.respond (hP : Lasts config P) (h : o.Shows P) {event : Event α}
    (hkeeps : ¬ event.Unloads) (hfix : ∀ fix s, event = .fix fix →
      fix.check now config.guidance.maxAge config.guidance.maxAccuracy = none →
        o.navigator.session = some s → ((o.dispatch s).applyFix config now fix).Shows P)
    (hok : Navigator.respond config now o event = .ok o') : o'.Shows P := by
  obtain ⟨operation, hdoes, hleaves⟩ := respond_does hkeeps hok
  refine Shows.leaves ?_ hleaves hP.beside
  cases hdoes with
  | fix hgood =>
    obtain ⟨s, hs, -⟩ := h
    rw [inSession_some hs]
    exact ⟨_, rfl, hfix _ s rfl hgood hs⟩
  | ignore => exact h.inSession hP.loseSignal
  | begin => exact h.inSession (hP.begin now)
  | accept => exact h.inSession (hP.accept now)
  | dismiss => exact h.inSession (hP.dismiss now)
  | resolve id found => exact h.inSession (hP.resolve id found)
  | flushed | view => rwa [inSession_id]
  | tick => exact h.inSession (hP.checkSignal now)

end Outcome

theorem Session.Waits.due {P : Session α → List (Effect α) → Prop} (hP : Waits config P)
    {n : Navigator α} {s : Session α} (hs : n.session = some s) (h : P s []) :
    (n.due config now).Shows P :=
  Outcome.Shows.runTasks hP _ ⟨s, hs, h⟩

/-- Only a session at the start has a part in the tasks that are due. -/
theorem Navigator.leavesSession_due {n : Navigator α} {s : Session α} (hs : n.session = some s)
    (hphase : s.phase ≠ .atStart) : (⟨n, []⟩ : Outcome α).LeavesSession (n.due config now) := by
  have hkept : Session.Waits config fun t effects => t = s ∧ ∀ e ∈ effects, e.IsBeside := by
    refine ⟨fun he h => ⟨h.1, List.forall_mem_append.2 ⟨h.2, List.forall_mem_singleton.2 he⟩⟩,
      fun now d h => ?_⟩
    have hsettled : d.settle config now = d := if_neg fun hstart => hphase (h.1 ▸ hstart)
    rwa [hsettled]
  have hdue : (n.due config now).Shows fun t effects => t = s ∧ ∀ e ∈ effects, e.IsBeside :=
    hkept.due hs ⟨rfl, by simp⟩
  obtain ⟨t, ht, rfl, hbeside⟩ := hdue
  exact ⟨ht.trans hs.symm, _, rfl, hbeside⟩

theorem Navigator.session_due {n : Navigator α} {s : Session α} (hs : n.session = some s)
    (hphase : s.phase ≠ .atStart) : (n.due config now).navigator.session = some s :=
  (leavesSession_due hs hphase).session.trans hs

end Roadbook

import Roadbook.Proofs.Coverage.Calls
import Roadbook.Proofs.Guidance.Deadlines
import Roadbook.Proofs.Guidance.Offer

/-!
# An area in place of another

Unloading leaves nothing but the view (`Outcome.unload_navigator`), and where no area is loaded
there is nothing else to begin with (`Navigator.Aligned.eq_vacant`). So loading an area comes to
the same as finishing and then loading it (`Outcome.replace_eq`), and what it leads to knows nothing
of what was before (`Navigator.Reachable.load_forgets`). No other call has an area remembered
(`Navigator.not_remembers_handle`), or is refused for a route or for want of room
(`Navigator.refusal_of_handle`).
-/

namespace Roadbook

variable {α : Type}

/-- No area is loaded and nothing is scheduled. -/
def Navigator.vacant (view : View) : Navigator α := ⟨none, none, .empty, view⟩

/-- An area has just been loaded. -/
def Navigator.loadedWith (area : Area α) (ranks : Nat → Nat) (session : Session α) (view : View) :
    Navigator α :=
  ⟨some session, some (.ofArea area ranks), .empty, view⟩

/-- What is told of an area that is loaded. -/
def Area.shown (area : Area α) (route : Route α) : List (Effect α) :=
  [.showRoute route, .showCoverage (Tracker.ofArea area).driven.toList
    (Tracker.ofArea area).undriven.toList, .phaseChanged .setup .preview, .rememberArea area.name]

/-- The effect has an area remembered. -/
def Effect.Remembers : Effect α → Prop
  | .rememberArea _ => True
  | _ => False

theorem Effect.IsOwn.not_remembers {e : Effect α} (h : e.IsOwn) : ¬ e.Remembers := by
  cases e with
  | rememberArea => exact h.elim
  | _ => exact id

theorem Effect.IsDue.not_remembers {e : Effect α} (h : e.IsDue) : ¬ e.Remembers := by
  cases e with
  | rememberArea => exact h.elim
  | _ => exact id

theorem Timers.eq_empty {timers : Timers} (h : ∀ task, timers.isScheduled task = false) :
    timers = .empty := by
  obtain ⟨l⟩ := timers
  have hnone : ∀ t, t ∉ l := fun t ht => by
    have hscheduled : Timers.isScheduled ⟨l⟩ t.task = true := isScheduled_iff.2 ⟨t, ht, rfl⟩
    rw [h t.task] at hscheduled
    cases hscheduled
  rw [List.eq_nil_iff_forall_not_mem.2 hnone]
  rfl

theorem Navigator.Aligned.eq_vacant {n : Navigator α} (h : n.Aligned []) (hs : n.session = none) :
    n = vacant n.view := by
  have ht : n.tracker = none := h.paired.tracker_eq_none hs
  have htimers : n.timers = .empty := Timers.eq_empty (h.not_isScheduled hs ht)
  obtain ⟨session, tracker, timers, view⟩ := n
  cases hs
  cases ht
  cases htimers
  rfl

namespace Outcome

variable {config : Config α} {now : Int} {o : Outcome α}

theorem drain_view (o : Outcome α) : o.drain.navigator.view = o.navigator.view := by
  rcases o.drain_cases with ⟨heq, -⟩ | ⟨t, -, heq⟩ <;> rw [heq] <;> rfl

theorem inSession_view (operation : Dispatch α → Dispatch α) (o : Outcome α) :
    (o.inSession operation).navigator.view = o.navigator.view := by
  unfold inSession
  split <;> rfl

theorem flush_view [Scalar α] (area : String) (o : Outcome α) :
    (o.flush config now area).navigator.view = o.navigator.view := by
  unfold flush
  split
  · rfl
  · split_ifs
    · rfl
    · rfl
    · split <;> rfl

theorem load_vacant {view : View} (ho : o.navigator = .vacant view) (area : Area α)
    (ranks : Nat → Nat) (session : Session α) : o.load area ranks session =
      ⟨.loadedWith area ranks session view, o.effects ++ area.shown session.route⟩ := by
  simp only [load, emit, withSession, withTracker, ho, Navigator.vacant, List.append_assoc]
  rfl

variable [Scalar α]

/-- Unloading leaves nothing but the view. -/
theorem unload_navigator (config : Config α) (now : Int) (o : Outcome α) :
    (o.unload config now).navigator = .vacant o.navigator.view := by
  have hs : (o.unload config now).navigator.session = none := unload_session o
  have hview : (o.unload config now).navigator.view = o.navigator.view :=
    (drain_view _).trans (inSession_view _ o)
  rw [← hview]
  exact (aligned_unload o).eq_vacant hs

theorem unload_of_vacant {view : View} (ho : o.navigator = .vacant view) :
    o.unload config now = o := by
  obtain ⟨n, effects⟩ := o
  cases ho
  rfl

/-- Where nothing is loaded there is nothing to unload, so it makes no difference to do so. -/
theorem replace_eq (h : o.navigator.Aligned []) (area : Area α) (ranks : Nat → Nat)
    (session : Session α) :
    o.replace config now area ranks session = (o.unload config now).load area ranks session := by
  unfold replace
  dsimp only
  split_ifs with hs
  · rfl
  · have hs : o.navigator.session = none := by simpa using hs
    rw [unload_of_vacant (h.eq_vacant hs)]

variable [Geodesy α]

theorem runTasks_view : ∀ (tasks : List Task) (o : Outcome α),
    (tasks.foldl (runTask config now) o).navigator.view = o.navigator.view
  | [], _ => rfl
  | .settle :: tasks, o => (runTasks_view tasks _).trans (inSession_view _ o)
  | .flush area :: tasks, o => (runTasks_view tasks _).trans (flush_view area o)

/-- No effect so far has an area remembered. -/
def IsSilent (o : Outcome α) : Prop := ∀ e ∈ o.effects, ¬ e.Remembers

omit [Scalar α] [Geodesy α] in
theorem IsSilent.emit (h : o.IsSilent) {e : Effect α} (he : ¬ e.Remembers) : (o.emit e).IsSilent :=
  List.forall_mem_append.2 ⟨h, List.forall_mem_singleton.2 he⟩

omit [Geodesy α] in
theorem IsSilent.acts (h : o.IsSilent) {operation : Dispatch α → Dispatch α}
    (hop : ∀ d, Dispatch.Acts config now d (operation d)) : (o.inSession operation).IsSilent := by
  rcases hs : o.navigator.session with _ | s
  · rwa [inSession_none hs]
  · rw [inSession_some hs]
    obtain ⟨new, heffects, hown⟩ := (hop (o.dispatch s)).effects
    show ∀ e ∈ (operation (o.dispatch s)).effects, ¬ e.Remembers
    rw [heffects]
    exact List.forall_mem_append.2 ⟨h, fun e he => (hown e he).not_remembers⟩

omit [Scalar α] [Geodesy α] in
theorem IsSilent.resolve (h : o.IsSilent) (n : Nat) (found : Option (List (Point α))) :
    (o.inSession (·.resolve n found)).IsSilent := by
  rcases hs : o.navigator.session with _ | s
  · rwa [inSession_none hs]
  · rw [inSession_some hs]
    rcases (o.dispatch s).resolve_cases n found with heq | ⟨r, -, -, -, heq⟩ <;> rw [heq]
    · exact h
    · exact List.forall_mem_append.2 ⟨h, List.forall_mem_singleton.2 id⟩

theorem IsSilent.onFix (h : o.IsSilent) {fix : Fix α} {o' : Outcome α}
    (hok : o.onFix config now fix = .ok o') : o'.IsSilent := by
  unfold Outcome.onFix at hok
  split at hok
  · cases hok
    have hlost : ∀ d, Dispatch.Acts config now d (d.loseSignal config) := Dispatch.acts_loseSignal
    exact h.acts hlost
  · have hmoved : (o.inSession (·.applyFix config now fix)).IsSilent :=
      h.acts (Dispatch.acts_applyFix · fix)
    have haimed : ((o.inSession (·.applyFix config now fix)).aim fix).IsSilent := by
      unfold aim
      split
      · split_ifs
        · exact hmoved.emit id
        · exact hmoved
      · exact hmoved
    rcases cover_cases hok with rfl | ⟨t, hits, tracker, -, -, -, rfl⟩
    · exact haimed
    · exact List.forall_mem_append.2 ⟨haimed, List.forall_mem_singleton.2 id⟩

omit [Geodesy α] in
theorem IsSilent.unload (h : o.IsSilent) : (o.unload config now).IsSilent := by
  have hfinished : (o.inSession (·.finish config now)).IsSilent := h.acts Dispatch.acts_finish
  have hgone : ((o.inSession (·.finish config now)).withSession none).IsSilent := hfinished
  rcases drain_cases ((o.inSession (·.finish config now)).withSession none) with
    ⟨heq, -⟩ | ⟨t, -, heq⟩ <;> rw [Outcome.unload, heq]
  · exact hgone
  · exact List.forall_mem_append.2 ⟨hgone, List.forall_mem_singleton.2 id⟩

/-- Only loading an area has one remembered. -/
theorem IsSilent.respond (h : o.IsSilent) {event : Event α}
    (hevent : ∀ area ranks, event ≠ .areaLoaded area ranks) {o' : Outcome α}
    (hok : Navigator.respond config now o event = .ok o') : o'.IsSilent := by
  cases event with
  | areaLoaded area ranks => exact absurd rfl (hevent area ranks)
  | fix fix => exact h.onFix hok
  | begin =>
    cases hok
    exact h.acts Dispatch.acts_begin
  | acceptOffer =>
    cases hok
    exact h.acts Dispatch.acts_accept
  | dismissOffer =>
    cases hok
    exact h.acts Dispatch.acts_dismiss
  | directions id found =>
    cases hok
    exact h.resolve id found
  | flushed area success =>
    cases hok
    unfold IsSilent
    rwa [onFlushed_effects]
  | view view =>
    cases hok
    exact h
  | tick =>
    cases hok
    exact h.acts Dispatch.acts_checkSignal
  | finish =>
    cases hok
    exact h.unload

end Outcome

namespace Navigator

variable [Scalar α] [Geodesy α] {config : Config α} {now : Int} {n : Navigator α}

theorem due_view (config : Config α) (now : Int) (n : Navigator α) :
    (n.due config now).navigator.view = n.view :=
  Outcome.runTasks_view _ _

theorem handle_finish (config : Config α) (now : Int) (n : Navigator α) :
    n.handle config now .finish
      = (.ok ((n.due config now).unload config now).effects, vacant n.view) := by
  rw [← due_view config now n, ← Outcome.unload_navigator config now]
  rfl

/-- An area is loaded as if the one before it had been finished first. -/
theorem Reachable.handle_areaLoaded (h : Reachable config n) (now : Int) {area : Area α}
    (ranks : Nat → Nat) {route : Route α}
    (hroute : Route.ofPoints config.turns area.route = .ok route)
    (hroom : config.smoothing.capacity < Smoother.tooManySamples) :
    n.handle config now (.areaLoaded area ranks)
      = (.ok (((n.due config now).unload config now).effects ++ area.shown route),
        loadedWith area ranks (.ofRoute area.name route .fresh) n.view) := by
  have haligned : (n.due config now).navigator.Aligned [] := Outcome.aligned_runDue h.aligned
  have hvacated : ((n.due config now).unload config now).navigator = vacant n.view := by
    rw [Outcome.unload_navigator, due_view]
  have hstart : Smoother.start? config.smoothing = some .fresh := if_pos hroom
  have hresponse : respond config now (n.due config now) (.areaLoaded area ranks)
      = .ok ((n.due config now).replace config now area ranks (.ofRoute area.name route .fresh)) :=
    Outcome.respond_areaLoaded_iff.2 ⟨route, .fresh, hroute, hstart, rfl⟩
  rw [Outcome.replace_eq haligned, Outcome.load_vacant hvacated] at hresponse
  simp only [Navigator.handle, hresponse]
  rfl

theorem handle_areaLoaded_noRoute (n : Navigator α) (now : Int) {area : Area α} (ranks : Nat → Nat)
    {fault : RouteError α} (hroute : Route.ofPoints config.turns area.route = .error fault) :
    n.handle config now (.areaLoaded area ranks)
      = (.error (.route fault), (n.due config now).navigator) := by
  simp only [Navigator.handle, respond, hroute]

theorem handle_areaLoaded_noRoom (n : Navigator α) (now : Int) {area : Area α} (ranks : Nat → Nat)
    {route : Route α}
    (hroute : Route.ofPoints config.turns area.route = .ok route)
    (hroom : ¬ config.smoothing.capacity < Smoother.tooManySamples) :
    n.handle config now (.areaLoaded area ranks)
      = (.error .noRoom, (n.due config now).navigator) := by
  have hstart : Smoother.start? config.smoothing = none := if_neg hroom
  simp only [Navigator.handle, respond, hroute, Session.start?, hstart, Option.map_none]

/-- An area has a route and there is room for the samples along it, or it is refused, and in order
only if it has no route. -/
theorem handle_areaLoaded_cases (config : Config α) (n : Navigator α) (now : Int) (area : Area α)
    (ranks : Nat → Nat) :
    (∃ route, Route.ofPoints config.turns area.route = .ok route
        ∧ config.smoothing.capacity < Smoother.tooManySamples)
      ∨ ∃ reason n', n.handle config now (.areaLoaded area ranks) = (.error reason, n')
        ∧ (reason.isBeyondLimits = false →
          ∃ fault, Route.ofPoints config.turns area.route = .error fault) := by
  rcases hroute : Route.ofPoints config.turns area.route with fault | route
  · exact .inr ⟨_, _, n.handle_areaLoaded_noRoute now ranks hroute, fun _ => ⟨fault, rfl⟩⟩
  by_cases hroom : config.smoothing.capacity < Smoother.tooManySamples
  · exact .inl ⟨route, rfl, hroom⟩
  · exact .inr ⟨_, _, n.handle_areaLoaded_noRoom now ranks hroute hroom, nofun⟩

theorem Reachable.of_load (h : Reachable config n) {area : Area α} {ranks : Nat → Nat}
    {shown : List (Effect α)} {n₀ : Navigator α}
    (hload : n.handle config now (.areaLoaded area ranks) = (.ok shown, n₀)) :
    ∃ route, shown = ((n.due config now).unload config now).effects ++ area.shown route
      ∧ n₀ = loadedWith area ranks (.ofRoute area.name route .fresh) n.view := by
  rcases n.handle_areaLoaded_cases config now area ranks with
    ⟨route, hroute, hroom⟩ | ⟨_, _, heq, -⟩
  · cases (h.handle_areaLoaded now ranks hroute hroom).symm.trans hload
    exact ⟨route, rfl, rfl⟩
  · cases heq.symm.trans hload

/-- Only an area that is loaded can be refused for its route or for want of room. -/
theorem refusal_of_handle {event : Event α} (hevent : ∀ area ranks, event ≠ .areaLoaded area ranks)
    {refusal : Refusal α} {n' : Navigator α}
    (h : n.handle config now event = (.error refusal, n')) : refusal = .noBounds := by
  rcases handle_cases config n now event with ⟨o, -, heq⟩ | ⟨reason, hrefused, heq⟩
  · cases heq.symm.trans h
  · obtain ⟨rfl, -⟩ : reason = refusal ∧ (n.due config now).navigator = n' := by
      simpa [heq] using h
    cases event with
    | areaLoaded area ranks => exact absurd rfl (hevent area ranks)
    | fix fix =>
      simp only [respond, Outcome.onFix, Outcome.cover] at hrefused
      split at hrefused
      · cases hrefused
      · split at hrefused
        · split_ifs at hrefused
          split at hrefused <;> cases hrefused
          rfl
        · cases hrefused
    | _ => cases hrefused

theorem not_remembers_handle {event : Event α}
    (hevent : ∀ area ranks, event ≠ .areaLoaded area ranks) {effects : List (Effect α)} {n' : Navigator α}
    (h : n.handle config now event = (.ok effects, n')) : ∀ e ∈ effects, ¬ e.Remembers := by
  rcases handle_cases config n now event with ⟨o, hok, heq⟩ | ⟨_, _, heq⟩
  · obtain ⟨rfl, -⟩ : o.effects = effects ∧ o.navigator = n' := by simpa [heq] using h
    refine Outcome.IsSilent.respond (fun e he => ?_) hevent hok
    exact (effects_due config now n e he).not_remembers
  · cases heq.symm.trans h

theorem reachable_vacant (view : View) : Reachable config (vacant view : Navigator α) :=
  Reachable.fresh.handle 0 (.view view)

end Navigator

end Roadbook

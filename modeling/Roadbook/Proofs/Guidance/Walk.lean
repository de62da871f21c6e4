import Roadbook.Proofs.Guidance.Operations
import Roadbook.Proofs.Guidance.Run

/-!
# The phases of a journey in order

The changes of phase that a navigator tells of make up a walk: each starts in the phase in which the
one before has ended, and the last one ends in the phase that the navigator is in
(`Navigator.phases_walk`). The walk goes along `Phase.Leads`, but for a step back to the setup when
the area is unloaded (`Event.Allows`).
-/

namespace Roadbook

namespace Phase

/-- The phases that a phase leads to while an area is loaded, and from the setup by loading one. -/
def Leads : Phase → Phase → Prop
  | setup, q => q = preview
  | preview, q => q = toStart ∨ q = active
  | toStart, q => q = atStart
  | atStart, q => q = active
  | active, q => q = offRoute ∨ q = resume ∨ q = arrived
  | offRoute, q => q = active ∨ q = resume ∨ q = arrived
  | resume, q => q = active ∨ q = offRoute ∨ q = arrived
  | arrived, _ => False

theorem Leads.ne {p q : Phase} (h : p.Leads q) : p ≠ q := by
  rintro rfl
  cases p <;> simp [Leads] at h

theorem Leads.ne_setup {p q : Phase} (h : p.Leads q) : q ≠ setup := by
  rintro rfl
  cases p <;> simp [Leads] at h

/-- A fix leaves the phase as it is or leads on. -/
theorem next_leads {α : Type} [Scalar α] (rules : Config.Guidance α) (reading : Reading α)
    (p : Phase) : p = p.next rules reading ∨ p.Leads (p.next rules reading) := by
  cases p <;> simp only [next, Leads] <;> (try split_ifs) <;> simp

/-- Changes of phase that follow one another from one phase to another, each of a certain kind. -/
def IsWalk (step : Phase → Phase → Prop) (p : Phase) : List (Phase × Phase) → Phase → Prop
  | [], q => p = q
  | change :: changes, q =>
    change.1 = p ∧ step change.1 change.2 ∧ IsWalk step change.2 changes q

variable {step step' : Phase → Phase → Prop} {changes changes' : List (Phase × Phase)}

theorem IsWalk.append : ∀ {changes : List (Phase × Phase)} {p q r : Phase},
    IsWalk step p changes q → IsWalk step q changes' r → IsWalk step p (changes ++ changes') r
  | [], _, _, _, rfl, h' => h'
  | _ :: _, _, _, _, ⟨hp, hstep, h⟩, h' => ⟨hp, hstep, h.append h'⟩

theorem IsWalk.concat {p q r : Phase} (h : IsWalk step p changes q) (hstep : step q r) :
    IsWalk step p (changes ++ [(q, r)]) r :=
  h.append ⟨rfl, hstep, rfl⟩

theorem IsWalk.mono (hle : ∀ p q, step p q → step' p q) : ∀ {changes : List (Phase × Phase)}
    {p q : Phase}, IsWalk step p changes q → IsWalk step' p changes q
  | [], _, _, h => h
  | _ :: _, _, _, ⟨hp, hstep, h⟩ => ⟨hp, hle _ _ hstep, h.mono hle⟩

theorem IsWalk.step_of_mem : ∀ {changes : List (Phase × Phase)} {p q : Phase},
    IsWalk step p changes q → ∀ change ∈ changes, step change.1 change.2
  | _ :: _, _, _, ⟨_, hstep, h⟩, change, hmem => by
    rcases List.mem_cons.1 hmem with rfl | hmem
    · exact hstep
    · exact h.step_of_mem change hmem

end Phase

namespace Effect

variable {α : Type}

/-- The change of phase that an effect tells of. -/
def change? : Effect α → Option (Phase × Phase)
  | .phaseChanged before after => some (before, after)
  | _ => none

/-- The changes of phase that effects tell of, in order. -/
def changes (effects : List (Effect α)) : List (Phase × Phase) := effects.filterMap change?

@[simp] theorem changes_append (effects new : List (Effect α)) :
    changes (effects ++ new) = changes effects ++ changes new :=
  List.filterMap_append

theorem changes_singleton_of_none {e : Effect α} (h : e.change? = none) : changes [e] = [] :=
  List.filterMap_cons_none h

theorem IsBeside.change?_eq_none {e : Effect α} (h : e.IsBeside) : e.change? = none := by
  cases e <;> first | rfl | exact h.elim

end Effect

open Phase Effect

namespace Dispatch

variable {α : Type} {step : Phase → Phase → Prop} {p : Phase} {d : Dispatch α}

/-- The effects so far tell of a walk from a phase to the one that the session is in. -/
def Walks (step : Phase → Phase → Prop) (p : Phase) (d : Dispatch α) : Prop :=
  IsWalk step p (changes d.effects) d.session.phase

theorem Walks.withSession (h : d.Walks step p) {s : Session α} (hs : s.phase = d.session.phase) :
    (d.withSession s).Walks step p := by
  unfold Walks
  rw [show (d.withSession s).session.phase = d.session.phase from hs]
  exact h

theorem Walks.emit (h : d.Walks step p) {e : Effect α} (he : e.change? = none) :
    (d.emit e).Walks step p := by
  unfold Walks Dispatch.emit
  rw [changes_append, changes_singleton_of_none he, List.append_nil]
  exact h

theorem Walks.request (h : d.Walks step p) (purpose : Purpose) (a b : Point α) :
    (d.request purpose a b).Walks step p := by
  have hasked : (d.withSession { d.session with
      pending := some (d.nextRequest purpose a b)
      nextRequest := d.session.nextRequest + 1 }).Walks step p := h.withSession rfl
  exact hasked.emit rfl

theorem Walks.resolve (h : d.Walks step p) (id : Nat) (found : Option (List (Point α))) :
    (d.resolve id found).Walks step p := by
  rcases d.resolve_cases id found with heq | ⟨r, -, -, -, heq⟩ <;> rw [heq]
  · exact h
  · have hanswered : (d.withSession { d.session with pending := none }).Walks step p :=
      h.withSession rfl
    exact hanswered.emit rfl

variable [Scalar α] {config : Config α} {now : Int}

theorem Walks.arrange (h : d.Walks step p) (before : Phase) :
    (d.arrange config now before).Walks step p := by
  rcases d.arrange_cases config now before with
    ⟨purpose, a, b, -, heq⟩ | ⟨-, heq⟩ | ⟨-, s, hs, heq⟩ <;> rw [heq]
  · exact h.request purpose a b
  · exact h
  · exact h.withSession hs.phase

theorem Walks.transition (h : d.Walks step p) {phase : Phase}
    (hstep : d.session.phase = phase ∨ step d.session.phase phase) :
    (d.transition config now phase).Walks step p := by
  by_cases heq : d.session.phase = phase
  · rwa [← heq, transition_self]
  · rw [transition_of_ne heq]
    have hentering : (d.entering phase).Walks step p := by
      unfold Walks entering
      rw [changes_append]
      exact IsWalk.concat h (hstep.resolve_left heq)
    exact hentering.arrange _

theorem Walks.askForStart (h : d.Walks step p) (a : Point α) : (d.askForStart a).Walks step p := by
  rcases askForStart_cases d a with heq | ⟨b, -, heq⟩ <;> rw [heq]
  · exact h
  · exact h.request .toStart a b

theorem Walks.finish (h : d.Walks step p)
    (hend : ∀ q, q ≠ .setup → step q .setup) : (d.finish config now).Walks step p :=
  h.transition ((eq_or_ne _ _).imp_right (hend _))

variable [Geodesy α]

theorem Walks.announce (h : d.Walks step p) : (d.announce config).Walks step p := by
  rcases announce_cases config d with heq | ⟨a, heq⟩ <;> rw [heq]
  · exact h
  · have hannounced : (d.withSession { d.session with announced := some a }).Walks step p :=
      h.withSession rfl
    exact hannounced.emit rfl

theorem Walks.loseSignal (h : d.Walks step p) : (d.loseSignal config).Walks step p := by
  unfold Dispatch.loseSignal
  split_ifs
  · have hwaiting : (d.withSession { d.session with waiting := true }).Walks step p :=
      h.withSession rfl
    exact (hwaiting.emit rfl).announce
  · exact h

theorem Walks.checkSignal (h : d.Walks step p) : (d.checkSignal config now).Walks step p := by
  rcases d.checkSignal_cases config now with heq | heq <;> rw [heq]
  · exact h.loseSignal
  · exact h

theorem Walks.receive (h : d.Walks step p) (fix : Fix α) : (d.receive now fix).Walks step p := by
  have hreceived : (d.withSession (d.session.withFix fix now)).Walks step p := h.withSession rfl
  unfold Dispatch.receive
  dsimp only
  split_ifs
  · exact hreceived.emit rfl
  · exact hreceived

theorem Walks.advance (h : d.Walks step p) (point : Point α) (time : Int) :
    (d.advance config point time).2.Walks step p := by
  unfold Dispatch.advance
  dsimp only
  split_ifs
  · exact h.withSession rfl
  · exact h.askForStart point

section Leads

variable (hleads : ∀ q r, Leads q r → step q r)
include hleads

/-- The phase that a fix leads to may be entered. -/
theorem advance_leads (config : Config α) (d : Dispatch α) (point : Point α) (time : Int) :
    (d.advance config point time).2.session.phase = (d.advance config point time).1
      ∨ step (d.advance config point time).2.session.phase (d.advance config point time).1 := by
  unfold Dispatch.advance
  dsimp only
  split_ifs with hguiding
  · exact (next_leads config.guidance _ d.session.phase).imp_right (hleads _ _)
  · have hphase : (d.askForStart point).session.phase = d.session.phase := by
      rcases askForStart_cases d point with heq | ⟨b, -, heq⟩ <;> rw [heq]
      rfl
    rw [hphase]
    exact (next_leads config.guidance _ d.session.phase).imp_right (hleads _ _)

omit [Geodesy α] in
theorem Walks.moveOn (h : d.Walks step p) {phase : Phase}
    (hstep : d.session.phase = phase ∨ step d.session.phase phase) :
    (d.moveOn config now phase).Walks step p := by
  have hmoved : (d.transition config now phase).Walks step p := h.transition hstep
  unfold Dispatch.moveOn
  dsimp only
  split_ifs with hresume
  · refine hmoved.transition (.inr (hleads _ _ ?_))
    rw [hresume.1]
    exact .inr (.inl rfl)
  · exact hmoved

theorem Walks.applyFix (h : d.Walks step p) (fix : Fix α) :
    (d.applyFix config now fix).Walks step p := by
  have hadvanced : ((d.receive now fix).advance config fix.point fix.time).2.Walks step p :=
    (h.receive fix).advance fix.point fix.time
  have hstep := advance_leads hleads config (d.receive now fix) fix.point fix.time
  exact ((hadvanced.moveOn hleads hstep).emit rfl).announce

theorem Walks.begin (h : d.Walks step p) : (d.begin config now).Walks step p := by
  unfold Dispatch.begin
  by_cases hphase : d.session.phase = .preview
  · rw [if_pos hphase]
    extract_lets phase
    have hleaving : (d.withSession { d.session with lastSignal := some now }).Walks step p :=
      h.withSession rfl
    refine (hleaving.transition (.inr (hleads _ _ ?_))).announce
    show Leads d.session.phase phase
    rw [hphase]
    unfold phase
    split_ifs
    · exact .inr rfl
    · exact .inl rfl
  · rwa [if_neg hphase]

theorem Walks.settle (h : d.Walks step p) : (d.settle config now).Walks step p := by
  unfold Dispatch.settle
  split_ifs with hphase
  · refine (h.transition (.inr (hleads _ _ ?_))).announce
    rw [hphase]
    exact rfl
  · exact h

theorem Walks.accept (h : d.Walks step p) : (d.accept config now).Walks step p := by
  unfold Dispatch.accept
  split
  · rename_i m hm
    split_ifs with hphase
    · extract_lets resumed shown
      have hforced : (d.withSession (d.session.resumeAt m)).Walks step p := h.withSession rfl
      have hresumed : resumed.Walks step p := by
        refine hforced.transition (.inr (hleads _ _ ?_))
        show Leads d.session.phase .active
        rw [hphase]
        exact .inl rfl
      have hshown : shown.Walks step p := by
        unfold shown
        split
        · exact hresumed.emit rfl
        · exact hresumed
      exact hshown.announce
    · exact h
  · exact h

theorem Walks.dismiss (h : d.Walks step p) : (d.dismiss config now).Walks step p := by
  unfold Dispatch.dismiss
  split_ifs with hphase
  · have hdeclined : (d.withSession { d.session with dismissed := true, offer := none }).Walks
        step p := h.withSession rfl
    refine (hdeclined.transition (.inr (hleads _ _ ?_))).announce
    show Leads d.session.phase .offRoute
    rw [hphase]
    exact .inr (.inl rfl)
  · exact h

end Leads

end Dispatch

namespace Outcome

variable {α : Type} {step : Phase → Phase → Prop} {p : Phase} {o o' : Outcome α}

/-- What a session has no part in tells of no change of its phase. -/
theorem LeavesSession.changes_eq (h : o.LeavesSession o') :
    changes o'.effects = changes o.effects := by
  obtain ⟨-, new, heffects, hnew⟩ := h
  have hnone : changes new = [] :=
    List.filterMap_eq_nil_iff.2 fun e he => (hnew e he).change?_eq_none
  rw [heffects, changes_append, hnone, List.append_nil]

/-- The effects so far tell of a walk from a phase to the one that the navigator is in. -/
def Walks (step : Phase → Phase → Prop) (p : Phase) (o : Outcome α) : Prop :=
  IsWalk step p (changes o.effects) o.navigator.phase

theorem Walks.inSession (h : o.Walks step p) {operation : Dispatch α → Dispatch α}
    (hop : ∀ d : Dispatch α, d.Walks step p → (operation d).Walks step p) :
    (o.inSession operation).Walks step p := by
  rcases hs : o.navigator.session with _ | s
  · rwa [inSession_none hs]
  · rw [inSession_some hs]
    have hphase : o.navigator.phase = s.phase := by simp only [Navigator.phase, hs]
    have hwalk : (o.dispatch s).Walks step p := by
      unfold Walks at h
      rwa [hphase] at h
    exact hop _ hwalk

theorem Walks.emit (h : o.Walks step p) {e : Effect α} (he : e.change? = none) :
    (o.emit e).Walks step p := by
  unfold Walks Outcome.emit
  rw [changes_append, changes_singleton_of_none he, List.append_nil]
  exact h

theorem Walks.flush [Scalar α] {config : Config α} {now : Int} (h : o.Walks step p) (area : String) :
    (o.flush config now area).Walks step p := by
  unfold Outcome.flush
  split
  · exact h
  · split_ifs
    · exact h
    · exact h
    · split
      · rename_i batch tracker _
        have hflying : (o.withTracker (some tracker)).Walks step p := h
        exact hflying.emit rfl
      · exact h

theorem Walks.drain (h : o.Walks step p) : o.drain.Walks step p := by
  have hgone : (o.withTracker none).Walks step p := h
  rcases o.drain_cases with ⟨heq, -⟩ | ⟨t, -, heq⟩ <;> rw [heq]
  · exact hgone
  · exact hgone.emit rfl

theorem Walks.aim (h : o.Walks step p) (fix : Fix α) : (o.aim fix).Walks step p := by
  unfold Outcome.aim
  split
  · split_ifs
    · exact h.emit rfl
    · exact h
  · exact h

theorem Walks.onFlushed [Scalar α] {config : Config α} {now : Int} (h : o.Walks step p)
    (area : String) (success : Bool) : (o.onFlushed config now area success).Walks step p := by
  rcases o.onFlushed_cases config now area success with ⟨t, timers, -, -, heq⟩ | ⟨-, heq⟩ <;>
    rw [heq]
  · exact h
  · exact h

theorem Walks.load (h : o.Walks step p) (hphase : o.navigator.phase = .setup)
    (hstep : step .setup .preview) (area : Area α) (ranks : Nat → Nat) (route : Route α)
    (smoother : Smoother α) :
    (o.load area ranks (.ofRoute area.name route smoother)).Walks step p := by
  have htold : changes (o.load area ranks (.ofRoute area.name route smoother)).effects
      = changes o.effects ++ [(.setup, .preview)] := by
    simp only [Outcome.load, Outcome.emit, changes_append, List.append_assoc]
    rfl
  have hwalk : IsWalk step p (changes o.effects) .setup := by
    rw [← hphase]
    exact h
  unfold Walks
  rw [htold]
  exact hwalk.concat hstep

variable [Scalar α] {config : Config α} {now : Int}

/-- When guidance is over and the session is given up, the navigator is back at the setup. -/
theorem Walks.unload (h : o.Walks step p) (hend : ∀ q, q ≠ .setup → step q .setup) :
    (o.unload config now).Walks step p := by
  have hfinished : (o.inSession (·.finish config now)).Walks step p :=
    h.inSession fun d hd => hd.finish hend
  have hphase : (o.inSession (·.finish config now)).navigator.phase = .setup := by
    rcases hs : o.navigator.session with _ | s
    · simp [inSession_none hs, Navigator.phase, hs]
    · rw [inSession_some hs]
      exact Dispatch.transition_phase _ _
  have hgone : ((o.inSession (·.finish config now)).withSession none).Walks step p := by
    unfold Walks at hfinished
    rwa [hphase] at hfinished
  exact hgone.drain

theorem Walks.replace (h : o.Walks step p) (hend : ∀ q, q ≠ .setup → step q .setup)
    (hstep : step .setup .preview) (area : Area α) (ranks : Nat → Nat) (route : Route α)
    (smoother : Smoother α) :
    (o.replace config now area ranks (.ofRoute area.name route smoother)).Walks step p := by
  unfold Outcome.replace
  have hphase : ∀ {o : Outcome α}, o.navigator.session = none → o.navigator.phase = .setup :=
    fun hs => by simp only [Navigator.phase, hs]
  split_ifs with hs
  · exact (h.unload hend).load (hphase (drain_session _)) hstep area ranks route smoother
  · exact h.load (hphase (by simpa using hs)) hstep area ranks route smoother

variable [Geodesy α]

theorem Walks.runTasks (hleads : ∀ q r, Leads q r → step q r) : ∀ (tasks : List Task)
    {o : Outcome α}, o.Walks step p → (tasks.foldl (runTask config now) o).Walks step p
  | [], _, h => h
  | .settle :: tasks, _, h => runTasks hleads tasks (h.inSession fun _ hd => hd.settle hleads)
  | .flush area :: tasks, _, h => runTasks hleads tasks (h.flush area)

theorem Walks.cover (h : o.Walks step p) {fix : Fix α} {o' : Outcome α}
    (hcover : o.cover config now fix = .ok o') : o'.Walks step p := by
  rcases cover_cases hcover with rfl | ⟨t, hits, tracker, -, -, -, rfl⟩
  · exact h
  · have hkept : (o.withTracker (some tracker)).Walks step p := h
    exact hkept.emit rfl

theorem Walks.onFix (h : o.Walks step p) (hleads : ∀ q r, Leads q r → step q r) {fix : Fix α}
    {o' : Outcome α} (hfix : o.onFix config now fix = .ok o') : o'.Walks step p := by
  unfold Outcome.onFix at hfix
  split at hfix
  · cases hfix
    exact h.inSession fun _ hd => hd.loseSignal
  · have hmoved : (o.inSession (·.applyFix config now fix)).Walks step p :=
      h.inSession fun _ hd => hd.applyFix hleads fix
    exact (hmoved.aim fix).cover hfix

end Outcome

namespace Event

variable {α : Type}

/-- The changes of phase that an event may bring about. -/
def Allows (event : Event α) (p q : Phase) : Prop :=
  p.Leads q ∨ event.Unloads ∧ p ≠ .setup ∧ q = .setup

theorem Allows.ne {event : Event α} {p q : Phase} (h : event.Allows p q) : p ≠ q := by
  rcases h with h | ⟨-, hp, rfl⟩
  · exact h.ne
  · exact hp

end Event

namespace Navigator

variable {α : Type} [Scalar α] [Geodesy α] {config : Config α} {now : Int}

theorem walks_respond {o : Outcome α} {p : Phase} {event : Event α} (h : o.Walks event.Allows p)
    {o' : Outcome α} (hok : respond config now o event = .ok o') : o'.Walks event.Allows p := by
  have hleads : ∀ q r, Leads q r → event.Allows q r := fun _ _ => .inl
  cases event with
  | areaLoaded area ranks =>
    obtain ⟨route, smoother, rfl⟩ := Outcome.respond_areaLoaded hok
    exact h.replace (fun q hq => .inr ⟨trivial, hq, rfl⟩) (.inl rfl) area ranks route smoother
  | fix fix => exact h.onFix hleads hok
  | begin =>
    cases hok
    exact h.inSession fun _ hd => hd.begin hleads
  | acceptOffer =>
    cases hok
    exact h.inSession fun _ hd => hd.accept hleads
  | dismissOffer =>
    cases hok
    exact h.inSession fun _ hd => hd.dismiss hleads
  | directions id found =>
    cases hok
    exact h.inSession fun _ hd => hd.resolve id found
  | flushed area success =>
    cases hok
    exact h.onFlushed area success
  | view view =>
    cases hok
    exact h
  | tick =>
    cases hok
    exact h.inSession fun _ hd => hd.checkSignal
  | finish =>
    cases hok
    exact h.unload fun q hq => .inr ⟨trivial, hq, rfl⟩

/-- The changes of phase told in a call go from the phase before it to the one after it. -/
theorem walk_handle {n n' : Navigator α} {event : Event α} {effects : List (Effect α)}
    (hok : n.handle config now event = (.ok effects, n')) :
    IsWalk event.Allows n.phase (changes effects) n'.phase := by
  rcases handle_cases config n now event with ⟨o, hrespond, heq⟩ | ⟨_, _, heq⟩
  · obtain ⟨rfl, rfl⟩ : o.effects = effects ∧ o.navigator = n' := by simpa [heq] using hok
    have hfresh : Outcome.Walks event.Allows n.phase
        (Outcome.withTimers ⟨n, []⟩ (n.timers.popDue now).2) := rfl
    exact walks_respond (Outcome.Walks.runTasks (fun _ _ => .inl) _ hfresh) hrespond
  · simp [heq] at hok

/-- Those told in a log go on from call to call. -/
theorem walk_log : ∀ (calls : List (Int × Event α)) (n : Navigator α),
    (∀ a ∈ n.log config calls, a.result.isOk = true) →
    IsWalk (fun p q => p.Leads q ∨ p ≠ .setup ∧ q = .setup) n.phase
        ((n.log config calls).flatMap fun a => changes a.effects) (n.run config calls).phase
      ∧ ∀ a ∈ n.log config calls, ∀ change ∈ changes a.effects, a.event.Allows change.1 change.2
  | [], _, _ => ⟨rfl, by simp [log]⟩
  | (now, event) :: calls, n, hok => by
    rcases hhandle : n.handle config now event with ⟨result, after⟩
    simp only [log, hhandle, List.forall_mem_cons] at hok
    rcases result with _ | effects
    · simp [Except.isOk, Except.toBool] at hok
    have hcall := walk_handle hhandle
    obtain ⟨hrest, hcalls⟩ := walk_log calls after hok.2
    rw [run_cons, hhandle]
    simp only [log, hhandle, List.flatMap_cons, List.forall_mem_cons]
    refine ⟨IsWalk.append (hcall.mono fun _ _ => Or.imp_right And.right) hrest, ?_, hcalls⟩
    exact fun change hmem => hcall.step_of_mem change hmem

/-- The changes of phase in a log from the start are a walk from the setup to the phase that the
navigator is in. None of them leads from a phase to itself, and those to the setup are told when the
area is unloaded. -/
theorem phases_walk (config : Config α) (calls : List (Int × Event α))
    (hok : ∀ a ∈ log config fresh calls, a.result.isOk = true) :
    IsWalk (fun p q => p.Leads q ∨ p ≠ .setup ∧ q = .setup) .setup
        ((log config fresh calls).flatMap fun a => changes a.effects)
        (run config fresh calls).phase
      ∧ ∀ a ∈ log config fresh calls, ∀ change ∈ changes a.effects, change.1 ≠ change.2
        ∧ (change.2 = .setup → a.event.Unloads) := by
  obtain ⟨hwalk, hcalls⟩ := walk_log calls fresh hok
  refine ⟨hwalk, fun a ha change hmem => ?_⟩
  have hstep := hcalls a ha change hmem
  refine ⟨hstep.ne, fun hsetup => ?_⟩
  rcases hstep with hleads | ⟨hunloads, -, -⟩
  · exact absurd hsetup hleads.ne_setup
  · exact hunloads

end Navigator

namespace Trial

/-- A driver comes to the start of the road, settles, is next seen at its end and goes on there. -/
def journey : List (Int × Event ℚ) :=
  [(0, .areaLoaded (area "north")), (0, seen (-5) 0), (0, .begin), (0, seen 0 0), (1500, .tick),
    (2000, seen 0 2000), (3000, seen 10 3000), (3000, .acceptOffer), (4000, seen 10 4000),
    (4000, .finish)]

end Trial

namespace Navigator

theorem phases_journey :
    IsWalk (fun p q => p.Leads q ∨ p ≠ .setup ∧ q = .setup) .setup
      [(.setup, .preview), (.preview, .toStart), (.toStart, .atStart), (.atStart, .active),
        (.active, .resume), (.resume, .active), (.active, .arrived), (.arrived, .setup)]
      (run .standard fresh Trial.journey).phase := by
  have hok : ∀ a ∈ log .standard fresh Trial.journey, a.result.isOk = true := by decide +kernel
  have htold : ((log .standard fresh Trial.journey).flatMap fun a => changes a.effects)
      = [(.setup, .preview), (.preview, .toStart), (.toStart, .atStart), (.atStart, .active),
        (.active, .resume), (.resume, .active), (.active, .arrived), (.arrived, .setup)] := by
    decide +kernel
  rw [← htold]
  exact (phases_walk .standard Trial.journey hok).1

end Navigator

end Roadbook

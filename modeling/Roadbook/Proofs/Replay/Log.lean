import Mathlib.Tactic.Common
import Roadbook.Replay.Basic

/-!
# What a replay shows

A rig whose hosts also keep what they show (`Rig.logged`) goes through the very replay that the rig
itself does (`Replay.unlogged_run`). So what it has kept in the end is what was shown in the course
of that replay (`Replay.told`).
-/

namespace Roadbook

variable {σ α : Type}

/-- The same rig, with hosts that keep what they show, in order. -/
def Rig.logged (rig : Rig σ α) : Rig (σ × List (Effect α)) α where
  config := rig.config
  speedup := rig.speedup
  autoResume := rig.autoResume
  follow := rig.follow
  schedule := rig.schedule
  directions := rig.directions
  persist h batch := ((rig.persist h.1 batch).1, (rig.persist h.1 batch).2, h.2)
  rememberArea h area := (rig.rememberArea h.1 area, h.2)
  display h effect := (rig.display h.1 effect, h.2 ++ [effect])
  ranks := rig.ranks

namespace Replay

/-- An effect that is shown changes the queue, if anything, beside the hosts. -/
theorem dispatch_of_isShown {effect : Effect α} (h : effect.isShown = true) (rig : Rig σ α)
    (r : Replay σ α) : r.dispatch rig effect =
      { r with
        queue := r.queue ++ if rig.autoResume && isOffer effect then [.acceptOffer] else []
        host := rig.display r.host effect } := by
  have hcases : (let answered := if rig.autoResume && isOffer effect then r.enqueue .acceptOffer
        else r
      ({ answered with host := rig.display answered.host effect } : Replay σ α)) =
        { r with
          queue := r.queue ++ if rig.autoResume && isOffer effect then [.acceptOffer] else []
          host := rig.display r.host effect } := by
    dsimp only
    split_ifs
    · rfl
    · rw [List.append_nil]
  cases effect <;> first | exact hcases | cases h

/-- A replay without what its hosts keep of what they have shown. -/
def unlogged (r : Replay (σ × List (Effect α)) α) : Replay σ α where
  navigator := r.navigator
  clock := r.clock
  jobs := r.jobs
  waits := r.waits
  queue := r.queue
  halt := r.halt
  host := r.host.1

variable (rig : Rig σ α) (r : Replay (σ × List (Effect α)) α)

theorem unlogged_dispatch (effect : Effect α) :
    (r.dispatch rig.logged effect).unlogged = r.unlogged.dispatch rig effect := by
  by_cases h : effect.isShown = true
  · rw [dispatch_of_isShown h, dispatch_of_isShown h]
    rfl
  · cases effect with
    | requestDirections request => rfl
    | persist batch last => cases last <;> rfl
    | rememberArea area => rfl
    | _ => exact absurd rfl h

theorem unlogged_dispatches (effects : List (Effect α)) :
    (effects.foldl (dispatch rig.logged) r).unlogged
      = effects.foldl (dispatch rig) r.unlogged :=
  (List.foldl_hom unlogged fun r effect => (unlogged_dispatch rig r effect).symm).symm

theorem unlogged_perform (job : Job α) :
    (r.perform rig.logged job).unlogged = r.unlogged.perform rig job := by
  cases job <;> rfl

theorem unlogged_wait : (r.wait rig.logged).unlogged = r.unlogged.wait rig := by
  unfold wait
  exact (List.foldl_hom unlogged fun r job => (unlogged_perform rig r job).symm).symm

variable [Scalar α] [Geodesy α]

theorem unlogged_handle (event : Event α) :
    (r.handle rig.logged event).unlogged = r.unlogged.handle rig event := by
  unfold handle
  by_cases hhalt : r.halt.isSome = true
  · have hhalt' : r.unlogged.halt.isSome = true := hhalt
    rw [if_pos hhalt, if_pos hhalt']
  · have hhalt' : ¬ r.unlogged.halt.isSome = true := hhalt
    have hanswer : r.answer rig.logged event = r.unlogged.answer rig event := rfl
    rw [if_neg hhalt, if_neg hhalt', hanswer]
    rcases r.unlogged.answer rig event with ⟨reason | effects, n⟩
    · rfl
    · exact unlogged_dispatches rig { r with navigator := n } effects

theorem unlogged_step (target : Int) : r.unlogged.step rig target
    = ((r.step rig.logged target).1, (r.step rig.logged target).2.unlogged) := by
  have hdeadline : r.unlogged.deadlineBy? target = r.deadlineBy? target := rfl
  have hclock : r.unlogged.clock = r.clock := rfl
  have hqueue : r.unlogged.queue = r.queue := rfl
  unfold step
  rw [hdeadline, hclock, hqueue]
  dsimp only
  set next := max ((r.deadlineBy? target).getD target) r.clock
  by_cases hpause : canWait rig (next - r.clock)
  · have hlogged : canWait rig.logged (next - r.clock) := hpause
    rw [if_neg (not_not.2 hpause), if_neg (not_not.2 hlogged)]
    cases r.queue with
    | cons event events =>
      exact congrArg (Prod.mk false) (unlogged_handle rig { r with queue := events } event).symm
    | nil =>
      dsimp only
      by_cases hdue : (r.deadlineBy? target).isSome = true
      · rw [if_pos hdue, if_pos hdue]
        exact congrArg (Prod.mk false) (unlogged_handle rig
          ⟨r.navigator, next, r.jobs, r.waits, [], r.halt, r.host⟩ .tick).symm
      · rw [if_neg hdue, if_neg hdue]
        rfl
  · have hlogged : ¬ canWait rig.logged (next - r.clock) := hpause
    rw [if_pos hpause, if_pos hlogged]
    rfl

theorem unlogged_steps (target : Int) : ∀ (n : Nat) (r : Replay (σ × List (Effect α)) α),
    (r.steps rig.logged target n).unlogged = r.unlogged.steps rig target n
  | 0, _ => rfl
  | n + 1, r => by
    unfold steps
    by_cases hhalt : r.halt.isSome = true
    · have hhalt' : r.unlogged.halt.isSome = true := hhalt
      rw [if_pos hhalt, if_pos hhalt']
    · have hhalt' : ¬ r.unlogged.halt.isSome = true := hhalt
      rw [if_neg hhalt, if_neg hhalt', ← unlogged_wait, unlogged_step]
      rcases (r.wait rig.logged).step rig.logged target with ⟨_ | _, r'⟩
      · exact unlogged_steps target n r'
      · rfl

theorem unlogged_load (area : Area α) :
    (r.load rig.logged area).unlogged = r.unlogged.load rig area := by
  unfold load
  rw [unlogged_handle, unlogged_handle]
  rfl

theorem unlogged_driveOn : ∀ (fixes : List (Fix α)) (r : Replay (σ × List (Effect α)) α),
    (r.driveOn rig.logged fixes).unlogged = r.unlogged.driveOn rig fixes
  | [], _ => rfl
  | fix :: fixes, r => by
    unfold driveOn
    have hdriven : ((r.advance rig.logged fix.time).handle rig.logged (.fix fix)).unlogged
        = (r.unlogged.advance rig fix.time).handle rig (.fix fix) := by
      rw [unlogged_handle]
      unfold advance
      rw [unlogged_steps]
    rw [← hdriven]
    have hover : ∀ r : Replay (σ × List (Effect α)) α, r.unlogged.isOver = r.isOver :=
      fun _ => rfl
    simp only [hover]
    split_ifs
    · rfl
    · exact unlogged_driveOn fixes _

theorem unlogged_drive (fixes : List (Fix α)) :
    (r.drive rig.logged fixes).unlogged = r.unlogged.drive rig fixes := by
  rcases fixes with _ | ⟨first, fixes⟩
  · rfl
  · unfold drive
    dsimp -zeta only
    by_cases hhalt : r.halt.isSome = true
    · have hhalt' : r.unlogged.halt.isSome = true := hhalt
      rw [if_pos hhalt, if_pos hhalt']
    · have hhalt' : ¬ r.unlogged.halt.isSome = true := hhalt
      rw [if_neg hhalt, if_neg hhalt', unlogged_driveOn, unlogged_handle, unlogged_handle]
      rfl

theorem unlogged_emptyQueue : ∀ (n : Nat) (r : Replay (σ × List (Effect α)) α),
    (r.emptyQueue rig.logged n).unlogged = r.unlogged.emptyQueue rig n
  | 0, _ => rfl
  | n + 1, r => by
    have hqueue : r.unlogged.queue = r.queue := rfl
    unfold emptyQueue
    rw [hqueue]
    by_cases hhalt : r.halt.isSome = true
    · have hhalt' : r.unlogged.halt.isSome = true := hhalt
      rw [if_pos hhalt, if_pos hhalt']
    · have hhalt' : ¬ r.unlogged.halt.isSome = true := hhalt
      rw [if_neg hhalt, if_neg hhalt']
      cases r.queue with
      | nil => rfl
      | cons event events =>
        have hhandled := unlogged_handle rig { r with queue := events } event
        show (emptyQueue rig.logged n _).unlogged = _
        rw [unlogged_emptyQueue, hhandled]
        rfl

theorem unlogged_finish : (r.finish rig.logged).unlogged = r.unlogged.finish rig := by
  unfold finish
  rw [unlogged_handle, unlogged_emptyQueue, unlogged_wait]

/-- Keeping what is shown makes no difference to a replay. -/
theorem unlogged_run (host : σ) (area : Area α) (fixes : List (Fix α)) :
    (run rig.logged (host, []) area fixes).unlogged = run rig host area fixes := by
  unfold run
  rw [unlogged_finish, unlogged_drive, unlogged_load]
  rfl

/-- What is shown in the course of a replay, in order. -/
def told (host : σ) (area : Area α) (fixes : List (Fix α)) : List (Effect α) :=
  (run rig.logged (host, []) area fixes).host.2

end Replay

end Roadbook

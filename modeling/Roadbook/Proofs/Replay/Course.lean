import Mathlib.Tactic.Common
import Roadbook.Proofs.Guidance.Reckoning
import Roadbook.Replay.Basic

/-!
# What holds in the course of a replay

Between loading an area and finishing, a replay changes by nothing but what `Replay.IsInvariant`
lists. What each of that keeps holds when all fixes have been replayed (`IsInvariant.drive`) and
when the queue is empty (`IsInvariant.emptyQueue`). A replay that has halted stays as it is
(`handle_of_halt`).
-/

namespace Roadbook.Replay

variable {σ α : Type} [Scalar α] [Geodesy α]

/-- Kept by everything that happens in a replay between loading an area and finishing. -/
structure IsInvariant (rig : Rig σ α) (P : Replay σ α → Prop) : Prop where
  wait : ∀ {r : Replay σ α}, P r → P (r.wait rig)
  clock : ∀ {r : Replay σ α} (now : Int), P r → P { r with clock := now }
  giveUp : ∀ (r : Replay σ α) {halt : Halt α}, halt = .pause ∨ halt = .endless → P r →
    P (r.haltWith halt)
  pop : ∀ {r : Replay σ α} {event : Event α} {events : List (Event α)},
    r.queue = event :: events → P r → P ({ r with queue := events }.handle rig event)
  fix : ∀ {r : Replay σ α} (fix : Fix α), P r → P (r.handle rig (.fix fix))
  begin : ∀ {r : Replay σ α}, P r → P (r.handle rig .begin)
  tick : ∀ {r : Replay σ α}, P r → P (r.handle rig .tick)

variable {rig : Rig σ α} {P : Replay σ α → Prop} {r : Replay σ α}

namespace IsInvariant

theorem step (hP : IsInvariant rig P) (h : P r) (target : Int) : P (r.step rig target).2 := by
  unfold Replay.step
  extract_lets deadline next
  have hmoved : P { r with clock := next } := hP.clock next h
  by_cases hpause : canWait rig (next - r.clock)
  · rw [if_neg (not_not.2 hpause)]
    split
    · rename_i event events hqueue
      exact hP.pop hqueue h
    · by_cases hdue : deadline.isSome = true
      · rw [if_pos hdue]
        exact hP.tick hmoved
      · rw [if_neg hdue]
        exact hmoved
  · rw [if_pos hpause]
    exact hP.giveUp r (.inl rfl) h

theorem steps (hP : IsInvariant rig P) (target : Int) : ∀ (n : Nat) {r : Replay σ α},
    P r → P (r.steps rig target n)
  | 0, r, h => hP.giveUp r (.inr rfl) h
  | n + 1, r, h => by
    unfold Replay.steps
    split_ifs
    · exact h
    · have hstepped := hP.step (hP.wait h) target
      split
      · rename_i heq
        rwa [heq] at hstepped
      · rename_i heq
        rw [heq] at hstepped
        exact hP.steps target n hstepped

theorem driveOn (hP : IsInvariant rig P) : ∀ (fixes : List (Fix α)) {r : Replay σ α},
    P r → P (r.driveOn rig fixes)
  | [], _, h => h
  | fix :: fixes, r, h => by
    unfold Replay.driveOn
    have hdriven : P ((r.advance rig fix.time).handle rig (.fix fix)) :=
      hP.fix fix (hP.steps fix.time patience h)
    dsimp only
    split_ifs
    · exact hdriven
    · exact hP.driveOn fixes hdriven

theorem drive (hP : IsInvariant rig P) (h : P r) (fixes : List (Fix α)) :
    P (r.drive rig fixes) := by
  unfold Replay.drive
  split
  · exact h
  · rename_i first fixes
    split_ifs
    · exact h
    · exact hP.driveOn fixes (hP.begin (hP.fix first (hP.clock first.time h)))

theorem emptyQueue (hP : IsInvariant rig P) : ∀ (n : Nat) {r : Replay σ α},
    P r → P (r.emptyQueue rig n)
  | 0, r, h => hP.giveUp r (.inr rfl) h
  | n + 1, r, h => by
    unfold Replay.emptyQueue
    split_ifs
    · exact h
    · split
      · exact h
      · rename_i event events hqueue
        exact hP.emptyQueue n (hP.pop hqueue h)

/-- What holds before the last event, which finishes the replay. -/
theorem ending (hP : IsInvariant rig P) (h : P r) (fixes : List (Fix α)) :
    P (((r.drive rig fixes).wait rig).emptyQueue rig patience) :=
  hP.emptyQueue patience (hP.wait (hP.drive h fixes))

end IsInvariant

/-- The answer is that of the navigator, or an overflow is trapped. -/
theorem answer_cases (rig : Rig σ α) (r : Replay σ α) (event : Event α) :
    ((Scalar.checked α → ¬ r.navigator.Overflows rig.config r.clock event)
        ∧ r.answer rig event = r.navigator.handle rig.config r.clock event)
      ∨ r.navigator.Overflows rig.config r.clock event
        ∧ r.answer rig event
          = (.error .noRoom, (r.navigator.handle rig.config r.clock event).2) := by
  unfold answer
  dsimp only
  split_ifs with htrapped
  · exact .inr ⟨htrapped.2, rfl⟩
  · exact .inl ⟨fun hchecked hover => htrapped ⟨hchecked, hover⟩, rfl⟩

/-- What a replay makes of an event: it carries out what the navigator tells of, or it halts where
that refuses the event or an overflow is trapped. -/
theorem handle_cases (hgoes : r.halt = none) (rig : Rig σ α) (event : Event α) :
    (∃ effects n, r.navigator.handle rig.config r.clock event = (.ok effects, n)
        ∧ (Scalar.checked α → ¬ r.navigator.Overflows rig.config r.clock event)
        ∧ r.handle rig event = effects.foldl (dispatch rig) { r with navigator := n })
      ∨ ∃ reason n, (r.navigator.handle rig.config r.clock event = (.error reason, n)
          ∨ reason = .noRoom ∧ r.navigator.Overflows rig.config r.clock event
            ∧ (r.navigator.handle rig.config r.clock event).2 = n)
        ∧ r.handle rig event = { r with navigator := n }.haltWith (.refusal reason) := by
  unfold Replay.handle
  rw [if_neg (by simp [hgoes])]
  rcases r.answer_cases rig event with ⟨hfits, heq⟩ | ⟨hover, heq⟩ <;> rw [heq]
  · rcases r.navigator.handle rig.config r.clock event with ⟨reason | effects, n⟩
    · exact .inr ⟨reason, n, .inl rfl, rfl⟩
    · exact .inl ⟨effects, n, rfl, hfits, rfl⟩
  · exact .inr ⟨.noRoom, _, .inr ⟨rfl, hover, rfl⟩, rfl⟩

theorem handle_of_halt (h : r.halt ≠ none) (event : Event α) : r.handle rig event = r := by
  unfold Replay.handle
  rw [if_pos (Option.ne_none_iff_isSome.1 h)]

theorem halt_of_handle {event : Event α} (h : (r.handle rig event).halt = none) :
    r.halt = none := by
  by_contra hhalt
  rw [handle_of_halt hhalt] at h
  exact hhalt h

/-- Where no area is loaded the answer is that of the navigator. -/
theorem answer_of_vacant (h : r.navigator = .vacant r.navigator.view) (event : Event α) :
    r.answer rig event = r.navigator.handle rig.config r.clock event := by
  refine ((r.answer_cases rig event).resolve_right fun hover => ?_).2
  rw [h] at hover
  exact Navigator.not_overflows_vacant rig.config _ r.clock event hover.1

/-- The navigator that a replay loads its area into. -/
def vacant (rig : Rig σ α) : Navigator α := .vacant ⟨rig.follow, false⟩

theorem load_eq (rig : Rig σ α) (host : σ) (area : Area α) : (start host).load rig area
    = ({ start host with navigator := vacant rig } : Replay σ α).handle rig
      (.areaLoaded area rig.ranks) := by
  have hview : (start host : Replay σ α).handle rig (.view ⟨rig.follow, false⟩)
      = { start host with navigator := vacant rig } := by
    unfold Replay.handle
    rw [if_neg (by simp [start]), answer_of_vacant rfl]
    rfl
  rw [load, hview]

/-- A replay that goes on has been refused nothing, and no overflow has been trapped. -/
theorem ok_of_handle {event : Event α} (h : (r.handle rig event).halt = none) :
    ∃ effects n, r.navigator.handle rig.config r.clock event = (.ok effects, n)
      ∧ (Scalar.checked α → ¬ r.navigator.Overflows rig.config r.clock event)
      ∧ r.handle rig event = effects.foldl (dispatch rig) { r with navigator := n } := by
  refine (handle_cases (halt_of_handle h) rig event).resolve_right ?_
  rintro ⟨reason, n, -, heq⟩
  rw [heq] at h
  cases h

end Roadbook.Replay

import Mathlib.Tactic.Common
import Roadbook.Guidance.Session

/-!
# A change of phase

What `Dispatch.transition` does, part by part. A move to another phase drops the request that is of
no use there and ends the settle delay (`Dispatch.entering`). Then it asks for directions, or starts
the settle delay, or does nothing that shows in phase, requests and timers (`arrange_cases`).
-/

namespace Roadbook

variable {α : Type}

/-- Alike in area, route, phase and requests. -/
structure Session.Agrees (s t : Session α) : Prop where
  area : s.area = t.area
  route : s.route = t.route
  phase : s.phase = t.phase
  pending : s.pending = t.pending
  nextRequest : s.nextRequest = t.nextRequest

theorem Session.Agrees.refl (s : Session α) : s.Agrees s := ⟨rfl, rfl, rfl, rfl, rfl⟩

namespace Dispatch

/-- The request that a session makes next. -/
def nextRequest (d : Dispatch α) (purpose : Purpose) (a b : Point α) : Request α :=
  ⟨d.session.nextRequest, purpose, a, b⟩

theorem request_eq (d : Dispatch α) (purpose : Purpose) (a b : Point α) :
    d.request purpose a b =
      ⟨{ d.session with
          pending := some (d.nextRequest purpose a b)
          nextRequest := d.session.nextRequest + 1 },
        d.timers, d.effects ++ [.requestDirections (d.nextRequest purpose a b)]⟩ := rfl

/-- On the way to the start, a first request for directions is all that asking comes to. -/
theorem askForStart_cases [Scalar α] (d : Dispatch α) (p : Point α) :
    d.askForStart p = d
      ∨ ∃ b, d.session.phase = .toStart ∧ d.askForStart p = d.request .toStart p b := by
  unfold askForStart
  split_ifs with h
  · exact .inr ⟨_, h.1, rfl⟩
  · exact .inl rfl

/-- In another phase, with nothing arranged for it yet. -/
def entering (d : Dispatch α) (phase : Phase) : Dispatch α where
  session := d.session.enter phase
  timers := if d.session.phase = .atStart then d.timers.cancel .settle else d.timers
  effects := d.effects ++ [.phaseChanged d.session.phase phase]

variable [Scalar α] {config : Config α} {now : Int}

theorem transition_self (d : Dispatch α) : d.transition config now d.session.phase = d :=
  if_pos rfl

theorem transition_of_ne {d : Dispatch α} {phase : Phase} (h : d.session.phase ≠ phase) :
    d.transition config now phase = (d.entering phase).arrange config now d.session.phase :=
  if_neg h

/-- What is arranged on the way into a phase: a request that is of use there, the settle delay at
the start of the route, or nothing that shows. -/
theorem arrange_cases (config : Config α) (now : Int) (before : Phase) (d : Dispatch α) :
    (∃ purpose a b, purpose.phase = d.session.phase
        ∧ d.arrange config now before = d.request purpose a b)
      ∨ (d.session.phase = .atStart ∧ d.arrange config now before =
          ⟨d.session, d.timers.schedule .settle (Scalar.wrap α (now + config.guidance.settleDelay)),
            d.effects⟩)
      ∨ (d.session.phase ≠ .atStart ∧ ∃ s : Session α, s.Agrees d.session
          ∧ d.arrange config now before = d.withSession s) := by
  unfold arrange
  split
  · rename_i hp
    split
    · exact .inl ⟨.toStart, _, _, hp.symm, rfl⟩
    · exact .inr (.inr ⟨by simp [hp], d.session, .refl _, rfl⟩)
  · rename_i hp
    exact .inr (.inl ⟨hp, rfl⟩)
  · rename_i hp
    split_ifs
    · exact .inr (.inr ⟨by simp [hp], d.session, .refl _, rfl⟩)
    · exact .inr (.inr ⟨by simp [hp], d.session.restart, ⟨rfl, rfl, rfl, rfl, rfl⟩, rfl⟩)
  · rename_i hp
    split
    · exact .inl ⟨.resume, _, _, hp.symm, rfl⟩
    · exact .inr (.inr ⟨by simp [hp], d.session, .refl _, rfl⟩)
  · rename_i hp _ _
    exact .inr (.inr ⟨hp, d.session, .refl _, rfl⟩)

/-- What is arranged changes neither the phase nor the route. -/
theorem arrange_agrees (config : Config α) (now : Int) (before : Phase) (d : Dispatch α) :
    (d.arrange config now before).session.phase = d.session.phase
      ∧ (d.arrange config now before).session.route = d.session.route := by
  rcases d.arrange_cases config now before with
    ⟨purpose, a, b, -, heq⟩ | ⟨-, heq⟩ | ⟨-, s, hs, heq⟩ <;> rw [heq]
  · exact ⟨rfl, rfl⟩
  · exact ⟨rfl, rfl⟩
  · exact ⟨hs.phase, hs.route⟩

theorem transition_phase (d : Dispatch α) (phase : Phase) :
    (d.transition config now phase).session.phase = phase := by
  by_cases hne : d.session.phase = phase
  · rw [← hne, transition_self]
  · rw [transition_of_ne hne]
    exact (arrange_agrees config now _ (d.entering phase)).1

theorem transition_route (d : Dispatch α) (phase : Phase) :
    (d.transition config now phase).session.route = d.session.route := by
  by_cases hne : d.session.phase = phase
  · rw [← hne, transition_self]
  · rw [transition_of_ne hne]
    exact (arrange_agrees config now _ (d.entering phase)).2

end Dispatch

end Roadbook

import Roadbook.Guidance.Effect

/-!
# What a replay has shown

The figures told at the end of a replay, made from the effects that were shown in order.
-/

namespace Roadbook

structure Stats (α : Type) where
  phase : Phase
  instructions : Nat
  segmentsDriven : Nat
  /-- The coverage told last. -/
  percent : Option α
  progress : α
  deriving DecidableEq, Repr

namespace Stats

variable {α : Type}

/-- Nothing was shown yet. -/
def none [Scalar α] : Stats α := ⟨.setup, 0, 0, .none, 0⟩

def add (s : Stats α) : Effect α → Stats α
  | .phaseChanged _ after => { s with phase := after }
  | .segmentsDriven _ ids percent =>
    { s with segmentsDriven := s.segmentsDriven + ids.length, percent := some percent }
  | .position _ _ progress _ => { s with progress := progress }
  | .instruction _ => { s with instructions := s.instructions + 1 }
  | _ => s

end Stats

end Roadbook

import Roadbook.Ground.Point

/-!
# Turns

A change of heading is told apart by its size into five kinds of turn, four of them to either side.
`Turn.depart` and `Turn.arrive` stand for the two ends of a route.
-/

namespace Roadbook

inductive Turn where
  | depart
  | straight
  | slightLeft
  | slightRight
  | left
  | right
  | sharpLeft
  | sharpRight
  | uturn
  | arrive
  deriving DecidableEq, Repr

namespace Turn

/-- The kind of a change of heading, clockwise positive. -/
def ofChange {α : Type} [Scalar α] (change : α) : Turn :=
  let size := Scalar.abs change
  if 150 < size then .uturn
  else if 100 < size then if 0 < change then .sharpRight else .sharpLeft
  else if 50 < size then if 0 < change then .right else .left
  else if 25 < size then if 0 < change then .slightRight else .slightLeft
  else .straight

def name : Turn → String
  | .depart => "depart"
  | .straight => "straight"
  | .slightLeft => "slight-left"
  | .slightRight => "slight-right"
  | .left => "left"
  | .right => "right"
  | .sharpLeft => "sharp-left"
  | .sharpRight => "sharp-right"
  | .uturn => "uturn"
  | .arrive => "arrive"

end Turn

end Roadbook

import Roadbook.Ground.Point

/-!
# The nearest point of a line

A point is projected onto a stretch of road in a flat frame laid at the stretch's mean latitude
(`project`); a stretch too short to have a direction counts as its first end. The distance to the
foot found there is the one on the ground. The distance to a line of several points is that to its
nearest stretch (`distanceToLine?`).
-/

namespace Roadbook

variable {α : Type} [Scalar α] [Geodesy α]

structure Projection (α : Type) where
  /-- Meters from the point to its foot. -/
  distance : α
  /-- How far along the stretch the foot lies, from 0 to 1. -/
  fraction : α
  foot : Point α
  deriving DecidableEq, Repr

/-- The square of the length in meters up to which a stretch has no direction. -/
def degenerateSquare : α := 1 / 1000000000000

/-- A vector in the flat frame of a stretch, in meters. -/
structure Offset (α : Type) where
  east : α
  north : α

namespace Offset

def dot (u v : Offset α) : α := u.east * v.east + u.north * v.north

/-- From `a` to `b` where a parallel's degrees have `scale` times the length of a meridian's. -/
def between (scale : α) (a b : Point α) : Offset α :=
  ⟨(b.lon - a.lon) * (Geodesy.degreeLength * scale), (b.lat - a.lat) * Geodesy.degreeLength⟩

end Offset

/-- The projection of `p` onto the stretch from `a` to `b`. -/
def project (p a b : Point α) : Projection α :=
  let scale := Geodesy.parallelScale ((a.lat + b.lat) / 2)
  let d := Offset.between scale a b
  let v := Offset.between scale a p
  let square := d.dot d
  if degenerateSquare < square then
    let t := Scalar.clamp 0 1 (v.dot d / square)
    let foot := a.between b t
    ⟨Geodesy.distance p foot, t, foot⟩
  else ⟨Geodesy.distance p a, 0, a⟩

/-- The consecutive pairs of a list. -/
def stretches {β : Type} : List β → List (β × β)
  | a :: b :: rest => (a, b) :: stretches (b :: rest)
  | _ => []

/-- The distance to a stretch. -/
def distanceToStretch (p : Point α) (stretch : Point α × Point α) : α :=
  (project p stretch.1 stretch.2).distance

/-- Whether coordinates that are numbers lead to a distance that is none, as an end infinitely far
away can make them. -/
def IsUndefined (p : Point α) (stretch : Point α × Point α) : Prop :=
  p.IsNumeric ∧ stretch.1.IsNumeric ∧ stretch.2.IsNumeric ∧
    ¬ distanceToStretch p stretch ≤ distanceToStretch p stretch

instance (p : Point α) (stretch : Point α × Point α) : Decidable (IsUndefined p stretch) :=
  inferInstanceAs (Decidable (_ ∧ _ ∧ _ ∧ ¬ _))

/-- The distance to a line, which has none when that to one of its stretches is undefined. -/
def distanceToLine? (p : Point α) : List (Point α) → Option α
  | [] => none
  | [a] => some (Geodesy.distance p a)
  | line =>
    match (stretches line).find? fun s => IsUndefined p s with
    | some s => some (distanceToStretch p s)
    | none => Scalar.nearestBy? id ((stretches line).map (distanceToStretch p))

end Roadbook

import Roadbook.Number.Scalar

/-!
# Points on the ground

A point is a longitude and a latitude in degrees. `Geodesy` is how the ground between points is
measured: the distance and the bearing from one to another, and how long a degree is along a
meridian and along a parallel. Route, matching and coverage use nothing else about the earth.
-/

namespace Roadbook

structure Point (α : Type) where
  lon : α
  lat : α
  deriving DecidableEq, Repr

class Geodesy (α : Type) where
  /-- Meters from one point to the other. -/
  distance : Point α → Point α → α
  /-- Degrees clockwise from north at which one sets out from the first point to the second. -/
  bearing : Point α → Point α → α
  /-- Meters along one degree of a meridian. -/
  degreeLength : α
  /-- The length of a degree along the parallel of a latitude, over that along a meridian. -/
  parallelScale : α → α

namespace Point

variable {α : Type} [Scalar α]

/-- A longitude and a latitude that exist. -/
def IsValid (p : Point α) : Prop :=
  Scalar.isFinite p.lon ∧ Scalar.isFinite p.lat ∧
    -180 ≤ p.lon ∧ p.lon ≤ 180 ∧ -90 ≤ p.lat ∧ p.lat ≤ 90

instance (p : Point α) : Decidable p.IsValid := inferInstanceAs (Decidable (_ ∧ _))

/-- Coordinates that are numbers, be they infinite. -/
def IsNumeric (p : Point α) : Prop := p.lon ≤ p.lon ∧ p.lat ≤ p.lat

instance (p : Point α) : Decidable p.IsNumeric := inferInstanceAs (Decidable (_ ∧ _))

/-- The point a fraction `t` of the way from `a` to `b`. -/
def between (a b : Point α) (t : α) : Point α :=
  ⟨a.lon + t * (b.lon - a.lon), a.lat + t * (b.lat - a.lat)⟩

end Point

/-- The turn from one heading to another that is least in size, clockwise positive; a half turn is
clockwise. -/
def headingChange {α : Type} [Scalar α] (start finish : α) : α :=
  let d := Scalar.rem (finish - start) 360
  if 180 < d then d - 360 else if d ≤ -180 then d + 360 else d

end Roadbook

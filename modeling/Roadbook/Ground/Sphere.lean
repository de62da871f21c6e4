import Roadbook.Ground.Point
import Roadbook.Number.Binary

/-!
# The spherical earth

Distances and bearings are taken along great circles of a sphere of radius `Sphere.radius`. The
trigonometry is a class of its own (`Trig`), so that the formulas here can be read both with 64-bit
binary numbers and with real ones.
-/

namespace Roadbook

class Trig (α : Type) where
  pi : α
  sin : α → α
  cos : α → α
  /-- The angle of the direction `x`, `y`, the ordinate first. -/
  atan2 : α → α → α
  sqrt : α → α

instance : Trig Float where
  pi := 3.14159265358979323846264338327950288
  sin := Float.sin
  cos := Float.cos
  atan2 := Float.atan2
  sqrt := Float.sqrt

namespace Sphere

variable {α : Type} [Scalar α] [Trig α]

open Trig

/-- Meters from the centre of the earth to the ground. -/
def radius : α := 6371000

def radians (degrees : α) : α := degrees * (pi / 180)

def degrees (radians : α) : α := radians * (180 / pi)

def square (x : α) : α := x * x

/-- The haversine formula. -/
def distance (a b : Point α) : α :=
  let lat₁ := radians a.lat
  let lat₂ := radians b.lat
  let dlat := radians (b.lat - a.lat)
  let dlon := radians (b.lon - a.lon)
  let h := square (sin (dlat / 2)) + cos lat₁ * cos lat₂ * square (sin (dlon / 2))
  radius * (2 * atan2 (sqrt h) (sqrt (1 - h)))

/-- The initial bearing of the great circle, at least 0 and less than 360. -/
def bearing (a b : Point α) : α :=
  let lat₁ := radians a.lat
  let lat₂ := radians b.lat
  let dlon := radians (b.lon - a.lon)
  let y := sin dlon * cos lat₂
  let x := cos lat₁ * sin lat₂ - sin lat₁ * cos lat₂ * cos dlon
  let angle := Scalar.modulo (degrees (atan2 y x)) 360
  if 360 ≤ angle then 0 else angle

@[reducible] def geodesy : Geodesy α where
  distance := distance
  bearing := bearing
  degreeLength := radians radius
  parallelScale lat := cos (radians lat)

/-- The point `north` and `east` meters away, by the length of a degree at `p`. -/
def offset (p : Point α) (north east : α) : Point α :=
  ⟨p.lon + degrees (east / (radius * cos (radians p.lat))), p.lat + degrees (north / radius)⟩

end Sphere

instance : Geodesy Float := Sphere.geodesy

end Roadbook

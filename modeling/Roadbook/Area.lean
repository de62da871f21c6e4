import Roadbook.Ground.Point

/-!
# Areas

An area is a route with the road segments around it that are to be driven. Areas have names and
segments have numbers. `Area.markDriven` is the area with some of its segments already driven.
-/

namespace Roadbook

/-- A piece of road. -/
structure Segment (α : Type) where
  id : Nat
  line : List (Point α)
  /-- Meters of road, as surveyed. -/
  length : α
  driven : Bool
  /-- The segment takes no part in coverage. -/
  undriveable : Bool
  deriving DecidableEq, Repr

structure Area (α : Type) where
  name : String
  route : List (Point α)
  segments : List (Segment α)
  /-- The percentage that is reported until a segment is driven. -/
  baseline : α
  deriving DecidableEq, Repr

def Area.markDriven {α : Type} (area : Area α) (isDriven : Nat → Bool) : Area α :=
  { area with
    segments := area.segments.map fun s => { s with driven := s.driven || isDriven s.id } }

end Roadbook

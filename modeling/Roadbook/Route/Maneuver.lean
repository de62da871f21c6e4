import Roadbook.Config
import Roadbook.Ground.Projection
import Roadbook.Route.Turn

/-!
# Legs and maneuvers

A route is cut into legs, one between each two consecutive points, each knowing its place along the
route (`Leg.chain`). The maneuvers are the two ends of the route and between them the turns from
one leg into the next that are sharp enough, lie between legs that are long enough and keep their
distance from the turn announced before (`Leg.turns`).
-/

namespace Roadbook

variable {α : Type} [Scalar α] [Geodesy α]

/-- The part of a route between two consecutive points. -/
structure Leg (α : Type) where
  index : Nat
  start : Point α
  finish : Point α
  /-- Meters along the route to the start of the leg. -/
  along : α
  length : α
  deriving DecidableEq, Repr

/-- Something to do at a point of a route. -/
structure Maneuver (α : Type) where
  /-- The number of the point. -/
  index : Nat
  /-- Meters along the route. -/
  along : α
  turn : Turn
  /-- The change of heading in degrees, clockwise positive. -/
  change : α
  deriving DecidableEq, Repr

namespace Leg

/-- The legs that join the points of a list, the first of them with this number and place. -/
def chain (index : Nat) (along : α) : List (Point α) → List (Leg α)
  | a :: b :: rest =>
    let length := Geodesy.distance a b
    ⟨index, a, b, along, length⟩ :: chain (index + 1) (along + length) (b :: rest)
  | _ => []

/-- Meters along the route to the end of the leg. -/
def alongEnd (l : Leg α) : α := l.along + l.length

def bearing (l : Leg α) : α := Geodesy.bearing l.start l.finish

/-- The turn from one leg into the next, unless it is too slight or the legs are too short. -/
def turn? (rules : Config.Turns α) (inbound outbound : Leg α) : Option (Maneuver α) :=
  let change := headingChange inbound.bearing outbound.bearing
  if inbound.length < rules.minStretch ∨ outbound.length < rules.minStretch then none
  else if Scalar.abs change < rules.minTurn then none
  else some ⟨outbound.index, outbound.along, Turn.ofChange change, change⟩

/-- The turns between legs that are far enough from the one taken before, the last of which was at
`last`. -/
def turns (rules : Config.Turns α) (last : α) : List (Leg α × Leg α) → List (Maneuver α)
  | [] => []
  | (inbound, outbound) :: rest =>
    match turn? rules inbound outbound with
    | some m =>
      if m.along - last < rules.minSpacing then turns rules last rest
      else m :: turns rules m.along rest
    | none => turns rules last rest

end Leg

end Roadbook

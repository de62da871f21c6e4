import Roadbook.Guidance.Phase
import Roadbook.Number.Decimal
import Roadbook.Route.Basic

/-!
# What the driver is told

An announcement is a line of text, the distance to what it speaks of and the direction of an arrow.
It depends on the phase, and while guidance runs along the route it is about the first maneuver
that lies beyond the dead band ahead of progress (`Route.nextManeuver?`).
-/

namespace Roadbook

variable {α : Type} [Scalar α]

structure Announcement where
  text : String
  /-- How far it is, or nothing. -/
  label : String
  /-- The direction of the arrow in degrees, clockwise from straight ahead. -/
  icon : Int
  deriving DecidableEq, Repr

/-- What an announcement is made from, besides the route. -/
structure Situation (α : Type) where
  phase : Phase
  progress : α
  /-- Meters to the start of the route, once a position is known. -/
  toStart : Option α
  waiting : Bool
  deadBand : α

namespace Turn

def instruction : Turn → String
  | .depart => "Head along the route"
  | .straight => "Continue straight"
  | .slightLeft => "Keep slightly left"
  | .slightRight => "Keep slightly right"
  | .left => "Turn left"
  | .right => "Turn right"
  | .sharpLeft => "Turn sharp left"
  | .sharpRight => "Turn sharp right"
  | .uturn => "Make a U-turn"
  | .arrive => "Arrive at the end of the route"

def icon : Turn → Int
  | .depart | .straight | .arrive => 0
  | .slightLeft => -45
  | .slightRight => 45
  | .left => -90
  | .right => 90
  | .sharpLeft => -135
  | .sharpRight => 135
  | .uturn => 180

end Turn

/-- A distance as it is shown: in tens of meters, and from where these make a kilometer in tenths of
kilometers. -/
def distanceLabel (meters : α) : String :=
  let meters := Scalar.max meters 0
  let rounded := Scalar.nearest (meters / 10) * 10
  if 1000 ≤ rounded then
    String.ofList (Decimal.positional (Scalar.tenths (meters / 1000)).toNat 1) ++ " km"
  else toString rounded ++ " m"

/-- The first maneuver that is further ahead of progress than the dead band. -/
def Route.nextManeuver? (route : Route α) (progress deadBand : α) : Option (Maneuver α) :=
  route.maneuvers.find? fun m => decide (progress + deadBand < m.along)

namespace Announcement

/-- A line of text and a distance, with the arrow straight ahead. -/
def plain (text label : String) : Announcement := ⟨text, label, 0⟩

def ofManeuver (progress : α) (m : Maneuver α) : Announcement :=
  ⟨m.turn.instruction, distanceLabel (m.along - progress), m.turn.icon⟩

def make (route : Route α) (s : Situation α) : Announcement :=
  let toStart := (s.toStart.map distanceLabel).getD ""
  if s.waiting then plain "Waiting for GPS signal" ""
  else match s.phase with
    | .setup => plain "Select an area to load its route" ""
    | .preview => plain "Route ready, start when you are" toStart
    | .toStart => plain "Head to the start of the route" toStart
    | .atStart => plain "You are at the start, get ready" ""
    | .offRoute => plain "Return to the route" ""
    | .resume => plain "Resume the route further ahead?" ""
    | .arrived => plain "You have arrived" ""
    | .active =>
      match route.nextManeuver? s.progress s.deadBand with
      | some m => ofManeuver s.progress m
      | none => plain Turn.arrive.instruction ""

end Announcement

end Roadbook

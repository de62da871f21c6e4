import Roadbook.Number.Scalar

/-!
# Configuration

The thresholds of every part of the library, with the values they have unless a device sets them
otherwise. Lengths are meters, angles degrees, speeds meters per second and times milliseconds.
-/

namespace Roadbook

namespace Config

/-- Which vertices of a route are announced as turns. -/
structure Turns (α : Type) where
  /-- Smaller changes of heading are no turns. -/
  minTurn : α
  /-- The least distance along the route from one turn to the next. -/
  minSpacing : α
  /-- Both stretches at a turn are at least this long. -/
  minStretch : α
  deriving Repr

/-- Where a position is looked for on the route. -/
structure Matching (α : Type) where
  /-- How many stretches behind the last one found are searched. -/
  lookBehind : Nat
  lookAhead : Nat
  /-- When the best of these is further away, the whole route is searched. -/
  fullScanDistance : α
  deriving Repr

/-- How progress follows the positions found. -/
structure Smoothing (α : Type) where
  /-- Larger steps back need corroboration. -/
  backwardJump : α
  /-- How many of the latest samples have to agree on a step back. -/
  corroboration : Nat
  /-- How many of the latest samples are kept. -/
  capacity : Nat
  maxSpeed : α
  /-- The weight of the latest sample beside the average of those kept. -/
  rawWeight : α
  deriving Repr

/-- When guidance changes its phase, and which fixes it accepts. -/
structure Guidance (α : Type) where
  /-- How near the start of the route counts as being there. -/
  startRadius : α
  /-- The time from reaching the start to guidance along the route. -/
  settleDelay : Int
  /-- Further from the route than this the driver is off it. -/
  offRoute : α
  /-- Further from the route, or further ahead on it, than this a point to resume at is sought. -/
  resumeAhead : α
  /-- How far from the driver such a point may be. -/
  resumeRadius : α
  /-- With less than this ahead the driver has arrived. -/
  arrival : α
  /-- A turn no further ahead than this is being taken already. -/
  deadBand : α
  /-- Older fixes are ignored. -/
  maxAge : Int
  /-- Without a usable fix for longer than this the driver is told so. -/
  signalTimeout : Int
  /-- Less accurate fixes are ignored. -/
  maxAccuracy : α
  deriving Repr

/-- When a segment counts as driven, and when that is stored. -/
structure Coverage (α : Type) where
  promoteRadius : α
  /-- The time without a newly driven segment after which the collected ones are stored. -/
  quiet : Int
  deriving Repr

end Config

structure Config (α : Type) where
  turns : Config.Turns α
  matching : Config.Matching α
  smoothing : Config.Smoothing α
  guidance : Config.Guidance α
  coverage : Config.Coverage α
  deriving Repr

namespace Config

variable {α : Type} [Scalar α]

def Turns.standard : Turns α := ⟨28, 40, 8⟩

def Matching.standard : Matching α := ⟨3, 12, 250⟩

def Smoothing.standard : Smoothing α := ⟨50, 3, 5, 50, 7 / 10⟩

def Guidance.standard : Guidance α := ⟨50, 1500, 60, 500, 500, 25, 5, 10000, 10000, 100⟩

def Coverage.standard : Coverage α := ⟨25, 2000⟩

def standard : Config α :=
  ⟨Turns.standard, Matching.standard, Smoothing.standard, Guidance.standard, Coverage.standard⟩

end Config

end Roadbook

import Roadbook.Area
import Roadbook.Config
import Roadbook.Coverage.IdSet
import Roadbook.Ground.Projection

/-!
# Coverage

A tracker sorts the segments of an area into driven and undriven ones. A position makes every
undriven segment near it driven, for good (`Tracker.observation?`). What was made driven is pending
until a batch of it is handed out to be stored, and in flight until the outcome is known: a batch
that was not stored is pending again. There is at most one batch in flight.
-/

namespace Roadbook

variable {α : Type} [Scalar α] [Geodesy α]

/-- The least and the greatest longitude and latitude of a line. -/
structure Bounds (α : Type) where
  low : Point α
  high : Point α
  deriving DecidableEq, Repr

namespace Bounds

def add (b : Bounds α) (p : Point α) : Bounds α :=
  ⟨⟨Scalar.min b.low.lon p.lon, Scalar.min b.low.lat p.lat⟩,
    ⟨Scalar.max b.high.lon p.lon, Scalar.max b.high.lat p.lat⟩⟩

/-- The point with its longitude and its latitude each moved into the bounds. -/
def clamp (b : Bounds α) (p : Point α) : Point α :=
  ⟨Scalar.clamp b.low.lon b.high.lon p.lon, Scalar.clamp b.low.lat b.high.lat p.lat⟩

/-- Whether anything lies within the bounds: nothing does where no longitude, or no latitude, of a
line is a number. -/
def IsProper (b : Bounds α) : Prop := b.low.lon ≤ b.high.lon ∧ b.low.lat ≤ b.high.lat

instance (b : Bounds α) : Decidable b.IsProper := inferInstanceAs (Decidable (_ ∧ _))

end Bounds

/-- A segment that takes part in coverage: its line has a first point. -/
structure Track (α : Type) where
  first : Point α
  rest : List (Point α)
  length : α
  deriving DecidableEq, Repr

namespace Track

def line (t : Track α) : List (Point α) := t.first :: t.rest

def bounds (t : Track α) : Bounds α := t.rest.foldl Bounds.add ⟨t.first, t.first⟩

/-- Whether a point is within a radius of the line. A point too far from the bounds of the line is
not measured against the line itself. -/
def isWithin (t : Track α) (p : Point α) (radius : α) : Bool :=
  if radius < Geodesy.distance p (t.bounds.clamp p) then false
  else match distanceToLine? p t.line with
    | some d => d ≤ radius
    | none => false

/-- The track of a segment that takes part. -/
def ofSegment? (s : Segment α) : Option (Track α) :=
  if s.undriveable then none
  else match s.line with
    | [] => none
    | p :: ps => some ⟨p, ps, s.length⟩

end Track

/-- Newly driven segments of an area, to be stored together. -/
structure Batch where
  area : String
  ids : List Nat
  deriving DecidableEq, Repr

structure Tracker (α : Type) where
  area : String
  /-- One track for each number, in the order in which the map that keeps them lists them. -/
  tracks : List (Nat × Track α)
  driven : IdSet
  undriven : IdSet
  /-- Made driven and not yet handed out. -/
  pending : IdSet
  /-- Handed out, with the outcome unknown. -/
  inFlight : Option IdSet
  baseline : α
  /-- Some segment was made driven by a position. -/
  promoted : Bool
  deriving Repr

namespace Tracker

/-- The track kept for a number: the last one given. -/
def keep (id : Nat) (track : Track α) : List (Nat × Track α) → List (Nat × Track α)
  | [] => [(id, track)]
  | (n, t) :: rest => if n = id then (id, track) :: rest else (n, t) :: keep id track rest

def add (t : Tracker α) (s : Segment α) : Tracker α :=
  match Track.ofSegment? s with
  | none => t
  | some track =>
    let t := { t with tracks := keep s.id track t.tracks }
    if s.driven then { t with driven := t.driven.insert s.id }
    else { t with undriven := t.undriven.insert s.id }

/-- The segments of an area, with their tracks in the order in which they are first met. -/
def gather (area : Area α) : Tracker α :=
  area.segments.foldl add ⟨area.name, [], ∅, ∅, ∅, none, area.baseline, false⟩

/-- A track put before the first one whose rank is not less. -/
def place (ranks : Nat → Nat) (entry : Nat × Track α) : List (Nat × Track α) → List (Nat × Track α)
  | [] => [entry]
  | e :: es => if ranks entry.1 ≤ ranks e.1 then entry :: e :: es else e :: place ranks entry es

/-- Tracks in the order of the ranks of their numbers. -/
def arrange (ranks : Nat → Nat) (tracks : List (Nat × Track α)) : List (Nat × Track α) :=
  tracks.foldr (place ranks) []

/-- The tracker of a freshly loaded area. The map of its tracks lists them in an order of its own,
which the ranks of their numbers stand for. -/
def ofArea (area : Area α) (ranks : Nat → Nat := fun _ => 0) : Tracker α :=
  { gather area with tracks := arrange ranks (gather area).tracks }

def track? (t : Tracker α) (id : Nat) : Option (Track α) :=
  (t.tracks.find? fun (n, _) => n == id).map (·.2)

/-- The undriven segments that a position is near enough to. -/
def touched (t : Tracker α) (rules : Config.Coverage α) (p : Point α) : IdSet :=
  t.undriven.filter fun id =>
    match t.track? id with
    | some track => track.isWithin p rules.promoteRadius
    | none => false

/-- Whether it can be told how near a position is to every undriven segment. -/
def isMeasurable (t : Tracker α) : Bool :=
  t.undriven.toList.all fun id =>
    match t.track? id with
    | some track => track.bounds.IsProper
    | none => true

/-- Makes the touched segments driven. -/
def observe (t : Tracker α) (rules : Config.Coverage α) (p : Point α) : IdSet × Tracker α :=
  let hits := t.touched rules p
  (hits,
    { t with
      driven := t.driven.union hits
      undriven := t.undriven.diff hits
      pending := t.pending.union hits
      promoted := t.promoted || !hits.isEmpty })

/-- Makes the touched segments driven, if it can be told which ones they are. -/
def observation? (t : Tracker α) (rules : Config.Coverage α) (p : Point α) :
    Option (IdSet × Tracker α) :=
  if t.isMeasurable then some (t.observe rules p) else none

def batch (t : Tracker α) (ids : IdSet) : Batch := ⟨t.area, ids.toList⟩

/-- Hands out what is pending, unless a batch is in flight. -/
def beginFlush (t : Tracker α) : Option Batch × Tracker α :=
  if t.inFlight.isSome || t.pending.isEmpty then (none, t)
  else (some (t.batch t.pending), { t with pending := ∅, inFlight := some t.pending })

/-- The outcome of the batch in flight; what was not stored is pending again. The answer is whether
anything is. -/
def completeFlush (t : Tracker α) (success : Bool) : Bool × Tracker α :=
  match t.inFlight with
  | none => (false, t)
  | some ids =>
    if success then (false, { t with inFlight := none })
    else (!ids.isEmpty, { t with pending := t.pending.union ids, inFlight := none })

/-- What is not known to be stored. -/
def unconfirmed (t : Tracker α) : IdSet := t.pending.union (t.inFlight.getD ∅)

/-- Hands out all that is not known to be stored, for a last time. -/
def drain (t : Tracker α) : Option Batch × Tracker α :=
  let rest := { t with pending := ∅, inFlight := none }
  if t.unconfirmed.isEmpty then (none, rest) else (some (t.batch t.unconfirmed), rest)

def length (t : Tracker α) : α := Scalar.sum (t.tracks.map fun (_, track) => track.length)

def drivenLength (t : Tracker α) : α :=
  Scalar.sum ((t.driven.toList.filterMap t.track?).map (·.length))

/-- The percentage of the tracked length that is driven, or the baseline as long as no segment was
made driven. -/
def percent (t : Tracker α) : α :=
  if t.promoted then
    if t.length ≤ 0 then t.baseline else t.drivenLength / t.length * 100
  else t.baseline

end Tracker

end Roadbook

import Roadbook.Coverage.Tracker
import Roadbook.Fix
import Roadbook.Guidance.Announcement

/-!
# Events and effects

What can happen to a navigator, why it may refuse to take that in, and what it asks those around it
to do. Directions and flushes are asked for by an effect and answered later by an event.
-/

namespace Roadbook

/-- What directions are wanted for. -/
inductive Purpose where
  | toStart
  | resume
  deriving DecidableEq, Repr

namespace Purpose

/-- The phase in which directions for this purpose are of use. -/
def phase : Purpose → Phase
  | toStart => .toStart
  | resume => .resume

def name : Purpose → String
  | toStart => "ToStart"
  | resume => "ResumeAhead"

end Purpose

/-- A request for directions from one point to another. -/
structure Request (α : Type) where
  id : Nat
  purpose : Purpose
  start : Point α
  finish : Point α
  deriving DecidableEq, Repr

/-- What the map shows, as the driver has it. -/
structure View where
  follow : Bool
  overview : Bool
  deriving DecidableEq, Repr

/-- Following the driver. -/
def View.standard : View := ⟨true, false⟩

inductive Event (α : Type) where
  /-- An area to be loaded. The ranks stand for the order in which its tracks will be listed. -/
  | areaLoaded (area : Area α) (ranks : Nat → Nat := fun _ => 0)
  | fix (fix : Fix α)
  | begin
  | acceptOffer
  | dismissOffer
  /-- The answer to a request: a path, or nothing when there is none. -/
  | directions (id : Nat) (path : Option (List (Point α)))
  /-- The outcome of a batch that was not the last one. -/
  | flushed (area : String) (success : Bool)
  | view (view : View)
  | tick
  | finish

/-- Why an event is not carried out. -/
inductive Refusal (α : Type) where
  /-- The route of an area is no route. -/
  | route (fault : RouteError α)
  /-- More samples are to be kept than there is room for, or more of a time. -/
  | noRoom
  /-- It cannot be told where a segment is. -/
  | noBounds
  deriving DecidableEq, Repr

/-- Whether more is asked for than can be dealt with. -/
def Refusal.isBeyondLimits {α : Type} : Refusal α → Bool
  | route _ => false
  | noRoom | noBounds => true

inductive Effect (α : Type) where
  | phaseChanged (before after : Phase)
  | showRoute (route : Route α)
  | showCoverage (driven undriven : List Nat)
  | segmentsDriven (area : String) (ids : List Nat) (percent : α)
  | position (point : Point α) (heading : Option α) (progress : α) (travelled : List (Point α))
  | camera (center : Point α) (heading : Option α)
  | instruction (announcement : Announcement)
  | guidancePath (purpose : Purpose) (path : List (Point α)) (straight : Bool)
  | requestDirections (request : Request α)
  /-- Store a batch; the outcome of the last batch is not waited for. -/
  | persist (batch : Batch) (last : Bool)
  | rememberArea (area : String)
  | signalLost
  | signalRestored

/-- Whether an effect is for those who show things to the driver. -/
def Effect.isShown {α : Type} : Effect α → Bool
  | .requestDirections _ | .persist _ _ | .rememberArea _ => false
  | _ => true

end Roadbook

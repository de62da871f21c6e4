import Roadbook.Config

/-!
# Phases of guidance

The phase a journey is in, and the phase a fix leads to (`Phase.next`), which depends on nothing but
the numbers in a `Reading`. All other changes of phase are decided by the driver and the clock.
-/

namespace Roadbook

inductive Phase where
  /-- No area is loaded. -/
  | setup
  /-- A route is shown and the driver has not begun. -/
  | preview
  | toStart
  /-- At the start, waiting for the settle delay. -/
  | atStart
  | active
  | offRoute
  /-- Far off, with a point further along the route on offer. -/
  | resume
  | arrived
  deriving DecidableEq, Repr

namespace Phase

/-- Positions are matched to the route and progress moves. -/
def IsGuiding (p : Phase) : Prop := p = active ∨ p = offRoute ∨ p = resume

instance (p : Phase) : Decidable p.IsGuiding := inferInstanceAs (Decidable (_ ∨ _))

/-- The driver is out on the road. -/
def IsUnderway (p : Phase) : Prop := p ≠ setup ∧ p ≠ preview

instance (p : Phase) : Decidable p.IsUnderway := inferInstanceAs (Decidable (_ ∧ _))

def name : Phase → String
  | setup => "SETUP"
  | preview => "ROUTE_PREVIEW"
  | toStart => "NAVIGATING_TO_START"
  | atStart => "ARRIVED_AT_START"
  | active => "ACTIVE_NAVIGATION"
  | offRoute => "OFF_ROUTE"
  | resume => "RESUME_AHEAD"
  | arrived => "ARRIVED"

end Phase

/-- What a fix contributes to the choice of the next phase. -/
structure Reading (α : Type) where
  /-- Meters of route that are left. -/
  remaining : α
  /-- Meters from the fix to the route. -/
  offset : α
  /-- The fix was found far ahead of progress, where no vehicle could have got to. -/
  rejoined : Bool
  /-- There is a point further along the route to resume at. -/
  canResume : Bool
  /-- Meters from the fix to the start of the route. -/
  toStart : α
  deriving Repr

variable {α : Type} [Scalar α]

/-- Off the route, or on a part of it that progress has not got to. -/
def Config.Guidance.IsOff (rules : Config.Guidance α) (offset : α) (rejoined : Bool) : Prop :=
  rules.offRoute < offset ∨ rejoined

/-- So far off the route that it is worth looking for a point to resume at. -/
def Config.Guidance.IsFar (rules : Config.Guidance α) (offset : α) (rejoined : Bool) : Prop :=
  rules.resumeAhead < offset ∨ rejoined

instance (rules : Config.Guidance α) (offset : α) (rejoined : Bool) :
    Decidable (rules.IsOff offset rejoined) :=
  inferInstanceAs (Decidable (_ ∨ _))

instance (rules : Config.Guidance α) (offset : α) (rejoined : Bool) :
    Decidable (rules.IsFar offset rejoined) :=
  inferInstanceAs (Decidable (_ ∨ _))

def Phase.next (rules : Config.Guidance α) (reading : Reading α) : Phase → Phase
  | .toStart => if reading.toStart ≤ rules.startRadius then .atStart else .toStart
  | .active =>
    if reading.remaining < rules.arrival then .arrived
    else if rules.IsFar reading.offset reading.rejoined then .resume
    else if rules.IsOff reading.offset reading.rejoined then .offRoute
    else .active
  | .offRoute =>
    if reading.remaining < rules.arrival then .arrived
    else if ¬ rules.IsOff reading.offset reading.rejoined then .active
    else if rules.IsFar reading.offset reading.rejoined ∧ reading.canResume then .resume
    else .offRoute
  | .resume =>
    if reading.remaining < rules.arrival then .arrived
    else if ¬ rules.IsOff reading.offset reading.rejoined then .active
    else if reading.canResume then .resume
    else .offRoute
  | phase => phase

end Roadbook

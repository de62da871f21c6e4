import Roadbook.Config
import Roadbook.Number.Power

/-!
# Progress

Places found along the route jitter, and now and then jump when a position is matched to the wrong
part of it. `Smoother.update` turns them into a progress that steps back a long way only when
enough of the latest samples do, advances no faster than a vehicle, and is blended with the average
of the latest samples.
-/

namespace Roadbook

variable {α : Type} [Scalar α]

structure Smoother (α : Type) where
  /-- Meters along the route. -/
  progress : α
  /-- The latest samples, the newest last. -/
  history : List α
  /-- When the newest sample was taken. -/
  time : Option Int
  /-- The newest sample is further ahead of the one before than a vehicle gets. -/
  outran : Bool
  deriving Repr

namespace Smoother

def fresh : Smoother α := ⟨0, [], none, false⟩

/-- There is no room for so many samples. -/
def tooManySamples : Nat := twoTo 60

/-- A fresh smoother, if there is room for the samples that are to be kept. -/
def start? (rules : Config.Smoothing α) : Option (Smoother α) :=
  if rules.capacity < tooManySamples then some fresh else none

/-- The seconds from the newest sample to a time, none when it is earlier. -/
def elapsed (s : Smoother α) (time : Int) : α :=
  match s.time with
  | some previous => Scalar.ofInt (max (Scalar.wrap α (time - previous)) 0) / 1000
  | none => 0

/-- Whether a sample is a long step back from a progress. -/
def IsBehind (rules : Config.Smoothing α) (progress sample : α) : Prop :=
  rules.backwardJump < progress - sample

instance (rules : Config.Smoothing α) (progress sample : α) :
    Decidable (IsBehind rules progress sample) :=
  inferInstanceAs (Decidable (_ < _))

/-- The samples kept once one more has been taken, at least that one. -/
def remember (rules : Config.Smoothing α) (history : List α) (sample : α) : List α :=
  let all := history ++ [sample]
  all.drop (all.length - max rules.capacity 1)

def average (samples : List α) : α := Scalar.sum samples / Scalar.ofInt samples.length

/-- A sample cut down to what a vehicle reaches, blended with the average of the latest samples. -/
def blend (rules : Config.Smoothing α) (progress elapsed sample : α) (history : List α) : α :=
  let reached := Scalar.min sample (progress + rules.maxSpeed * elapsed)
  rules.rawWeight * reached + (1 - rules.rawWeight) * average history

/-- Whether a sample is a long step back that too few of the latest samples agree on. -/
def IsOutlier (rules : Config.Smoothing α) (progress sample : α) (history : List α) : Prop :=
  IsBehind rules progress sample ∧
    history.countP (fun s => IsBehind rules progress s) < rules.corroboration

instance (rules : Config.Smoothing α) (progress sample : α) (history : List α) :
    Decidable (IsOutlier rules progress sample history) :=
  inferInstanceAs (Decidable (_ ∧ _))

/-- Whether a sample is further ahead of the one before it than a vehicle gets in the time. -/
def outruns (rules : Config.Smoothing α) (s : Smoother α) (sample : α) (time : Int) : Bool :=
  match s.history.getLast? with
  | some previous => rules.maxSpeed * s.elapsed time < sample - previous
  | none => false

/-- The progress after one more sample; the first one since a reset is taken as it is. -/
def next (rules : Config.Smoothing α) (s : Smoother α) (sample : α) (time : Int) : α :=
  let history := remember rules s.history sample
  match s.time with
  | none => sample
  | some _ =>
    if IsOutlier rules s.progress sample history then s.progress
    else blend rules s.progress (s.elapsed time) sample history

def update (rules : Config.Smoothing α) (s : Smoother α) (sample : α) (time : Int) :
    Smoother α where
  progress := s.next rules sample time
  history := remember rules s.history sample
  time := some time
  outran := s.outruns rules sample time

/-- Sets the progress and forgets the samples, but not when the newest of them was taken. -/
def force (s : Smoother α) (progress : α) : Smoother α := ⟨progress, [], s.time, false⟩

end Smoother

end Roadbook

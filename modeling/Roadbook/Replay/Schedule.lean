import Roadbook.Coverage.Tracker
import Roadbook.Guidance.Effect

/-!
# Jobs and when they are done

Directions and the storing of batches are jobs that a replay hands out. How soon they are done is
not up to the replay: a `Schedule` says it for every time at which the replay waits for jobs.
-/

namespace Roadbook

/-- Something that is done outside the replay. -/
inductive Job (α : Type) where
  | directions (request : Request α)
  | persist (batch : Batch)

/-- Which of the open jobs are done each time the replay waits. -/
structure Schedule (α : Type) where
  /-- The jobs that are done, in the order in which they are done, and those that stay open. The
  times at which the replay waits are counted from 0. -/
  split : Nat → List (Job α) → List (Job α) × List (Job α)
  /-- Each job is done once or stays open. -/
  perm_split : ∀ wait jobs, ((split wait jobs).1 ++ (split wait jobs).2).Perm jobs

/-- All jobs are done the next time the replay waits, in the order in which they were handed out. -/
def Schedule.prompt {α : Type} : Schedule α where
  split _ jobs := (jobs, [])
  perm_split _ jobs := .of_eq jobs.append_nil

end Roadbook

/-!
# Timers

A table of deadlines, at most one for each task, kept in the order in which they fall due; tasks due
at the same time go by `Task.Before`. Nothing here waits: the owner asks for the next deadline and
takes out what is due (`Timers.popDue`).
-/

namespace Roadbook

inductive Task where
  /-- The driver has been at the start long enough. -/
  | settle
  /-- The driven segments of an area are to be stored. -/
  | flush (area : String)
  deriving DecidableEq, Repr

/-- Settling goes first, then flushes by the name of the area. -/
def Task.Before : Task → Task → Prop
  | .settle, .flush _ => True
  | .flush a, .flush b => a < b
  | _, .settle => False

instance : ∀ s t : Task, Decidable (s.Before t)
  | .settle, .flush _ => isTrue trivial
  | .flush a, .flush b => inferInstanceAs (Decidable (a < b))
  | .settle, .settle => isFalse id
  | .flush _, .settle => isFalse id

structure Timer where
  due : Int
  task : Task
  deriving DecidableEq, Repr

def Timer.Before (a b : Timer) : Prop := a.due < b.due ∨ (a.due = b.due ∧ a.task.Before b.task)

instance (a b : Timer) : Decidable (a.Before b) := inferInstanceAs (Decidable (_ ∨ _))

structure Timers where
  toList : List Timer
  deriving DecidableEq, Repr

namespace Timers

def empty : Timers := ⟨[]⟩

/-- A timer put before the first one that it does not come after. -/
def place (timer : Timer) : List Timer → List Timer
  | [] => [timer]
  | t :: ts => if timer.Before t then timer :: t :: ts else t :: place timer ts

def cancel (timers : Timers) (task : Task) : Timers :=
  ⟨timers.toList.filter fun t => t.task ≠ task⟩

/-- Sets the deadline of a task in place of the one it has. -/
def schedule (timers : Timers) (task : Task) (due : Int) : Timers :=
  ⟨place ⟨due, task⟩ (timers.cancel task).toList⟩

def deadline? (timers : Timers) (task : Task) : Option Int :=
  (timers.toList.find? fun t => t.task = task).map (·.due)

def isScheduled (timers : Timers) (task : Task) : Bool := (timers.deadline? task).isSome

def next? (timers : Timers) : Option Int := timers.toList.head?.map (·.due)

/-- Takes out what is due at a time. -/
def popDue (timers : Timers) (now : Int) : List Task × Timers :=
  ((timers.toList.filter fun t => t.due ≤ now).map (·.task),
    ⟨timers.toList.filter fun t => ¬ t.due ≤ now⟩)

def size (timers : Timers) : Nat := timers.toList.length

end Timers

end Roadbook

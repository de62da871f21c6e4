import Roadbook.Proofs.Guidance.Reckoning

/-!
# The deadlines that a call leaves

A call takes out what is due by then. So what is true of the deadlines that are later, and of those
that are set at its time, is true of all that it leaves (`Navigator.all_handle`). As long as no
delay is negative and nothing overflows none of them lies before its time
(`Navigator.isFrom_handle`), and where none lies before the next call either, that one runs its
tasks at the very time they are due (`Timers.Valid.deadline_of_due`).
-/

namespace Roadbook

namespace Timers

/-- No deadline lies before a time. -/
def IsFrom (now : Int) (timers : Timers) : Prop := ∀ t ∈ timers.toList, now ≤ t.due

/-- True of every deadline. -/
def All (P : Timer → Prop) (timers : Timers) : Prop := ∀ t ∈ timers.toList, P t

variable {now : Int} {timers : Timers}

theorem isFrom_empty (now : Int) : empty.IsFrom now := by simp [IsFrom, empty]

theorem Valid.isFrom_next (h : timers.Valid) {due : Int} (hnext : timers.next? = some due) :
    timers.IsFrom due := fun _ ht => h.le_of_next? hnext ht

/-- Where no deadline lies before a time, what is due then is due at that very time. -/
theorem Valid.deadline_of_due (h : timers.Valid) (hfrom : timers.IsFrom now) {task : Task}
    (htask : task ∈ (timers.popDue now).1) : timers.deadline? task = some now := by
  obtain ⟨u, hu, hdue, rfl⟩ := mem_popDue_tasks.1 htask
  obtain rfl : u.due = now := le_antisymm hdue (hfrom u hu)
  exact h.deadline?_eq_some.2 hu

end Timers

/-- Nothing is put off to a time that is past. -/
structure Config.IsPatient {α : Type} (config : Config α) : Prop where
  settle : 0 ≤ config.guidance.settleDelay
  quiet : 0 ≤ config.coverage.quiet

theorem Config.IsPatient.delay_nonneg {α : Type} {config : Config α} (h : config.IsPatient) :
    ∀ task, 0 ≤ config.delay task
  | .settle => h.settle
  | .flush _ => h.quiet

namespace Navigator

variable {α : Type} [Scalar α] [Geodesy α] {config : Config α} {now : Int} {n : Navigator α}
  {event : Event α}

theorem all_handle {P : Timer → Prop} (hrange : ¬ n.Overflows config now event)
    (hset : ∀ task, P ⟨now + config.delay task, task⟩)
    (h : n.timers.All fun t => now < t.due → P t) : (n.handle config now event).2.timers.All P := by
  rintro ⟨due, task⟩ ht
  rcases due_of_not_overflows hrange ht with ⟨hold, hlater⟩ | hnew
  · exact h _ hold hlater
  · obtain rfl : due = now + config.delay task := hnew
    exact hset task

/-- Whatever was due before, no deadline lies before the time of the last call. -/
theorem isFrom_handle (hconfig : config.IsPatient) (hrange : ¬ n.Overflows config now event) :
    (n.handle config now event).2.timers.IsFrom now :=
  all_handle hrange (fun task => Int.le_add_of_nonneg_right (hconfig.delay_nonneg task))
    fun _ _ => le_of_lt

end Navigator

end Roadbook

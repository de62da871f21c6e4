import Mathlib.Data.List.Induction
import Roadbook.Proofs.Guidance.Timers

/-!
# A table of deadlines as a map

After any operations on an empty table a task has the deadline that was set for it last, unless that
deadline has been cancelled, taken out or cleared since (`Timers.deadline?_after`). What is due at a
time is taken out in the order of the deadlines, and all at once or little by little alike
(`Valid.popDue_popDue`). So a table is a map from tasks to deadlines that could be kept in any
order: to find what is due and what falls due next it is enough to go through its deadlines as they
come (`Timers.IsListing`) and to sort them then.
-/

namespace Roadbook

namespace Timers

/-- What can be done with a table. -/
inductive Operation where
  | schedule (task : Task) (due : Int)
  | cancel (task : Task)
  | popDue (now : Int)
  | clear

def perform (timers : Timers) : Operation → Timers
  | .schedule task due => timers.schedule task due
  | .cancel task => timers.cancel task
  | .popDue now => (timers.popDue now).2
  | .clear => .empty

def performAll (timers : Timers) (operations : List Operation) : Timers :=
  operations.foldl perform timers

/-- A table that was empty at first, after some operations. -/
def after (operations : List Operation) : Timers := empty.performAll operations

/-- An operation does away with the deadline that a task has: it sets another one, cancels it, takes
it out or clears the table. -/
def Operation.Ends (timers : Timers) (task : Task) : Operation → Prop
  | .schedule task' _ | .cancel task' => task' = task
  | .popDue now => task ∈ (timers.popDue now).1
  | .clear => True

/-- None of some operations does away with the deadline that a task has. -/
def Spares (task : Task) : Timers → List Operation → Prop
  | _, [] => True
  | timers, operation :: operations =>
    ¬ operation.Ends timers task ∧ Spares task (timers.perform operation) operations

/-- A deadline was set for a task, and nothing has done away with it since. -/
def Stands (operations : List Operation) (task : Task) (due : Int) : Prop :=
  ∃ before later, operations = before ++ .schedule task due :: later
    ∧ Spares task ((after before).schedule task due) later

/-- What is taken out of a table when it is due, and what is left. -/
structure PopsDue (timers : Timers) (now : Int) : Prop where
  nodup : (timers.popDue now).1.Nodup
  /-- The tasks are in the order of their deadlines, and where these are the same in their own. -/
  ordered : (timers.popDue now).1.Pairwise fun s t => ∀ due due', timers.deadline? s = some due →
    timers.deadline? t = some due' → due < due' ∨ (due = due' ∧ s.Before t)
  mem_iff : ∀ task, task ∈ (timers.popDue now).1 ↔ ∃ due ≤ now, timers.deadline? task = some due
  rest : ∀ task, (timers.popDue now).2.deadline? task
    = if task ∈ (timers.popDue now).1 then none else timers.deadline? task
  next : ∀ due, (timers.popDue now).2.next? = some due → now < due

/-- The deadlines of a table, in whatever order they come. -/
structure IsListing (timers : Timers) (entries : List Timer) : Prop where
  nodup : entries.Nodup
  mem_iff : ∀ t, t ∈ entries ↔ timers.deadline? t.task = some t.due

/-- Deadlines put in order. -/
def inOrder (entries : List Timer) : List Timer :=
  entries.mergeSort fun a b => decide (¬ b.Before a)

theorem after_concat (operations : List Operation) (operation : Operation) :
    after (operations ++ [operation]) = (after operations).perform operation :=
  List.foldl_concat ..

theorem spares_concat {task : Task} : ∀ {operations : List Operation} {timers : Timers}
    {operation : Operation}, Spares task timers (operations ++ [operation])
      ↔ Spares task timers operations ∧ ¬ operation.Ends (timers.performAll operations) task
  | [], timers, operation => by simp [Spares, performAll]
  | first :: operations, timers, operation => by
    have ih := @spares_concat task operations (timers.perform first) operation
    simp only [List.cons_append, Spares, ih, and_assoc]
    rfl

variable {timers : Timers} {task : Task} {due now : Int}

namespace Valid

theorem perform (h : timers.Valid) : ∀ operation, (timers.perform operation).Valid
  | .schedule task due => h.schedule task due
  | .cancel task => h.cancel task
  | .popDue now => h.popDue now
  | .clear => valid_empty

theorem mem_popDue_iff (h : timers.Valid) :
    task ∈ (timers.popDue now).1 ↔ ∃ due ≤ now, timers.deadline? task = some due := by
  rw [mem_popDue_tasks]
  constructor
  · rintro ⟨t, ht, hdue, rfl⟩
    exact ⟨t.due, hdue, h.deadline?_eq_some.2 ht⟩
  · rintro ⟨due, hdue, hsome⟩
    exact ⟨⟨due, task⟩, h.deadline?_eq_some.1 hsome, hdue, rfl⟩

/-- After an operation a task has the deadline that was set, or the one it had, if the operation has
not done away with it. -/
theorem deadline?_perform (h : timers.Valid) (operation : Operation) :
    (timers.perform operation).deadline? task = some due ↔ operation = .schedule task due
      ∨ timers.deadline? task = some due ∧ ¬ operation.Ends timers task := by
  rw [(h.perform operation).deadline?_eq_some]
  cases operation with
  | schedule task' due' =>
    simp only [Timers.perform, mem_schedule, h.deadline?_eq_some, Timer.mk.injEq,
      Operation.schedule.injEq, Operation.Ends, eq_comm]
    tauto
  | cancel task' =>
    simp only [Timers.perform, mem_cancel, h.deadline?_eq_some, Operation.Ends, reduceCtorEq,
      false_or, ne_eq, eq_comm]
  | popDue now =>
    simp only [Timers.perform, mem_popDue, ← h.deadline?_eq_some, Operation.Ends, reduceCtorEq,
      false_or, h.mem_popDue_iff]
    refine and_congr_right fun hdue => ?_
    simp only [hdue, Option.some.injEq, exists_eq_right', not_le]
  | clear => simp [Timers.perform, Operation.Ends, empty]

/-- What is due at a time comes before all else, so what is due by a later time can be taken out in
two parts. -/
theorem popDue_popDue (h : timers.Valid) {a b : Int} (hab : a ≤ b) :
    (timers.popDue a).1 ++ ((timers.popDue a).2.popDue b).1 = (timers.popDue b).1
      ∧ ((timers.popDue a).2.popDue b).2 = (timers.popDue b).2 := by
  simp only [Timers.popDue, List.filter_filter, ← List.map_append]
  constructor
  · refine congrArg _ (eq_of_ordered ?_ (h.ordered.filter _) fun t => ?_)
    · refine List.pairwise_append.2 ⟨h.ordered.filter _, h.ordered.filter _, fun t ht u hu => ?_⟩
      simp only [List.mem_filter, decide_eq_true_eq, Bool.and_eq_true] at ht hu
      exact .inl (by omega)
    · simp only [List.mem_append, List.mem_filter, decide_eq_true_eq, Bool.and_eq_true]
      rw [← and_or_left]
      refine and_congr_right fun _ => ?_
      omega
  · refine congrArg _ (List.filter_congr fun t _ => ?_)
    simp only [← Bool.decide_and, decide_eq_decide]
    omega

theorem popsDue (h : timers.Valid) (now : Int) : timers.PopsDue now where
  nodup := h.popDue_nodup now
  ordered := by
    refine List.pairwise_map.2 ((h.ordered.filter _).imp_of_mem fun {t u} ht hu htu => ?_)
    have htdue := h.deadline?_eq_some.2 (List.mem_filter.1 ht).1
    have hudue := h.deadline?_eq_some.2 (List.mem_filter.1 hu).1
    intro due due' hdue hdue'
    obtain rfl := Option.some.inj (hdue.symm.trans htdue)
    obtain rfl := Option.some.inj (hdue'.symm.trans hudue)
    exact htu
  mem_iff task := h.mem_popDue_iff
  rest task := by
    ext due
    refine (h.deadline?_perform (.popDue now)).trans ?_
    split_ifs with htask <;> simp [Operation.Ends, htask]
  next due hnext := by
    obtain ⟨t, ht, rfl⟩ := exists_of_next? hnext
    exact (mem_popDue.1 ht).2

end Valid

theorem valid_after (operations : List Operation) : (after operations).Valid := by
  induction operations using List.reverseRecOn with
  | nil => exact valid_empty
  | append_singleton operations operation ih =>
    rw [after_concat]
    exact ih.perform operation

/-- A task has the deadline that was set last, if nothing has done away with it since. -/
theorem deadline?_after (operations : List Operation) (task : Task) (due : Int) :
    (after operations).deadline? task = some due ↔ Stands operations task due := by
  induction operations using List.reverseRecOn with
  | nil => simp [after, performAll, deadline?, empty, Stands]
  | append_singleton operations operation ih =>
    rw [after_concat, (valid_after operations).deadline?_perform, ih]
    unfold Stands
    -- the deadline was set by the last operation, or has been spared by it
    constructor
    · rintro (rfl | ⟨⟨before, later, rfl, hspares⟩, hends⟩)
      · exact ⟨operations, [], rfl, trivial⟩
      · refine ⟨before, later ++ [operation], by simp, spares_concat.2 ⟨hspares, ?_⟩⟩
        rwa [after, performAll, List.foldl_append] at hends
    · rintro ⟨before, later, heq, hspares⟩
      rcases List.eq_nil_or_concat' later with rfl | ⟨later, last, rfl⟩
      · obtain ⟨-, hlast⟩ := List.append_inj' heq rfl
        exact .inl (List.singleton_inj.1 hlast)
      · rw [← List.cons_append, ← List.append_assoc] at heq
        obtain ⟨rfl, hlast⟩ := List.append_inj' heq rfl
        obtain rfl := List.singleton_inj.1 hlast
        obtain ⟨hspares, hends⟩ := spares_concat.1 hspares
        refine .inr ⟨⟨before, later, rfl, hspares⟩, ?_⟩
        rwa [after, performAll, List.foldl_append]

theorem inOrder_perm (entries : List Timer) : (inOrder entries).Perm entries :=
  List.mergeSort_perm _ _

theorem pairwise_inOrder {entries : List Timer} (h : entries.Nodup) :
    (inOrder entries).Pairwise Timer.Before := by
  have htrans : ∀ a b c : Timer, decide (¬ b.Before a) = true → decide (¬ c.Before b) = true →
      decide (¬ c.Before a) = true := by
    simp only [decide_eq_true_eq]
    intro a b c hba hcb hca
    rcases a.before_or_eq_or_before b with hab | rfl | hab
    · exact hcb (hca.trans hab)
    · exact hcb hca
    · exact hba hab
  have htotal : ∀ a b : Timer, (decide (¬ b.Before a) || decide (¬ a.Before b)) = true := by
    simp only [Bool.or_eq_true, decide_eq_true_eq, ← not_and_or]
    exact fun a b hboth => (hboth.1.trans hboth.2).irrefl
  have hsorted := List.pairwise_mergeSort htrans htotal entries
  refine (hsorted.and ((inOrder_perm entries).nodup_iff.2 h)).imp fun {a b} hab => ?_
  exact Timer.before_of_not hab.2.symm (of_decide_eq_true hab.1)

section Listing

variable {entries : List Timer}

theorem Valid.isListing_of_perm (h : timers.Valid) (hperm : entries.Perm timers.toList) :
    timers.IsListing entries :=
  ⟨hperm.nodup_iff.2 (h.nodup.of_map _), fun _ => hperm.mem_iff.trans h.deadline?_eq_some.symm⟩

/-- What falls due next is the least of the deadlines. -/
theorem IsListing.next? (hl : timers.IsListing entries) (h : timers.Valid) :
    timers.next? = (entries.map (·.due)).min? := by
  have hmem : ∀ t, t ∈ entries ↔ t ∈ timers.toList := fun t =>
    (hl.mem_iff t).trans h.deadline?_eq_some
  rcases hnext : timers.next? with _ | due
  · have hnil : entries = [] := List.eq_nil_iff_forall_not_mem.2 fun t =>
      (hmem t).not.2 (mem_of_next?_eq_none hnext t)
    rw [hnil]
    rfl
  · obtain ⟨t, ht, rfl⟩ := exists_of_next? hnext
    refine (List.min?_eq_some_iff.2 ⟨List.mem_map_of_mem ((hmem t).2 ht), ?_⟩).symm
    exact List.forall_mem_map.2 fun u hu => h.le_of_next? hnext ((hmem u).1 hu)

/-- What is due is found by going through the deadlines, and sorted then. -/
theorem IsListing.popDue (hl : timers.IsListing entries) (h : timers.Valid) (now : Int) :
    (timers.popDue now).1 = (inOrder (entries.filter (·.due ≤ now))).map (·.task)
      ∧ (timers.popDue now).2.IsListing (entries.filter (¬ ·.due ≤ now)) := by
  have hmem : ∀ t, t ∈ entries ↔ t ∈ timers.toList := fun t =>
    (hl.mem_iff t).trans h.deadline?_eq_some
  refine ⟨congrArg _ (eq_of_ordered (h.ordered.filter _) (pairwise_inOrder (hl.nodup.filter _))
    fun t => ?_), hl.nodup.filter _, fun t => ?_⟩
  · rw [(inOrder_perm _).mem_iff, List.mem_filter, List.mem_filter, hmem]
  · rw [(h.popDue now).deadline?_eq_some, mem_popDue, List.mem_filter, hmem]
    simp

end Listing

/-- Whatever has been done with a table that was empty at first: a task has a deadline just if one
was set for it and stands, and it has the one set last. What is due is taken out without repetition
and in order, it is just what has a deadline by then, and nothing else is taken out. To take out
what is due at one time and then what is due at a later one comes to the same as to do the latter
only. And none of this hangs on the order that the deadlines are kept in. -/
theorem keeps_deadlines (operations : List Operation) :
    (∀ task due, (after operations).deadline? task = some due ↔ Stands operations task due)
    ∧ (∀ now, (after operations).PopsDue now)
    ∧ (∀ a b, a ≤ b →
      ((after operations).popDue a).1 ++ (((after operations).popDue a).2.popDue b).1
          = ((after operations).popDue b).1
        ∧ (((after operations).popDue a).2.popDue b).2 = ((after operations).popDue b).2)
    ∧ ∀ entries, (after operations).IsListing entries →
      (after operations).next? = (entries.map (·.due)).min?
        ∧ ∀ now, ((after operations).popDue now).1
              = (inOrder (entries.filter (·.due ≤ now))).map (·.task)
            ∧ ((after operations).popDue now).2.IsListing (entries.filter (¬ ·.due ≤ now)) := by
  have h := valid_after operations
  exact ⟨deadline?_after operations, h.popsDue, fun _ _ => h.popDue_popDue,
    fun entries hl => ⟨hl.next? h, hl.popDue h⟩⟩

end Timers

namespace Trial

/-- One flush is put off to the time of another, and settling is cancelled and set again. -/
def timetable : List Timers.Operation :=
  [.schedule (.flush "north") 2000, .schedule .settle 1500, .schedule (.flush "south") 4000,
    .cancel .settle, .popDue 1500, .schedule (.flush "north") 4000, .schedule .settle 3000]

/-- Its deadlines in some other order than that in which they fall due. -/
def listing : List Timer :=
  [⟨4000, .flush "south"⟩, ⟨3000, .settle⟩, ⟨4000, .flush "north"⟩]

end Trial

namespace Timers

theorem keeps_deadlines_timetable :
    Stands Trial.timetable (.flush "north") 4000 ∧ ¬ Stands Trial.timetable .settle 1500
      ∧ (inOrder (Trial.listing.filter (·.due ≤ 4000))).map (·.task)
        = [.settle, .flush "north", .flush "south"]
      ∧ ((after Trial.timetable).popDue 3000).1
          ++ (((after Trial.timetable).popDue 3000).2.popDue 4000).1
        = [.settle, .flush "north", .flush "south"] := by
  obtain ⟨hstands, -, hparts, hlisting⟩ := keeps_deadlines Trial.timetable
  have hl : (after Trial.timetable).IsListing Trial.listing :=
    (valid_after Trial.timetable).isListing_of_perm (by decide +kernel)
  have hdue : ((after Trial.timetable).popDue 4000).1
      = [.settle, .flush "north", .flush "south"] := by
    decide +kernel
  refine ⟨(hstands _ _).1 (by decide +kernel), fun hold => ?_, ?_, ?_⟩
  · have hsettle := (hstands _ _).2 hold
    revert hsettle
    decide +kernel
  · rw [← ((hlisting _ hl).2 4000).1, hdue]
  · rw [(hparts 3000 4000 (by decide)).1, hdue]

end Timers

end Roadbook

import Mathlib.Data.List.Nodup
import Mathlib.Data.String.Basic
import Roadbook.Guidance.Timers

/-!
# The table of deadlines

What is scheduled after each operation on the table (`isScheduled_schedule`, `isScheduled_cancel`,
`isScheduled_iff_popDue`). A table in the order of its deadlines with one for each task
(`Timers.Valid`) stays one, and is told apart by its deadlines alone (`Valid.ext`). The deadline of
a task is the one in the table (`Valid.deadline?_eq_some`), and the next one is the least
(`Valid.le_of_next?`).
-/

namespace Roadbook

theorem Task.Before.trans {s t u : Task} (h : s.Before t) (h' : t.Before u) : s.Before u := by
  cases s <;> cases t <;> cases u <;> simp only [Task.Before] at h h' ⊢
  exact lt_trans h h'

theorem Task.Before.irrefl (t : Task) : ¬ t.Before t := by
  cases t <;> simp [Task.Before]

theorem Task.before_or_eq_or_before (s t : Task) : s.Before t ∨ s = t ∨ t.Before s := by
  cases s with
  | settle => cases t <;> simp [Task.Before]
  | flush a =>
    cases t with
    | settle => simp [Task.Before]
    | flush b => simpa [Task.Before] using lt_trichotomy a b

theorem Timer.Before.trans {a b c : Timer} (h : a.Before b) (h' : b.Before c) : a.Before c := by
  rcases h with h | ⟨h, ht⟩ <;> rcases h' with h' | ⟨h', ht'⟩
  · exact .inl (h.trans h')
  · exact .inl (h' ▸ h)
  · exact .inl (h ▸ h')
  · exact .inr ⟨h.trans h', ht.trans ht'⟩

theorem Timer.Before.irrefl (a : Timer) : ¬ a.Before a := by
  rintro (h | ⟨-, h⟩)
  · exact absurd h (lt_irrefl _)
  · exact Task.Before.irrefl _ h

theorem Timer.before_or_eq_or_before (a b : Timer) : a.Before b ∨ a = b ∨ b.Before a := by
  obtain ⟨due, s⟩ := a
  obtain ⟨due', t⟩ := b
  rcases lt_trichotomy due due' with hdue | rfl | hdue
  · exact .inl (.inl hdue)
  · rcases Task.before_or_eq_or_before s t with htask | rfl | htask
    · exact .inl (.inr ⟨rfl, htask⟩)
    · exact .inr (.inl rfl)
    · exact .inr (.inr (.inr ⟨rfl, htask⟩))
  · exact .inr (.inr (.inl hdue))

theorem Timer.before_of_not {a b : Timer} (hne : a ≠ b) (h : ¬ a.Before b) : b.Before a :=
  ((a.before_or_eq_or_before b).resolve_left h).resolve_left hne

namespace Timers

theorem mem_place {t u : Timer} : ∀ {l : List Timer}, u ∈ place t l ↔ u = t ∨ u ∈ l
  | [] => by simp [place]
  | v :: l => by
    have ih := mem_place (t := t) (u := u) (l := l)
    simp only [place]
    split_ifs
    · simp
    · simp only [List.mem_cons, ih]
      tauto

theorem mem_cancel {timers : Timers} {k : Task} {t : Timer} :
    t ∈ (timers.cancel k).toList ↔ t ∈ timers.toList ∧ t.task ≠ k := by
  simp [cancel]

theorem mem_schedule {timers : Timers} {k : Task} {due : Int} {t : Timer} :
    t ∈ (timers.schedule k due).toList
      ↔ t = ⟨due, k⟩ ∨ (t ∈ timers.toList ∧ t.task ≠ k) := by
  simp only [schedule, mem_place, mem_cancel]

theorem isScheduled_iff {timers : Timers} {k : Task} :
    timers.isScheduled k = true ↔ ∃ t ∈ timers.toList, t.task = k := by
  simp [isScheduled, deadline?, List.find?_isSome]

@[simp] theorem isScheduled_empty {k : Task} : empty.isScheduled k = false := rfl

theorem isScheduled_schedule {timers : Timers} {k k' : Task} {due : Int} :
    (timers.schedule k due).isScheduled k' = true ↔ k' = k ∨ timers.isScheduled k' = true := by
  simp only [isScheduled_iff, mem_schedule]
  constructor
  · rintro ⟨t, rfl | ⟨ht, -⟩, rfl⟩
    · exact .inl rfl
    · exact .inr ⟨t, ht, rfl⟩
  · rintro (rfl | ⟨t, ht, rfl⟩)
    · exact ⟨_, .inl rfl, rfl⟩
    · by_cases hk : t.task = k
      · exact ⟨_, .inl rfl, hk.symm⟩
      · exact ⟨t, .inr ⟨ht, hk⟩, rfl⟩

theorem isScheduled_cancel {timers : Timers} {k k' : Task} :
    (timers.cancel k).isScheduled k' = true ↔ timers.isScheduled k' = true ∧ k' ≠ k := by
  simp only [isScheduled_iff, mem_cancel]
  constructor
  · rintro ⟨t, ⟨ht, hk⟩, rfl⟩
    exact ⟨⟨t, ht, rfl⟩, hk⟩
  · rintro ⟨⟨t, ht, rfl⟩, hk⟩
    exact ⟨t, ⟨ht, hk⟩, rfl⟩

theorem mem_popDue_tasks {timers : Timers} {now : Int} {k : Task} :
    k ∈ (timers.popDue now).1 ↔ ∃ t ∈ timers.toList, t.due ≤ now ∧ t.task = k := by
  simp [popDue, and_assoc]

theorem mem_popDue {timers : Timers} {now : Int} {t : Timer} :
    t ∈ (timers.popDue now).2.toList ↔ t ∈ timers.toList ∧ now < t.due := by
  simp [popDue]

theorem isScheduled_iff_popDue {timers : Timers} (now : Int) {k : Task} :
    timers.isScheduled k = true
      ↔ (timers.popDue now).2.isScheduled k = true ∨ k ∈ (timers.popDue now).1 := by
  simp only [isScheduled_iff, mem_popDue, mem_popDue_tasks]
  constructor
  · rintro ⟨t, ht, rfl⟩
    by_cases hd : t.due ≤ now
    · exact .inr ⟨t, ht, hd, rfl⟩
    · exact .inl ⟨t, ⟨ht, by omega⟩, rfl⟩
  · rintro (⟨t, ⟨ht, -⟩, rfl⟩ | ⟨t, ht, -, rfl⟩) <;> exact ⟨t, ht, rfl⟩

/-- In the order of the deadlines, and one deadline for each task. -/
structure Valid (timers : Timers) : Prop where
  ordered : timers.toList.Pairwise Timer.Before
  nodup : (timers.toList.map (·.task)).Nodup

theorem valid_empty : empty.Valid := ⟨.nil, .nil⟩

theorem ordered_place {t : Timer} : ∀ {l : List Timer}, l.Pairwise Timer.Before →
    (∀ u ∈ l, u.task ≠ t.task) → (place t l).Pairwise Timer.Before
  | [], _, _ => by simp [place]
  | v :: l, hl, hne => by
    rw [List.pairwise_cons] at hl
    have ih := ordered_place hl.2 fun u hu => hne u (List.mem_cons_of_mem _ hu)
    simp only [place]
    split_ifs with hlt
    · refine List.pairwise_cons.2 ⟨fun u hu => ?_, List.pairwise_cons.2 hl⟩
      rcases List.mem_cons.1 hu with rfl | hu
      · exact hlt
      · exact hlt.trans (hl.1 u hu)
    · refine List.pairwise_cons.2 ⟨fun u hu => ?_, ih⟩
      rcases mem_place.1 hu with rfl | hu
      · exact Timer.before_of_not (fun heq => hne v List.mem_cons_self (heq ▸ rfl)) hlt
      · exact hl.1 u hu

theorem place_perm (t : Timer) : ∀ l : List Timer, (place t l).Perm (t :: l)
  | [] => .refl _
  | v :: l => by
    simp only [place]
    split_ifs
    · exact .refl _
    · exact ((place_perm t l).cons v).trans (.swap _ _ _)

namespace Valid

variable {timers : Timers} (h : timers.Valid)
include h

theorem cancel (k : Task) : (timers.cancel k).Valid :=
  ⟨h.ordered.filter _, h.nodup.sublist (List.filter_sublist.map _)⟩

theorem popDue (now : Int) : (timers.popDue now).2.Valid :=
  ⟨h.ordered.filter _, h.nodup.sublist (List.filter_sublist.map _)⟩

theorem popDue_nodup (now : Int) : (timers.popDue now).1.Nodup :=
  h.nodup.sublist (List.filter_sublist.map _)

theorem schedule (k : Task) (due : Int) : (timers.schedule k due).Valid := by
  have hne : ∀ t ∈ (timers.cancel k).toList, t.task ≠ k := fun t ht => (mem_cancel.1 ht).2
  refine ⟨ordered_place (h.cancel k).ordered hne, ?_⟩
  rw [Timers.schedule, ((place_perm _ _).map _).nodup_iff, List.map_cons, List.nodup_cons]
  refine ⟨fun hk => ?_, (h.cancel k).nodup⟩
  obtain ⟨t, ht, htk⟩ := List.mem_map.1 hk
  exact hne t ht htk

theorem due_unique {t u : Timer} (ht : t ∈ timers.toList) (hu : u ∈ timers.toList)
    (htu : t.task = u.task) : t = u :=
  List.inj_on_of_nodup_map h.nodup ht hu htu

theorem not_isScheduled_of_mem_popDue {now : Int} {k : Task} (hk : k ∈ (timers.popDue now).1) :
    (timers.popDue now).2.isScheduled k = false := by
  rw [Bool.eq_false_iff, Ne, isScheduled_iff]
  rintro ⟨t, ht, rfl⟩
  obtain ⟨u, hu, hdue, htu⟩ := mem_popDue_tasks.1 hk
  obtain ⟨ht, hlt⟩ := mem_popDue.1 ht
  rw [h.due_unique hu ht htu] at hdue
  omega

end Valid

/-- Lists in the order of the deadlines are told apart by what is in them. -/
theorem eq_of_ordered {l m : List Timer} (hl : l.Pairwise Timer.Before)
    (hm : m.Pairwise Timer.Before) (h : ∀ t, t ∈ l ↔ t ∈ m) : l = m := by
  have hne : ∀ {a b : Timer}, a.Before b → a ≠ b := by
    rintro a _ hab rfl
    exact hab.irrefl
  have hperm : l.Perm m := (List.perm_ext_iff_of_nodup (hl.imp hne) (hm.imp hne)).2 h
  exact hperm.eq_of_pairwise (fun a b _ _ hab hba => absurd rfl (hne (hab.trans hba))) hl hm

theorem Valid.ext {timers timers' : Timers} (h : timers.Valid) (h' : timers'.Valid)
    (hmem : ∀ t, t ∈ timers.toList ↔ t ∈ timers'.toList) : timers = timers' := by
  cases timers
  cases timers'
  exact congrArg Timers.mk (eq_of_ordered h.ordered h'.ordered hmem)

theorem Valid.deadline?_eq_some {timers : Timers} (h : timers.Valid) {k : Task} {due : Int} :
    timers.deadline? k = some due ↔ ⟨due, k⟩ ∈ timers.toList := by
  unfold deadline?
  constructor
  · intro hsome
    obtain ⟨t, hfind, rfl⟩ := Option.map_eq_some_iff.1 hsome
    obtain rfl : t.task = k := by simpa using List.find?_some hfind
    exact List.mem_of_find?_eq_some hfind
  · intro hmem
    obtain ⟨t, hfind⟩ : ∃ t, timers.toList.find? (fun t => t.task = k) = some t := by
      refine Option.isSome_iff_exists.1 (List.find?_isSome.2 ⟨_, hmem, ?_⟩)
      simp
    have hsame : t.task = k := by simpa using List.find?_some hfind
    obtain rfl := h.due_unique (List.mem_of_find?_eq_some hfind) hmem hsame
    rw [hfind]
    rfl

/-- What falls due next is in the table, and nothing falls due before it. -/
theorem exists_of_next? {timers : Timers} {due : Int} (hnext : timers.next? = some due) :
    ∃ t ∈ timers.toList, t.due = due := by
  obtain ⟨t, ht, hdue⟩ := Option.map_eq_some_iff.1 hnext
  exact ⟨t, List.mem_of_head? ht, hdue⟩

theorem Valid.le_of_next? {timers : Timers} (h : timers.Valid) {due : Int}
    (hnext : timers.next? = some due) {t : Timer} (ht : t ∈ timers.toList) : due ≤ t.due := by
  obtain ⟨_ | ⟨first, l⟩⟩ := timers
  · cases hnext
  obtain rfl := Option.some.inj hnext
  rcases List.mem_cons.1 ht with rfl | ht
  · exact le_rfl
  · exact ((List.pairwise_cons.1 h.ordered).1 t ht).elim le_of_lt fun hsame => hsame.1.le

theorem mem_of_next?_eq_none {timers : Timers} (h : timers.next? = none) (t : Timer) :
    t ∉ timers.toList := by
  obtain ⟨_ | ⟨first, l⟩⟩ := timers
  · simp
  · cases h

theorem popDue_of_later {timers : Timers} {now : Int} (h : ∀ t ∈ timers.toList, now < t.due) :
    timers.popDue now = ([], timers) := by
  have hnone : (timers.toList.filter fun t => t.due ≤ now) = [] :=
    List.filter_eq_nil_iff.2 fun t ht => by simpa using h t ht
  have hall : (timers.toList.filter fun t => ¬ t.due ≤ now) = timers.toList :=
    List.filter_eq_self.2 fun t ht => by simpa using h t ht
  simp only [popDue, hnone, hall, List.map_nil]

/-- Setting the one deadline that is due once more undoes taking it out. -/
theorem Valid.popDue_of_one {timers : Timers} (h : timers.Valid) {now : Int} {t : Timer}
    (ht : t ∈ timers.toList) (hdue : t.due ≤ now)
    (hone : ∀ u ∈ timers.toList, u.due ≤ now → u = t) :
    (timers.popDue now).1 = [t.task] ∧ (timers.popDue now).2.schedule t.task t.due = timers := by
  constructor
  · refine List.perm_singleton.1 ((List.perm_ext_iff_of_nodup (h.popDue_nodup now) (by simp)).2
      fun task => ?_)
    rw [mem_popDue_tasks, List.mem_singleton]
    constructor
    · rintro ⟨u, hu, hudue, rfl⟩
      rw [hone u hu hudue]
    · rintro rfl
      exact ⟨t, ht, hdue, rfl⟩
  · refine ((h.popDue now).schedule _ _).ext h fun u => ?_
    rw [mem_schedule, mem_popDue]
    constructor
    · rintro (rfl | ⟨⟨hu, -⟩, -⟩)
      · exact ht
      · exact hu
    · intro hu
      by_cases hudue : u.due ≤ now
      · exact .inl (hone u hu hudue)
      · refine .inr ⟨⟨hu, by omega⟩, fun htask => hudue ?_⟩
        rwa [h.due_unique hu ht htask]

end Timers

end Roadbook

/-!
# Sets of segment numbers

A set of numbers is kept as the ascending list of them, so that two sets with the same members are
equal (`IdSet.ext`) and every list made from a set is in order. `mem_insert`, `mem_union` and
`mem_diff` say what the operations do.
-/

namespace Roadbook

structure IdSet where
  toList : List Nat
  ascending : toList.Pairwise (· < ·)
  deriving DecidableEq, Repr

namespace IdSet

instance : Membership Nat IdSet := ⟨fun s n => n ∈ s.toList⟩

instance (n : Nat) (s : IdSet) : Decidable (n ∈ s) := inferInstanceAs (Decidable (n ∈ s.toList))

theorem mem_def {n : Nat} {s : IdSet} : n ∈ s ↔ n ∈ s.toList := Iff.rfl

theorem nodup (s : IdSet) : s.toList.Nodup := s.ascending.imp fun h => Nat.ne_of_lt h

def empty : IdSet := ⟨[], .nil⟩

instance : EmptyCollection IdSet := ⟨empty⟩

@[simp] theorem toList_empty : (∅ : IdSet).toList = [] := rfl

@[simp] theorem not_mem_empty {n : Nat} : n ∉ (∅ : IdSet) := by
  show n ∉ ([] : List Nat)
  simp

def isEmpty (s : IdSet) : Bool := s.toList.isEmpty

theorem isEmpty_iff {s : IdSet} : s.isEmpty = true ↔ ∀ n, n ∉ s := by
  simp [isEmpty, mem_def, List.eq_nil_iff_forall_not_mem]

/-- A number put in its place in an ascending list, unless it is there. -/
def place (n : Nat) : List Nat → List Nat
  | [] => [n]
  | m :: ms => if n < m then n :: m :: ms else if n = m then m :: ms else m :: place n ms

theorem mem_place {n k : Nat} : ∀ {l : List Nat}, k ∈ place n l ↔ k = n ∨ k ∈ l
  | [] => by simp [place]
  | m :: ms => by
    have ih := mem_place (n := n) (k := k) (l := ms)
    simp only [place]
    split
    · simp
    · split
      · subst_vars
        simp
      · simp only [List.mem_cons, ih]
        grind

theorem ascending_place {n : Nat} : ∀ {l : List Nat},
    l.Pairwise (· < ·) → (place n l).Pairwise (· < ·)
  | [], _ => by simp [place]
  | m :: ms, h => by
    have ih := ascending_place (n := n) h.of_cons
    rw [List.pairwise_cons] at h
    simp only [place]
    split
    · rename_i hlt
      refine List.pairwise_cons.mpr ⟨fun k hk => ?_, List.pairwise_cons.mpr h⟩
      rcases List.mem_cons.mp hk with rfl | hk
      · exact hlt
      · exact Nat.lt_trans hlt (h.1 k hk)
    · split
      · exact List.pairwise_cons.mpr h
      · refine List.pairwise_cons.mpr ⟨fun k hk => ?_, ih⟩
        rcases mem_place.mp hk with rfl | hk
        · omega
        · exact h.1 k hk

def insert (n : Nat) (s : IdSet) : IdSet := ⟨place n s.toList, ascending_place s.ascending⟩

@[simp] theorem mem_insert {n k : Nat} {s : IdSet} : k ∈ s.insert n ↔ k = n ∨ k ∈ s := mem_place

/-- The members that have a property. -/
def filter (p : Nat → Bool) (s : IdSet) : IdSet := ⟨s.toList.filter p, s.ascending.filter _⟩

@[simp] theorem mem_filter {p : Nat → Bool} {k : Nat} {s : IdSet} :
    k ∈ s.filter p ↔ k ∈ s ∧ p k = true := by
  simp [filter, mem_def]

def ofList (ns : List Nat) : IdSet := ns.foldr insert ∅

@[simp] theorem mem_ofList {k : Nat} : ∀ {l : List Nat}, k ∈ ofList l ↔ k ∈ l
  | [] => by simp [ofList]
  | n :: l => by
    have ih := mem_ofList (k := k) (l := l)
    simp only [ofList, List.foldr_cons, mem_insert, List.mem_cons] at ih ⊢
    rw [ih]

def union (s t : IdSet) : IdSet := t.toList.foldr insert s

@[simp] theorem mem_union {k : Nat} {s t : IdSet} : k ∈ s.union t ↔ k ∈ s ∨ k ∈ t := by
  have h : ∀ ns : List Nat, k ∈ ns.foldr insert s ↔ k ∈ s ∨ k ∈ ns := by
    intro ns
    induction ns with
    | nil => simp
    | cons n ns ih =>
      simp only [List.foldr_cons, mem_insert, ih, List.mem_cons]
      grind
  exact h t.toList

/-- The members of one set that are not in another. -/
def diff (s t : IdSet) : IdSet := s.filter fun n => !decide (n ∈ t)

@[simp] theorem mem_diff {k : Nat} {s t : IdSet} : k ∈ s.diff t ↔ k ∈ s ∧ k ∉ t := by
  simp [diff]

theorem toList_ext {l m : List Nat} (hl : l.Pairwise (· < ·)) (hm : m.Pairwise (· < ·))
    (h : ∀ n, n ∈ l ↔ n ∈ m) : l = m := by
  have hl' : l.Nodup := hl.imp fun hlt => Nat.ne_of_lt hlt
  have hm' : m.Nodup := hm.imp fun hlt => Nat.ne_of_lt hlt
  refine List.Perm.eq_of_pairwise (fun a b _ _ hab hba => ?_) hl hm
    ((List.perm_ext_iff_of_nodup hl' hm').2 h)
  exact absurd hba (Nat.lt_asymm hab)

@[ext] theorem ext {s t : IdSet} (h : ∀ n, n ∈ s ↔ n ∈ t) : s = t := by
  obtain ⟨l, hl⟩ := s
  obtain ⟨m, hm⟩ := t
  have : l = m := toList_ext hl hm h
  subst this
  rfl

theorem ofList_toList (s : IdSet) : ofList s.toList = s := by
  ext n
  rw [mem_ofList, mem_def]

end IdSet

end Roadbook

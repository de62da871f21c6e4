import Roadbook.Proofs.Number.Exact

/-!
# The first of the least

`Scalar.firstBy?` goes through a list once and keeps what nothing has come before so far. Where the
things in the list are ranked by what comes before what (`Scalar.Ranks`), that is the one that
nothing in the whole list comes before, and the first of several such
(`Scalar.firstBy?_eq_some_iff`). Numbers rank things where they are in order of size
(`Scalar.IsOrdered`), as exact numbers always are.
-/

namespace Roadbook

namespace Scalar

variable {β : Type} {before : β → β → Prop}

/-- The things in a list fall into ranks, and those of an earlier rank come before the others. -/
structure Ranks (before : β → β → Prop) (bs : List β) : Prop where
  asymm : ∀ a ∈ bs, ∀ b ∈ bs, before a b → ¬ before b a
  trans : ∀ a ∈ bs, ∀ b ∈ bs, ∀ c ∈ bs, before a b → ¬ before c b → before a c

/-- Nothing in a list comes before a thing in it, and of those like it the thing has the least
number. -/
structure IsFirst (before : β → β → Prop) (number : β → Nat) (bs : List β) (b : β) : Prop where
  mem : b ∈ bs
  least : ∀ c ∈ bs, ¬ before c b
  first : ∀ c ∈ bs, number c < number b → before b c

theorem Ranks.mono {bs cs : List β} (h : Ranks before bs) (hsub : cs ⊆ bs) : Ranks before cs where
  asymm a ha b hb := h.asymm a (hsub ha) b (hsub hb)
  trans a ha b hb c hc := h.trans a (hsub ha) b (hsub hb) c (hsub hc)

theorem Ranks.irrefl {bs : List β} (h : Ranks before bs) {b : β} (hb : b ∈ bs) : ¬ before b b :=
  fun hself => h.asymm b hb b hb hself hself

theorem IsFirst.unique {number : β → Nat} {bs : List β} {b c : β}
    (hnumbered : bs.Pairwise (number · < number ·)) (hb : IsFirst before number bs b)
    (hc : IsFirst before number bs c) : b = c := by
  rcases lt_trichotomy (number b) (number c) with hlt | heq | hlt
  · exact absurd (hc.first b hb.mem hlt) (hb.least c hc.mem)
  · obtain ⟨i, hi, rfl⟩ := List.mem_iff_getElem.1 hb.mem
    obtain ⟨j, hj, rfl⟩ := List.mem_iff_getElem.1 hc.mem
    have hpairs := List.pairwise_iff_getElem.1 hnumbered
    rcases lt_trichotomy i j with hij | rfl | hij
    · exact absurd heq (hpairs i j hi hj hij).ne
    · rfl
    · exact absurd heq (hpairs j i hj hi hij).ne'
  · exact absurd (hb.first c hc.mem hlt) (hc.least b hb.mem)

/-- Something that comes before the best so far takes its place. -/
theorem IsFirst.replace {number : β → Nat} {bs : List β} {best c b : β}
    (hranks : Ranks before (best :: c :: bs)) (hnumbered : (c :: bs).Pairwise (number · < number ·))
    (hbefore : before c best) (h : IsFirst before number (c :: bs) b) :
    IsFirst before number (best :: c :: bs) b := by
  obtain ⟨hmem, hleast, hfirst⟩ := h
  have hbest : best ∈ best :: c :: bs := List.mem_cons_self
  have hc : c ∈ best :: c :: bs := List.mem_cons_of_mem _ List.mem_cons_self
  have hb : b ∈ best :: c :: bs := List.mem_cons_of_mem _ hmem
  have hahead : before b best := by
    rcases List.mem_cons.1 hmem with rfl | hlater
    · exact hbefore
    · have hbc := hfirst c List.mem_cons_self ((List.pairwise_cons.1 hnumbered).1 b hlater)
      exact hranks.trans b hb c hc best hbest hbc (hranks.asymm c hc best hbest hbefore)
  refine ⟨hb, fun d hd => ?_, fun d hd hdb => ?_⟩
  · rcases List.mem_cons.1 hd with rfl | hd
    · exact hranks.asymm b hb d hbest hahead
    · exact hleast d hd
  · rcases List.mem_cons.1 hd with rfl | hd
    · exact hahead
    · exact hfirst d hd hdb

/-- What does not come before the best so far is passed over. -/
theorem IsFirst.pass {number : β → Nat} {bs : List β} {best c b : β}
    (hranks : Ranks before (best :: c :: bs))
    (hnumbered : (best :: c :: bs).Pairwise (number · < number ·))
    (hnot : ¬ before c best) (h : IsFirst before number (best :: bs) b) :
    IsFirst before number (best :: c :: bs) b := by
  obtain ⟨hmem, hleast, hfirst⟩ := h
  have hlt := (List.pairwise_cons.1 hnumbered).1
  have hsub : best :: bs ⊆ best :: c :: bs :=
    List.cons_subset_cons best (List.subset_cons_self c bs)
  have hc : c ∈ best :: c :: bs := List.mem_cons_of_mem _ List.mem_cons_self
  have hpassed : ¬ before c b ∧ (number c < number b → before b c) := by
    rcases List.mem_cons.1 hmem with rfl | hlater
    · exact ⟨hnot, fun hcb => absurd hcb (lt_asymm (hlt c List.mem_cons_self))⟩
    · have hahead : before b best :=
        hfirst best List.mem_cons_self (hlt b (List.mem_cons_of_mem _ hlater))
      have hbc := hranks.trans b (hsub hmem) best List.mem_cons_self c hc hahead hnot
      exact ⟨hranks.asymm b (hsub hmem) c hc hbc, fun _ => hbc⟩
  have hcases : ∀ d ∈ best :: c :: bs, d = c ∨ d ∈ best :: bs := by simp; tauto
  refine ⟨hsub hmem, fun d hd => ?_, fun d hd hdb => ?_⟩
  · rcases hcases d hd with rfl | hd
    · exact hpassed.1
    · exact hleast d hd
  · rcases hcases d hd with rfl | hd
    · exact hpassed.2 hdb
    · exact hfirst d hd hdb

variable [DecidableRel before]

theorem mem_of_firstBy? : ∀ {bs : List β} {b : β}, firstBy? before bs = some b → b ∈ bs
  | c :: bs, b, h => by
    obtain rfl := Option.some.inj h
    have hfold : ∀ (bs : List β) (c : β),
        bs.foldl (fun best c => if before c best then c else best) c ∈ c :: bs := by
      intro bs
      induction bs with
      | nil => simp
      | cons d bs ih =>
        intro c
        rw [List.foldl_cons]
        have hmem := ih (if before d c then d else c)
        split_ifs at hmem ⊢ with hbefore
        · exact List.mem_cons_of_mem _ hmem
        · rcases List.mem_cons.1 hmem with heq | hmem
          · exact List.mem_cons.2 (.inl heq)
          · exact List.mem_cons_of_mem _ (List.mem_cons_of_mem _ hmem)
    exact hfold bs c

theorem firstBy?_eq_none_iff {bs : List β} : firstBy? before bs = none ↔ bs = [] := by
  cases bs <;> simp [firstBy?]

theorem isFirst_foldl {number : β → Nat} : ∀ (bs : List β) (best : β),
    (best :: bs).Pairwise (number · < number ·) → Ranks before (best :: bs) →
    IsFirst before number (best :: bs)
      (bs.foldl (fun best c => if before c best then c else best) best)
  | [], best, _, hranks => by
    refine ⟨by simp, fun c hc => ?_, fun c hc hlt => ?_⟩
    · rw [List.mem_singleton.1 hc]
      exact hranks.irrefl List.mem_cons_self
    · rw [List.foldl_nil, List.mem_singleton.1 hc] at hlt
      exact absurd hlt (lt_irrefl _)
  | c :: bs, best, hnumbered, hranks => by
    rw [List.foldl_cons]
    split_ifs with hbefore
    · have ih := isFirst_foldl bs c hnumbered.of_cons
        (hranks.mono (List.subset_cons_self best _))
      exact ih.replace hranks hnumbered.of_cons hbefore
    · have hskipped : (best :: bs).Sublist (best :: c :: bs) :=
        (List.sublist_cons_self c bs).cons_cons best
      have ih := isFirst_foldl bs best (hnumbered.sublist hskipped) (hranks.mono hskipped.subset)
      exact ih.pass hranks hnumbered hbefore

theorem firstBy?_eq_some_iff {number : β → Nat} {bs : List β}
    (hnumbered : bs.Pairwise (number · < number ·)) (hranks : Ranks before bs) {b : β} :
    firstBy? before bs = some b ↔ IsFirst before number bs b := by
  cases bs with
  | nil => exact ⟨nofun, fun h => nomatch h.mem⟩
  | cons c bs =>
    have hfirst := isFirst_foldl bs c hnumbered hranks
    constructor
    · intro h
      rwa [← Option.some.inj h]
    · intro h
      exact congrArg some (hfirst.unique hnumbered h)

section Lengths

variable {α : Type} [Scalar α]

/-- Of two numbers one is at most as large as the other, and less just if the other is not at most
as large as it. -/
structure IsOrdered (S : Set α) : Prop where
  total : ∀ a ∈ S, ∀ b ∈ S, a ≤ b ∨ b ≤ a
  lt_iff : ∀ a ∈ S, ∀ b ∈ S, a < b ↔ ¬ b ≤ a
  trans : ∀ a ∈ S, ∀ b ∈ S, ∀ c, a ≤ b → b ≤ c → a ≤ c

theorem IsOrdered.le_of_not_lt {S : Set α} (h : IsOrdered S) {a b : α} (ha : a ∈ S) (hb : b ∈ S)
    (hnot : ¬ b < a) : a ≤ b := by
  rwa [h.lt_iff b hb a ha, not_not] at hnot

theorem IsOrdered.ranks {S : Set α} (h : IsOrdered S) {key : β → α} {bs : List β}
    (hkey : ∀ b ∈ bs, key b ∈ S) : Ranks (fun b c => key b < key c) bs where
  asymm a ha b hb hab hba := by
    rw [h.lt_iff _ (hkey a ha) _ (hkey b hb)] at hab
    rw [h.lt_iff _ (hkey b hb) _ (hkey a ha)] at hba
    exact (h.total _ (hkey a ha) _ (hkey b hb)).elim hba hab
  trans a ha b hb c hc hab hcb := by
    rw [h.lt_iff _ (hkey a ha) _ (hkey b hb)] at hab
    rw [h.lt_iff _ (hkey c hc) _ (hkey b hb), not_not] at hcb
    rw [h.lt_iff _ (hkey a ha) _ (hkey c hc)]
    exact fun hca => hab (h.trans _ (hkey b hb) _ (hkey c hc) _ hcb hca)

end Lengths

section Exact

variable {K : Type} [Field K] [LinearOrder K] [FloorRing K]

attribute [local instance] exact

theorem before_exact {a b : K} : Before a b ↔ a < b := by
  unfold Before
  simp only [le_refl, not_true_eq_false, and_false, or_false]

/-- Every list of things with exact keys is ranked. -/
theorem ranks_before_exact {key : β → K} (bs : List β) :
    Ranks (fun b c => Before (key b) (key c)) bs where
  asymm a _ b _ hab := by
    rw [before_exact] at hab ⊢
    exact hab.asymm
  trans a _ b _ c _ hab hcb := by
    rw [before_exact] at hab hcb ⊢
    exact hab.trans_le (not_lt.1 hcb)

theorem isOrdered_exact (S : Set K) : IsOrdered S where
  total a _ b _ := le_total a b
  lt_iff _ _ _ _ := not_le.symm
  trans _ _ _ _ _ hab hbc := hab.trans hbc

theorem nearestBy?_id (as : List K) : nearestBy? id as = as.min? := by
  cases as with
  | nil => rfl
  | cons a as =>
    have hmin : (fun best c : K => if Before (id c) (id best) then c else best) = Min.min := by
      funext best c
      simp only [before_exact, id_eq, min_def, ← not_lt, ite_not]
    rw [List.min?_cons', ← hmin]
    rfl

end Exact

end Scalar

end Roadbook

import Mathlib.Data.List.Nodup
import Mathlib.Data.List.Pairwise
import Roadbook.Proofs.Coverage.Tracker
import Roadbook.Proofs.Guidance.Run

/-!
# Where driven segments are

A `Custody` is a tracker with what its answers tell those who use it: the segments made driven, the
batches handed out, and which of these were stored, or drained and so handed out for a last time.
Whatever is done with the tracker, a segment is made driven once at the most, and one that was is in
at a single stage: pending, in flight, in a batch that was stored or in one that was drained
(`Custody.driven_once`). The invariant is that the segments made driven, in some order, are those
at the four stages (`Custody.IsExact`).
-/

namespace Roadbook

theorem IdSet.union_perm {s t : IdSet} (h : ∀ id ∈ t, id ∉ s) :
    (s.union t).toList.Perm (s.toList ++ t.toList) := by
  have happend : (s.toList ++ t.toList).Nodup :=
    List.nodup_append.2 ⟨s.nodup, t.nodup, fun a ha b hb hab => h b hb (hab ▸ ha)⟩
  refine (List.perm_ext_iff_of_nodup (s.union t).nodup happend).2 fun id => ?_
  rw [← IdSet.mem_def, IdSet.mem_union, List.mem_append, IdSet.mem_def, IdSet.mem_def]

/-- A batch is not empty, and its segments are in order. -/
def Batch.IsProper (batch : Batch) : Prop := batch.ids ≠ [] ∧ batch.ids.Pairwise (· < ·)

namespace Tracker

variable {α : Type} {t : Tracker α}

theorem isProper_batch {ids : IdSet} (h : ids.isEmpty = false) : (t.batch ids).IsProper :=
  ⟨by simpa [batch, IdSet.isEmpty] using h, ids.ascending⟩

theorem beginFlush_cases (t : Tracker α) :
    (t.beginFlush = (none, t) ∧ ¬ (t.inFlight = none ∧ t.pending.isEmpty = false))
    ∨ (t.inFlight = none ∧ t.pending.isEmpty = false ∧ t.beginFlush =
        (some (t.batch t.pending), { t with pending := ∅, inFlight := some t.pending })) := by
  by_cases h : t.inFlight = none ∧ t.pending.isEmpty = false
  · exact .inr ⟨h.1, h.2, beginFlush_of_pending h.1 h.2⟩
  · refine .inl ⟨if_pos ?_, h⟩
    rw [Bool.or_eq_true, Option.isSome_iff_ne_none, ← Bool.not_eq_false]
    exact Decidable.not_and_iff_or_not.1 h

theorem isSome_beginFlush :
    t.beginFlush.1.isSome = true ↔ t.inFlight = none ∧ ∃ id, id ∈ t.pending := by
  have hsome : t.pending.isEmpty = false ↔ ∃ id, id ∈ t.pending := by
    rw [← Bool.not_eq_true, IdSet.isEmpty_iff, not_forall_not]
  rw [← hsome]
  rcases t.beginFlush_cases with ⟨hflush, hno⟩ | ⟨hfree, hsome, hflush⟩
  · simp [hflush, hno]
  · simp [hflush, hfree, hsome]

theorem drain_eq (t : Tracker α) : t.drain =
    (if t.unconfirmed.isEmpty then none else some (t.batch t.unconfirmed),
      { t with pending := ∅, inFlight := none }) := by
  unfold drain
  split_ifs <;> rfl

end Tracker

/-- What can be done with a tracker. -/
inductive Tracker.Operation (α : Type) where
  | observe (p : Point α)
  | beginFlush
  | completeFlush (success : Bool)
  | drain

/-- A tracker with what is known from its answers. -/
structure Custody (α : Type) where
  tracker : Tracker α
  /-- The segments made driven, in the order in which they were. -/
  driven : List Nat
  /-- The batches handed out. -/
  batches : List Batch
  /-- The batch whose outcome is not known. -/
  awaited : Option Batch
  stored : List Batch
  /-- The batches handed out for a last time. -/
  drained : List Batch

/-- Where a segment made driven can be. -/
inductive Stage where
  | pending
  | inFlight
  | stored
  | drained

def Stage.all : List Stage := [.pending, .inFlight, .stored, .drained]

theorem Stage.mem_all (stage : Stage) : stage ∈ all := by
  cases stage <;> simp [all]

namespace Custody

variable {α : Type}

def start (area : Area α) (ranks : Nat → Nat := fun _ => 0) : Custody α :=
  ⟨.ofArea area ranks, [], [], none, [], []⟩

/-- The segments at a stage. -/
def holds (c : Custody α) : Stage → List Nat
  | .pending => c.tracker.pending.toList
  | .inFlight => (c.tracker.inFlight.getD ∅).toList
  | .stored => c.stored.flatMap (·.ids)
  | .drained => c.drained.flatMap (·.ids)

theorem flatMap_holds (c : Custody α) : Stage.all.flatMap c.holds =
    c.tracker.pending.toList ++ ((c.tracker.inFlight.getD ∅).toList
      ++ (c.stored.flatMap (·.ids) ++ c.drained.flatMap (·.ids))) := by
  simp only [Stage.all, List.flatMap_cons, List.flatMap_nil, List.append_nil, holds]

/-- The account of the answers is exact. -/
structure IsExact (c : Custody α) : Prop where
  nodup : c.driven.Nodup
  placed : c.driven.Perm (Stage.all.flatMap c.holds)
  undriven : ∀ id ∈ c.tracker.undriven, id ∉ c.driven
  awaited : c.awaited = c.tracker.inFlight.map c.tracker.batch
  proper : ∀ batch ∈ c.batches, batch.IsProper

variable {c : Custody α}

theorem isExact_start (area : Area α) (ranks : Nat → Nat) : (start area ranks).IsExact where
  nodup := .nil
  placed := by simp [start, Stage.all, holds]
  undriven := by simp [start]
  awaited := by simp [start]
  proper := by simp [start]

namespace IsExact

theorem pending_driven (h : c.IsExact) {id : Nat} (hid : id ∈ c.tracker.pending) :
    id ∈ c.driven :=
  h.placed.mem_iff.2 (List.mem_flatMap.2 ⟨.pending, Stage.mem_all _, hid⟩)

/-- What is pending is not in flight. -/
theorem apart (h : c.IsExact) : ∀ id ∈ c.tracker.inFlight.getD ∅, id ∉ c.tracker.pending := by
  have hnodup := h.placed.nodup_iff.1 h.nodup
  rw [flatMap_holds, List.nodup_append] at hnodup
  intro id hflight hpending
  exact hnodup.2.2 id hpending id (List.mem_append_left _ hflight) rfl

theorem unconfirmed_perm (h : c.IsExact) : c.tracker.unconfirmed.toList.Perm
    (c.tracker.pending.toList ++ (c.tracker.inFlight.getD ∅).toList) :=
  IdSet.union_perm h.apart

/-- Segments go from one stage to another. -/
theorem moved (h : c.IsExact) {c' : Custody α} (hdriven : c'.driven = c.driven)
    (hundriven : c'.tracker.undriven = c.tracker.undriven)
    (hheld : (Stage.all.flatMap c.holds).Perm (Stage.all.flatMap c'.holds))
    (hawaited : c'.awaited = c'.tracker.inFlight.map c'.tracker.batch)
    (hproper : ∀ batch ∈ c'.batches, batch ∈ c.batches ∨ batch.IsProper) : c'.IsExact where
  nodup := hdriven ▸ h.nodup
  placed := hdriven ▸ h.placed.trans hheld
  undriven := hundriven ▸ hdriven ▸ h.undriven
  awaited := hawaited
  proper batch hbatch := (hproper batch hbatch).elim (h.proper batch) id

theorem stages (h : c.IsExact) : (∀ stage, (c.holds stage).Nodup)
    ∧ ∀ a b id, id ∈ c.holds a → id ∈ c.holds b → a = b := by
  obtain ⟨heach, hdisjoint⟩ := List.nodup_flatMap.1 (h.placed.nodup_iff.1 h.nodup)
  refine ⟨fun stage => heach stage (Stage.mem_all stage), fun a b id ha hb => ?_⟩
  have : Std.Symm (Function.onFun List.Disjoint c.holds) := ⟨fun _ _ h _ ha hb => h hb ha⟩
  by_contra hne
  exact hdisjoint.forall (Stage.mem_all a) (Stage.mem_all b) hne ha hb

end IsExact

section Perform

variable [Scalar α] [Geodesy α]

/-- What is known after one more operation, if it can be carried out. -/
def perform? (rules : Config.Coverage α) (c : Custody α) :
    Tracker.Operation α → Option (Custody α)
  | .observe p =>
    (c.tracker.observation? rules p).map fun (hits, tracker) =>
      { c with tracker := tracker, driven := c.driven ++ hits.toList }
  | .beginFlush =>
    let (batch, tracker) := c.tracker.beginFlush
    some { c with
      tracker := tracker
      batches := c.batches ++ batch.toList
      awaited := batch <|> c.awaited }
  | .completeFlush success =>
    some { c with
      tracker := (c.tracker.completeFlush success).2
      awaited := none
      stored := if success then c.stored ++ c.awaited.toList else c.stored }
  | .drain =>
    let (batch, tracker) := c.tracker.drain
    some { c with
      tracker := tracker
      batches := c.batches ++ batch.toList
      awaited := none
      drained := c.drained ++ batch.toList }

def run? (rules : Config.Coverage α) (c : Custody α) (operations : List (Tracker.Operation α)) :
    Option (Custody α) :=
  operations.foldlM (perform? rules) c

variable {rules : Config.Coverage α} {c' : Custody α}

namespace IsExact

theorem observe (h : c.IsExact) {p : Point α} (hc : c.perform? rules (.observe p) = some c') :
    c'.IsExact := by
  obtain ⟨⟨hits, tracker⟩, hob, rfl⟩ := Option.map_eq_some_iff.1 hc
  cases Tracker.observation?_eq_some hob
  have hnew : ∀ id ∈ c.tracker.touched rules p, id ∉ c.driven := fun id hid =>
    h.undriven id (IdSet.mem_filter.1 hid).1
  refine ⟨?nodup, ?placed, fun id hid => ?undriven, h.awaited, h.proper⟩
  case nodup =>
    exact List.nodup_append.2 ⟨h.nodup, IdSet.nodup _, fun a ha b hb hab => hnew b hb (hab ▸ ha)⟩
  case placed =>
    have hpending := IdSet.union_perm fun id hid hp => hnew id hid (h.pending_driven hp)
    have hswap : ∀ held others hits : List Nat,
        (held ++ others ++ hits).Perm (held ++ hits ++ others) := fun held others hits => by
      rw [List.append_assoc, List.append_assoc]
      exact .append_left _ List.perm_append_comm
    have hplaced := h.placed
    rw [flatMap_holds] at hplaced ⊢
    exact (hplaced.append_right _).trans ((hswap ..).trans (hpending.symm.append_right _))
  case undriven =>
    obtain ⟨hid, hno⟩ := IdSet.mem_diff.1 hid
    exact List.mem_append.not.2 (not_or.2 ⟨h.undriven id hid, hno⟩)

theorem beginFlush (h : c.IsExact) (hc : c.perform? rules .beginFlush = some c') :
    c'.IsExact := by
  rcases c.tracker.beginFlush_cases with ⟨hflush, -⟩ | ⟨hfree, hsome, hflush⟩
  · simp only [perform?, hflush, Option.toList_none, List.append_nil, Option.some.injEq] at hc
    subst hc
    exact h
  · simp only [perform?, hflush, Option.some.injEq] at hc
    subst hc
    refine h.moved rfl rfl ?_ rfl fun batch hbatch => ?_
    · simp only [flatMap_holds, hfree, Option.getD_none, IdSet.toList_empty, List.nil_append,
        Option.getD_some]
      exact .refl _
    · refine (List.mem_append.1 hbatch).imp id fun hbatch => ?_
      obtain rfl : batch = c.tracker.batch c.tracker.pending := by simpa using hbatch
      exact Tracker.isProper_batch hsome

theorem completeFlush (h : c.IsExact) {success : Bool}
    (hc : c.perform? rules (.completeFlush success) = some c') : c'.IsExact := by
  obtain rfl := Option.some.inj hc
  have hawaited := h.awaited
  cases hflight : c.tracker.inFlight with
  | none =>
    rw [hflight] at hawaited
    refine h.moved rfl ?_ ?_ ?_ fun batch => .inl
    · simp [Tracker.completeFlush, hflight]
    · simp [flatMap_holds, Tracker.completeFlush, hflight, hawaited]
    · simp [Tracker.completeFlush, hflight]
  | some ids =>
    rw [hflight] at hawaited
    have hapart := h.apart
    rw [hflight, Option.getD_some] at hapart
    cases success
    · refine h.moved rfl ?_ ?_ ?_ fun batch => .inl
      · simp [Tracker.completeFlush, hflight]
      · simp only [flatMap_holds, Tracker.completeFlush, hflight, Option.getD_some,
          Option.getD_none, IdSet.toList_empty, List.nil_append, Bool.false_eq_true, if_false]
        rw [← List.append_assoc]
        exact (IdSet.union_perm hapart).symm.append_right _
      · simp [Tracker.completeFlush, hflight]
    · refine h.moved rfl ?_ ?_ ?_ fun batch => .inl
      · simp [Tracker.completeFlush, hflight]
      · simp only [flatMap_holds, Tracker.completeFlush, hflight, hawaited, Option.getD_some,
          Option.getD_none, IdSet.toList_empty, List.nil_append, if_true, Option.map_some,
          Option.toList_some, List.flatMap_append, List.flatMap_singleton, Tracker.batch]
        refine .append_left _ ?_
        rw [← List.append_assoc]
        exact List.perm_append_comm.append_right _
      · simp [Tracker.completeFlush, hflight]

theorem drain (h : c.IsExact) (hc : c.perform? rules .drain = some c') : c'.IsExact := by
  have hperm := h.unconfirmed_perm
  simp only [perform?, Tracker.drain_eq, Option.some.injEq] at hc
  subst hc
  cases hempty : c.tracker.unconfirmed.isEmpty
  · refine h.moved rfl rfl ?_ rfl fun batch hbatch => ?_
    · simp only [flatMap_holds, Option.getD_none, IdSet.toList_empty, List.nil_append,
        Bool.false_eq_true, if_false, Option.toList_some, List.flatMap_append,
        List.flatMap_singleton, Tracker.batch]
      rw [← List.append_assoc]
      exact (hperm.symm.append_right _).trans
        (List.perm_append_comm.trans (.of_eq (List.append_assoc ..)))
    · refine (List.mem_append.1 hbatch).imp id fun hbatch => ?_
      obtain rfl : batch = c.tracker.batch c.tracker.unconfirmed := by simpa using hbatch
      exact Tracker.isProper_batch hempty
  · have hnil : c.tracker.unconfirmed.toList = [] := List.isEmpty_iff.1 hempty
    rw [hnil] at hperm
    refine h.moved rfl rfl ?_ rfl fun batch hbatch => .inl ?_
    · simp only [flatMap_holds, Option.getD_none, IdSet.toList_empty, List.nil_append, if_true,
        Option.toList_none, List.append_nil]
      rw [← List.append_assoc]
      exact hperm.symm.append_right _
    · simpa using hbatch

theorem perform (h : c.IsExact) {operation : Tracker.Operation α}
    (hc : c.perform? rules operation = some c') : c'.IsExact := by
  cases operation with
  | observe p => exact h.observe hc
  | beginFlush => exact h.beginFlush hc
  | completeFlush success => exact h.completeFlush hc
  | drain => exact h.drain hc

theorem run : ∀ {operations : List (Tracker.Operation α)} {c : Custody α}, c.IsExact →
    c.run? rules operations = some c' → c'.IsExact
  | [], c, h, hc => by
    obtain rfl := Option.some.inj hc
    exact h
  | operation :: operations, c, h, hc => by
    obtain ⟨c₁, hfirst, hrest⟩ := Option.bind_eq_some_iff.1 hc
    exact run (h.perform hfirst) hrest

end IsExact

/-- Whatever is done with the tracker of an area, and however often: a segment is made driven once
at the most, one that was is at exactly one stage, and nothing else is anywhere. A batch is
ascending and not empty, and one is handed out just if none is in flight and something is
pending. -/
theorem driven_once {area : Area α} {ranks : Nat → Nat} {operations : List (Tracker.Operation α)}
    (h : (start area ranks).run? rules operations = some c) :
    c.driven.Nodup
    ∧ (∀ id ∈ c.driven, ∃! stage, id ∈ c.holds stage)
    ∧ (∀ stage, (c.holds stage).Nodup ∧ ∀ id ∈ c.holds stage, id ∈ c.driven)
    ∧ (∀ batch ∈ c.batches, batch.IsProper)
    ∧ (c.tracker.beginFlush.1.isSome = true
        ↔ c.tracker.inFlight = none ∧ ∃ id, id ∈ c.tracker.pending) := by
  have hexact := (isExact_start area ranks).run h
  obtain ⟨hnodup, hone⟩ := hexact.stages
  refine ⟨hexact.nodup, fun id hid => ?_, fun stage => ⟨hnodup stage, fun id hid => ?_⟩,
    hexact.proper, Tracker.isSome_beginFlush⟩
  · obtain ⟨stage, -, hstage⟩ := List.mem_flatMap.1 (hexact.placed.mem_iff.1 hid)
    exact ⟨stage, hstage, fun other hother => hone other stage id hother hstage⟩
  · exact hexact.placed.mem_iff.2 (List.mem_flatMap.2 ⟨stage, Stage.mem_all stage, hid⟩)

end Perform

end Custody

namespace Trial

/-- One segment is stored at the second attempt, and another one is handed out at the end. -/
def errands : List (Tracker.Operation ℚ) :=
  [.observe (place 0), .beginFlush, .completeFlush false, .beginFlush, .observe (place 3),
    .completeFlush true, .drain]

end Trial

theorem Custody.driven_once_north : ∃ c : Custody ℚ,
    (start (Trial.area "north")).run? Config.standard.coverage Trial.errands = some c
      ∧ c.driven = [1, 2] ∧ 2 ∈ c.holds .drained ∧ ∃! stage, 2 ∈ c.holds stage := by
  have hrun : ((start (Trial.area "north")).run? Config.standard.coverage Trial.errands).map
      (fun c => (c.driven, c.holds .drained)) = some ([1, 2], [2]) := by decide +kernel
  obtain ⟨c, hc, hends⟩ := Option.map_eq_some_iff.1 hrun
  obtain ⟨hdriven, hdrained⟩ := Prod.ext_iff.1 hends
  simp only at hdriven hdrained
  exact ⟨c, hc, hdriven, by simp [hdrained], (driven_once hc).2.1 2 (by simp [hdriven])⟩

end Roadbook

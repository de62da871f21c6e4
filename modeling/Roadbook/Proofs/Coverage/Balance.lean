import Roadbook.Proofs.Coverage.Calls

/-!
# What is driven and what is stored

While an area stays loaded, every segment made driven is stored or owed, and nothing else is
(`Tracker.Balanced`). A batch that is in flight is about to be stored, or its storing is about to be
reported (`Tracker.Awaits`). Both facts are kept by what the tasks that are due do to the tracker
and by what an event does to it, and they say that a report of success does not come too early
(`Balanced.answered`).
-/

namespace Roadbook

namespace Effect

variable {α : Type}

/-- The segments that an effect says are made driven. -/
def drivenIds : Effect α → List Nat
  | .segmentsDriven _ ids _ => ids
  | _ => []

/-- The batch that an effect hands out with its outcome waited for. -/
def handedOut : Effect α → List Batch
  | .persist batch false => [batch]
  | _ => []

/-- The segments that an effect has stored for a last time. -/
def lastIds : Effect α → List Nat
  | .persist batch true => batch.ids
  | _ => []

theorem drivenIds_of_not_isBooked {e : Effect α} (h : e.isBooked = false) : e.drivenIds = [] := by
  cases e <;> first | rfl | cases h

theorem handedOut_of_not_isBooked {e : Effect α} (h : e.isBooked = false) : e.handedOut = [] := by
  cases e <;> first | rfl | cases h

theorem lastIds_of_not_isBooked {e : Effect α} (h : e.isBooked = false) : e.lastIds = [] := by
  cases e <;> first | rfl | cases h

theorem flatMap_booked {β : Type} {f : Effect α → List β} (h : ∀ e, e.isBooked = false → f e = []) :
    ∀ effects : List (Effect α), effects.flatMap f = (booked effects).flatMap f
  | [] => rfl
  | e :: effects => by
    have ih := flatMap_booked h effects
    unfold booked at ih ⊢
    rcases he : e.isBooked with _ | _
    · rw [List.filter_cons_of_neg (by simp [he]), List.flatMap_cons, h e he, ih, List.nil_append]
    · rw [List.filter_cons_of_pos he, List.flatMap_cons, List.flatMap_cons, ih]

theorem lastIds_eq_nil {effects : List (Effect α)}
    (h : ∀ batch, Effect.persist batch true ∉ effects) : effects.flatMap lastIds = [] := by
  refine List.flatMap_eq_nil_iff.2 fun e he => ?_
  cases e with
  | persist batch last =>
    cases last
    · rfl
    · exact absurd he (h batch)
  | _ => rfl

end Effect

open Effect

/-- The area and the outcome of the batch that an event reports on. -/
def Event.outcome? {α : Type} : Event α → Option (String × Bool)
  | .flushed area success => some (area, success)
  | _ => none

namespace Tracker

variable {α : Type} {IsNew : Nat → Prop} {P S S' : IdSet} {D : List Nat}
  {t t' : Tracker α} {batches : List Batch} {outcomes : List (String × Bool)}

/-- What was stored before and what was made driven since is stored or owed, and nothing else is.
Segments that are new are made driven once at the most. -/
structure Balanced (t : Tracker α) (IsNew : Nat → Prop) (P S : IdSet) (D : List Nat) : Prop where
  before : ∀ id ∈ P, id ∈ S
  stored : ∀ id ∈ S, id ∈ P ∨ id ∈ D
  kept : ∀ id ∈ D, id ∈ S ∨ t.Owes id
  owed : ∀ id, t.Owes id → id ∈ D
  nodup : D.Nodup
  new : ∀ id ∈ D, IsNew id
  undriven : ∀ id ∈ t.undriven, IsNew id ∧ id ∉ D

theorem balanced_ofArea {area : Area α} {ranks : Nat → Nat}
    (hnew : ∀ id ∈ (ofArea area ranks).undriven, IsNew id) :
    (ofArea area ranks).Balanced IsNew P P [] where
  before _ := id
  stored _ := .inl
  kept := by simp
  owed id h := absurd h (not_owes_ofArea area ranks id)
  nodup := .nil
  new := by simp
  undriven id hid := ⟨hnew id hid, by simp⟩

theorem Balanced.congr (h : t.Balanced IsNew P S D)
    (howes : ∀ id, t'.Owes id ↔ t.Owes id) (hundriven : t'.undriven = t.undriven) :
    t'.Balanced IsNew P S D := by
  refine ⟨h.before, h.stored, fun id hid => ?_, fun id hid => ?_, h.nodup, h.new, ?_⟩
  · rw [howes]
    exact h.kept id hid
  · exact h.owed id ((howes id).1 hid)
  · rw [hundriven]
    exact h.undriven

theorem Flushed.owes {effects : List (Effect α)} (h : t.Flushed t' effects) (id : Nat) :
    t'.Owes id ↔ t.Owes id := by
  cases h with
  | idle => exact .rfl
  | begun hb => exact owes_beginFlush hb id

theorem Flushed.drivenIds {effects : List (Effect α)} (h : t.Flushed t' effects) :
    effects.flatMap drivenIds = [] := by
  cases h <;> rfl

theorem Flushed.not_last {effects : List (Effect α)} (h : t.Flushed t' effects) (batch : Batch) :
    Effect.persist batch true ∉ effects := by
  cases h <;> simp

theorem Balanced.flushed {effects : List (Effect α)} (h : t.Balanced IsNew P S D)
    (hflushed : t.Flushed t' effects) : t'.Balanced IsNew P S D :=
  h.congr hflushed.owes hflushed.coversAlike.undriven

/-- What is in flight may be given up when it has been stored. -/
theorem Balanced.completed (h : t.Balanced IsNew P S D)
    (hstored : ∀ ids, t.inFlight = some ids → ∀ id ∈ ids, id ∈ S) :
    (t.completeFlush true).2.Balanced IsNew P S D := by
  have howes := t.owes_completeFlush_true
  refine ⟨h.before, h.stored, fun id hid => ?_, fun id hid => ?_, h.nodup, h.new, ?_⟩
  · rw [howes]
    rcases h.kept id hid with hid | hid | ⟨ids, hflight, hmem⟩
    · exact .inl hid
    · exact .inr hid
    · exact .inl (hstored ids hflight id hmem)
  · exact h.owed id (.inl ((howes id).1 hid))
  · rw [(t.coversAlike_completeFlush true).undriven]
    exact h.undriven

/-- Segments that are touched by a position are new, and so far none of them was made driven. -/
theorem Balanced.observed [Scalar α] [Geodesy α] {rules : Config.Coverage α} {p : Point α}
    {hits : IdSet} (h : t.Balanced IsNew P S D)
    (hob : t.observe rules p = (hits, t')) :
    t'.Balanced IsNew P S (D ++ hits.toList) := by
  have howes := owes_observe hob
  have hundriven : ∀ id, id ∈ t'.undriven ↔ id ∈ t.undriven ∧ id ∉ hits := by
    cases hob
    exact fun id => IdSet.mem_diff
  have hhits : ∀ id ∈ hits.toList, IsNew id ∧ id ∉ D := by
    cases hob
    exact fun id hid => h.undriven id (IdSet.mem_filter.1 hid).1
  refine ⟨h.before, fun id hid => ?_, fun id hid => ?_, fun id hid => ?_, ?_, ?_, fun id hid => ?_⟩
  · exact (h.stored id hid).imp_right (List.mem_append_left _)
  · rw [howes]
    rcases List.mem_append.1 hid with hid | hid
    · exact (h.kept id hid).imp_right .inl
    · exact .inr (.inr hid)
  · rcases (howes id).1 hid with hid | hid
    · exact List.mem_append_left _ (h.owed id hid)
    · exact List.mem_append_right _ hid
  · exact List.nodup_append.2 ⟨h.nodup, hits.nodup, fun a ha b hb hab => (hhits b hb).2 (hab ▸ ha)⟩
  · exact List.forall_mem_append.2 ⟨h.new, fun id hid => (hhits id hid).1⟩
  · obtain ⟨hid, hno⟩ := (hundriven id).1 hid
    obtain ⟨hnew, hdriven⟩ := h.undriven id hid
    exact ⟨hnew, by simp [hdriven, ← IdSet.mem_def, hno]⟩

/-- Storing what was made driven leaves the rest as it is. -/
theorem Balanced.store {ids : List Nat} (h : t.Balanced IsNew P S D)
    (hids : ∀ id ∈ ids, id ∈ D) (hstored : ∀ id, id ∈ S' ↔ id ∈ S ∨ id ∈ ids) :
    t.Balanced IsNew P S' D := by
  refine ⟨fun id hid => ?_, fun id hid => ?_, fun id hid => ?_, h.owed, h.nodup, h.new, h.undriven⟩
  · exact (hstored id).2 (.inl (h.before id hid))
  · rcases (hstored id).1 hid with hid | hid
    · exact h.stored id hid
    · exact .inr (hids id hid)
  · exact (h.kept id hid).imp_left fun hid => (hstored id).2 (.inl hid)

/-- A batch is in flight just while it waits to be stored, or to be reported as stored. -/
inductive Awaits (t : Tracker α) (S : IdSet) : List Batch → List (String × Bool) → Prop
  | nothing (h : t.inFlight = none) : t.Awaits S [] []
  | storing {ids : IdSet} (h : t.inFlight = some ids) : t.Awaits S [t.batch ids] []
  | report {ids : IdSet} (h : t.inFlight = some ids) (hstored : ∀ id ∈ ids, id ∈ S) :
    t.Awaits S [] [(t.area, true)]

theorem Awaits.perm {batches' : List Batch} (h : t.Awaits S batches outcomes)
    (hperm : batches.Perm batches') : t.Awaits S batches' outcomes := by
  cases h with
  | nothing hflight =>
    rw [List.nil_perm.1 hperm]
    exact .nothing hflight
  | storing hflight =>
    rw [← List.singleton_perm.1 hperm]
    exact .storing hflight
  | report hflight hids =>
    rw [List.nil_perm.1 hperm]
    exact .report hflight hids

theorem Awaits.flushed {effects : List (Effect α)} (h : t.Awaits S batches outcomes)
    (hflushed : t.Flushed t' effects) :
    t'.Awaits S (batches ++ effects.flatMap handedOut) outcomes := by
  cases hflushed with
  | idle => rwa [List.flatMap_nil, List.append_nil]
  | begun hb =>
    obtain ⟨hfree, -, rfl, rfl⟩ := beginFlush_eq_some.1 hb
    cases h with
    | nothing => exact .storing rfl
    | storing hflight => cases hfree.symm.trans hflight
    | report hflight => cases hfree.symm.trans hflight

/-- The batch that is stored next is the one in flight. -/
theorem Awaits.next {batch : Batch} (h : t.Awaits S (batch :: batches) outcomes) :
    batches = [] ∧ outcomes = [] ∧ ∃ ids, t.inFlight = some ids ∧ batch = t.batch ids := by
  cases h with
  | storing hflight => exact ⟨rfl, rfl, _, hflight, rfl⟩

/-- An outcome that is reported is the success of storing the batch in flight. -/
theorem Awaits.reported {outcome : String × Bool}
    (h : t.Awaits S batches (outcome :: outcomes)) :
    outcome = (t.area, true) ∧ batches = [] ∧ outcomes = []
      ∧ ∃ ids, t.inFlight = some ids ∧ ∀ id ∈ ids, id ∈ S := by
  cases h with
  | report hflight hids => exact ⟨rfl, rfl, rfl, _, hflight, hids⟩

variable [Scalar α] [Geodesy α]

theorem Awaits.observed {rules : Config.Coverage α} {p : Point α} {hits : IdSet}
    (h : t.Awaits S batches outcomes) (hob : t.observe rules p = (hits, t')) :
    t'.area = t.area ∧ t'.Awaits S batches outcomes := by
  cases hob
  refine ⟨rfl, ?_⟩
  cases h with
  | nothing hflight => exact .nothing hflight
  | storing hflight => exact .storing hflight
  | report hflight hids => exact .report hflight hids

omit [Geodesy α] in
theorem outcome?_of_surveyed? {config : Config α} {a : Answer α} {p : Point α}
    (h : a.surveyed? config = some p) : a.event.outcome? = none := by
  unfold Answer.surveyed? at h
  split at h
  · rename_i hevent _
    rw [hevent]
    rfl
  · cases h

/-- While the area stays loaded no batch is a last one. -/
theorem Answered.not_last {t₁ : Tracker α} {config : Config α} {a : Answer α}
    {effects new : List (Effect α)} (hflushed : t.Flushed t₁ effects)
    (hanswered : t₁.Answered config a t' new) (batch : Batch) :
    Effect.persist batch true ∉ effects ++ new := by
  have hnew : Effect.persist batch true ∉ new := by cases hanswered <;> simp
  exact List.mem_append.not.2 (not_or.2 ⟨hflushed.not_last batch, hnew⟩)

/-- An event keeps the balance and takes the outcome that it reports from those awaited. -/
theorem Balanced.answered {config : Config α} {a : Answer α} {effects : List (Effect α)}
    (h : t.Balanced IsNew P S D)
    (hawaits : t.Awaits S batches (a.event.outcome?.toList ++ outcomes))
    (hanswered : t.Answered config a t' effects) :
    t'.area = t.area ∧ t'.Balanced IsNew P S (D ++ effects.flatMap drivenIds)
      ∧ t'.Awaits S (batches ++ effects.flatMap handedOut) outcomes := by
  cases hanswered with
  | quiet _ hevent =>
    have hnone : a.event.outcome? = none := by
      rcases houtcome : a.event.outcome? with _ | outcome
      · rfl
      · rw [houtcome] at hawaits
        obtain ⟨rfl, -⟩ := hawaits.reported
        cases hkind : a.event <;> rw [hkind] at houtcome <;> cases houtcome
        exact absurd hkind (hevent true)
    rw [hnone] at hawaits
    simpa using And.intro h hawaits
  | @completed success hevent =>
    rw [hevent] at hawaits
    obtain ⟨houtcome, rfl, rfl, ids, hflight, hids⟩ := hawaits.reported
    obtain rfl : success = true := congrArg Prod.snd houtcome
    refine ⟨(t.coversAlike_completeFlush true).area, ?_, .nothing ?_⟩
    · rw [List.flatMap_nil, List.append_nil]
      refine h.completed fun ids' hflight' => ?_
      obtain rfl := Option.some.inj (hflight.symm.trans hflight')
      exact hids
    · simp only [completeFlush, hflight, if_true]
  | missed hp =>
    rw [outcome?_of_surveyed? hp] at hawaits
    simpa using And.intro h hawaits
  | observed hp hob =>
    rw [outcome?_of_surveyed? hp] at hawaits
    obtain ⟨harea, hawaits'⟩ := hawaits.observed hob
    refine ⟨harea, ?_, ?_⟩
    · simpa [drivenIds] using h.observed hob
    · simpa [handedOut] using hawaits'

end Tracker

end Roadbook

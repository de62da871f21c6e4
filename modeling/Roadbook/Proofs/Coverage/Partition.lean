import Roadbook.Proofs.Coverage.Tracker
import Roadbook.Proofs.Guidance.Run

/-!
# Driven and undriven segments

A tracker takes the segments of its area as they come, so a number that is given as driven by one
of them and as undriven by another (`Area.IsContested`) is in both sets until the tracker's driver
comes near it, and is then said to be newly driven although it was driven. Nothing else goes wrong:
in any state that an area comes to (`Tracker.Comes`) the two sets make up what is tracked, and they
have nothing but contested numbers in common. They part it just if no number is contested
(`Tracker.partitions_iff`).
-/

namespace Roadbook

variable {α : Type}

/-- A number is given as driven and as undriven. -/
def Area.IsContested (area : Area α) (id : Nat) : Prop := area.Gives id true ∧ area.Gives id false

namespace Tracker

section Account

/-- Which segments of an area are driven: those given as such, and those no longer undriven. -/
structure Sorts (area : Area α) (t : Tracker α) : Prop where
  given : ∀ id ∈ t.undriven, area.Gives id false
  driven : ∀ id, id ∈ t.driven ↔ area.Gives id true ∨ (area.Gives id false ∧ id ∉ t.undriven)
  tracked : ∀ id, (t.track? id).isSome = true ↔ area.Gives id true ∨ area.Gives id false

variable {area : Area α} {t tracker : Tracker α}

theorem sorts_ofArea (area : Area α) (ranks : Nat → Nat) : (ofArea area ranks).Sorts area := by
  refine ⟨fun id => mem_undriven_ofArea.1, fun id => ?_, fun id => ?_⟩
  · rw [mem_driven_ofArea, mem_undriven_ofArea, and_not_self_iff, or_false]
  · rw [track?_ofArea]
    exact isSome_track?_gather

theorem Sorts.congr (h : t.Sorts area) (halike : tracker.CoversAlike t) : tracker.Sorts area := by
  obtain ⟨hgiven, hsorted, htracked⟩ := h
  refine ⟨?_, ?_, ?_⟩
  · rwa [halike.undriven]
  · rwa [halike.driven, halike.undriven]
  · intro id
    rw [isSome_track?, halike.tracks, ← isSome_track?]
    exact htracked id

/-- What is tracked is driven or undriven, and nothing else is. -/
theorem Sorts.union (h : t.Sorts area) (id : Nat) :
    id ∈ t.driven ∨ id ∈ t.undriven ↔ (t.track? id).isSome = true := by
  rw [h.driven, h.tracked]
  constructor
  · rintro ((htrue | ⟨hfalse, -⟩) | hid)
    · exact .inl htrue
    · exact .inr hfalse
    · exact .inr (h.given id hid)
  · rintro (htrue | hfalse)
    · exact .inl (.inl htrue)
    · by_cases hid : id ∈ t.undriven
      · exact .inr hid
      · exact .inl (.inr ⟨hfalse, hid⟩)

/-- An undriven segment is driven as well just if its number is contested. -/
theorem Sorts.overlap (h : t.Sorts area) {id : Nat} (hid : id ∈ t.undriven) :
    id ∈ t.driven ↔ area.IsContested id := by
  rw [h.driven, or_iff_left (fun hno => hno.2 hid)]
  exact ⟨fun htrue => ⟨htrue, h.given id hid⟩, And.left⟩

end Account

variable [Scalar α] [Geodesy α] {rules : Config.Coverage α} {area : Area α} {t tracker : Tracker α}

/-- The trackers that an area can come to. -/
inductive Comes (rules : Config.Coverage α) (area : Area α) : Tracker α → Prop
  | ofArea (ranks : Nat → Nat) : Comes rules area (ofArea area ranks)
  | observe {t tracker : Tracker α} {p : Point α} {hits : IdSet} :
    Comes rules area t → t.observation? rules p = some (hits, tracker) → Comes rules area tracker
  | beginFlush {t : Tracker α} : Comes rules area t → Comes rules area t.beginFlush.2
  | completeFlush {t : Tracker α} (success : Bool) :
    Comes rules area t → Comes rules area (t.completeFlush success).2
  | drain {t : Tracker α} : Comes rules area t → Comes rules area t.drain.2

theorem mem_undriven_of_hits {p : Point α} {hits : IdSet}
    (hob : t.observation? rules p = some (hits, tracker)) {id : Nat} (hid : id ∈ hits) :
    id ∈ t.undriven := by
  cases observation?_eq_some hob
  exact (IdSet.mem_filter.1 hid).1

theorem Sorts.observe (h : t.Sorts area) {p : Point α} {hits : IdSet}
    (hob : t.observation? rules p = some (hits, tracker)) : tracker.Sorts area := by
  have hhits : ∀ id ∈ hits, id ∈ t.undriven := fun id => mem_undriven_of_hits hob
  cases observation?_eq_some hob
  refine ⟨fun id hid => h.given id (IdSet.mem_diff.1 hid).1, fun id => ?_, h.tracked⟩
  simp only [IdSet.mem_union, IdSet.mem_diff, h.driven id, not_and_or, not_not]
  constructor
  · rintro ((htrue | ⟨hfalse, hno⟩) | hid)
    · exact .inl htrue
    · exact .inr ⟨hfalse, .inl hno⟩
    · exact .inr ⟨h.given id (hhits id hid), .inr hid⟩
  · rintro (htrue | ⟨hfalse, hno | hid⟩)
    · exact .inl (.inl htrue)
    · exact .inl (.inr ⟨hfalse, hno⟩)
    · exact .inr hid

theorem Comes.sorts (h : Comes rules area t) : t.Sorts area := by
  induction h with
  | ofArea ranks => exact sorts_ofArea area ranks
  | observe _ hob ih => exact ih.observe hob
  | @beginFlush t _ ih => exact ih.congr t.coversAlike_beginFlush
  | @completeFlush t success _ ih => exact ih.congr (t.coversAlike_completeFlush success)
  | @drain t _ ih => exact ih.congr t.coversAlike_drain

/-- Driven and undriven segments part what is tracked, and what a position makes driven was not. -/
structure Partitions (rules : Config.Coverage α) (t : Tracker α) : Prop where
  apart : ∀ id ∈ t.driven, id ∉ t.undriven
  union : ∀ id, id ∈ t.driven ∨ id ∈ t.undriven ↔ (t.track? id).isSome = true
  new : ∀ p hits tracker, t.observation? rules p = some (hits, tracker) → ∀ id ∈ hits, id ∉ t.driven

/-- In every state the two sets make up what is tracked, and of the undriven segments, among them
those that a position makes driven, the contested ones and no others are driven already. So they
part it in all states just if no number is contested. -/
theorem partitions_iff (rules : Config.Coverage α) (area : Area α) :
    (∀ t, Comes rules area t →
      (∀ id, id ∈ t.driven ∨ id ∈ t.undriven ↔ (t.track? id).isSome = true)
      ∧ (∀ id ∈ t.undriven, id ∈ t.driven ↔ area.IsContested id)
      ∧ ∀ p hits tracker, t.observation? rules p = some (hits, tracker) →
          ∀ id ∈ hits, id ∈ t.driven ↔ area.IsContested id)
    ∧ ((∀ t, Comes rules area t → t.Partitions rules) ↔ ∀ id, ¬ area.IsContested id) := by
  have hoverlap : ∀ t, Comes rules area t → ∀ id ∈ t.undriven,
      (id ∈ t.driven ↔ area.IsContested id) := fun t ht id => ht.sorts.overlap
  refine ⟨fun t ht => ⟨ht.sorts.union, hoverlap t ht, fun p hits tracker hob id hid => ?_⟩,
    fun h id hcontested => ?_, fun hnone t ht => ⟨fun id hdriven hid => ?_, ht.sorts.union,
      fun p hits tracker hob id hid hdriven => ?_⟩⟩
  · exact hoverlap t ht id (mem_undriven_of_hits hob hid)
  · have hdriven : id ∈ (Tracker.ofArea area).driven := mem_driven_ofArea.2 hcontested.1
    exact (h _ (.ofArea _)).apart id hdriven (mem_undriven_ofArea.2 hcontested.2)
  · exact hnone id ((hoverlap t ht id hid).1 hdriven)
  · exact hnone id ((hoverlap t ht id (mem_undriven_of_hits hob hid)).1 hdriven)

end Tracker

/-- An area whose only segment is given a second time, driven at first and undriven then. -/
def Trial.twice : Area ℚ where
  name := "twice"
  route := [place 0, place 10]
  segments :=
    [⟨1, [place 0, place 1], 111, true, false⟩, ⟨1, [place 0, place 1], 111, false, false⟩]
  baseline := 0

/-- A segment given twice is driven and undriven, and a position makes it driven once more. -/
theorem Tracker.partitions_fails_twice :
    1 ∈ (Tracker.ofArea Trial.twice).driven ∧ 1 ∈ (Tracker.ofArea Trial.twice).undriven
      ∧ ((Tracker.ofArea Trial.twice).observation? Config.standard.coverage (Trial.place 0)).map
          (·.1.toList) = some [1]
      ∧ ¬ ∀ t, Tracker.Comes Config.standard.coverage Trial.twice t →
          t.Partitions Config.standard.coverage := by
  have hdriven : 1 ∈ (Tracker.ofArea Trial.twice).driven := by decide +kernel
  have hundriven : 1 ∈ (Tracker.ofArea Trial.twice).undriven := by decide +kernel
  refine ⟨hdriven, hundriven, by decide +kernel, fun h => ?_⟩
  exact (h _ (.ofArea _)).apart 1 hdriven hundriven

end Roadbook

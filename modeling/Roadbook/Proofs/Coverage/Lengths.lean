import Mathlib.Algebra.BigOperators.Group.Finset.Basic
import Roadbook.Proofs.Coverage.Tracker
import Roadbook.Proofs.Number.Exact

/-!
# The length of road that is tracked

What is tracked are the numbers that segments take part under (`Area.tracked`), and the road under a
number is that of the last such segment (`Area.meters`): a tracker keeps its track in place of the
ones before (`Tracker.length_track?_gather`). In exact numbers the two lengths that a tracker adds
up, one over its tracks and one over the driven segments, are sums over numbers of the lengths under
them (`Tracker.length_eq`, `Tracker.drivenLength_eq`).
-/

namespace Roadbook

variable {α : Type}

/-- The segments that take part under a number, in the order in which they are given. -/
def Area.under (area : Area α) (id : Nat) : List (Segment α) :=
  area.segments.filter fun s => s.id = id ∧ s.TakesPart

/-- The numbers that segments take part under. -/
def Area.tracked (area : Area α) : Finset Nat :=
  ((area.segments.filter fun s => s.TakesPart).map (·.id)).toFinset

/-- The length of road under a number. -/
def Area.meters [Zero α] (area : Area α) (id : Nat) : α :=
  ((area.under id).getLast?.map (·.length)).getD 0

theorem Area.mem_tracked {area : Area α} {id : Nat} :
    id ∈ area.tracked ↔ area.Gives id true ∨ area.Gives id false := by
  rw [Area.gives_iff, tracked, List.mem_toFinset, List.mem_map]
  refine exists_congr fun s => ?_
  rw [List.mem_filter, decide_eq_true_eq, and_assoc, and_comm (b := s.id = id)]

theorem Track.length_ofSegment? {s : Segment α} (h : s.TakesPart) :
    (Track.ofSegment? s).map (·.length) = some s.length := by
  obtain ⟨hdriveable, hline⟩ := h
  unfold ofSegment?
  rw [hdriveable]
  cases hpoints : s.line with
  | nil => exact absurd hpoints hline
  | cons p ps => rfl

namespace Tracker

theorem length_track?_gather (area : Area α) (id : Nat) :
    ((gather area).track? id).map (·.length) = (area.under id).getLast?.map (·.length) := by
  unfold gather Area.under
  induction area.segments using List.reverseRecOn with
  | nil => rfl
  | append_singleton segments s ih =>
    rw [List.foldl_concat, track?_add, List.filter_append]
    by_cases hs : s.id = id ∧ s.TakesPart
    · rw [if_pos hs, List.filter_singleton, decide_eq_true hs, Track.length_ofSegment? hs.2]
      simp
    · rw [if_neg hs, ih, List.filter_singleton, decide_eq_false hs]
      simp

/-- The road under a number is as long as its track. -/
theorem meters_eq [Zero α] {area : Area α} {t : Tracker α}
    (htracks : t.tracks.Perm (gather area).tracks) (id : Nat) :
    area.meters id = ((t.track? id).map (·.length)).getD 0 := by
  unfold Area.meters
  rw [← length_track?_gather, track?_of_perm (nodup_keys_gather area) htracks]

theorem sum_lengths [AddMonoid α] {area : Area α} {t : Tracker α}
    (htracks : t.tracks.Perm (gather area).tracks) : ∀ ids : List Nat,
    ((ids.filterMap t.track?).map (·.length)).sum = (ids.map area.meters).sum
  | [] => rfl
  | id :: ids => by
    rw [List.map_cons, List.sum_cons, ← sum_lengths htracks ids, meters_eq htracks]
    cases htrack : t.track? id <;> simp [htrack]

end Tracker

section Sums

variable {K : Type} [Field K] [LinearOrder K] [FloorRing K]

attribute [local instance] Scalar.exact

open Finset

namespace Tracker

variable {area : Area K} {t : Tracker K}

theorem length_eq (htracks : t.tracks.Perm (gather area).tracks) :
    t.length = ∑ id ∈ area.tracked, area.meters id := by
  have hgathered := nodup_keys_gather area
  have hnodup : (t.tracks.map (·.1)).Nodup := (htracks.map _).nodup_iff.2 hgathered
  have hkeys : area.tracked = (t.tracks.map (·.1)).toFinset := by
    ext id
    rw [Area.mem_tracked, ← isSome_track?_gather, ← track?_of_perm hgathered htracks,
      isSome_track?, List.mem_toFinset]
  have hlengths : t.tracks.map (·.2.length) = (t.tracks.map (·.1)).map area.meters := by
    rw [List.map_map]
    refine List.map_congr_left fun entry hentry => ?_
    rw [Function.comp_apply, meters_eq htracks, (track?_eq_some hnodup).2 hentry]
    rfl
  rw [hkeys, List.sum_toFinset _ hnodup, ← hlengths]
  exact Scalar.exact_sum _

theorem drivenLength_eq (htracks : t.tracks.Perm (gather area).tracks)
    (hdriven : ∀ id ∈ t.driven, id ∈ area.tracked) :
    t.drivenLength = ∑ id ∈ area.tracked with id ∈ t.driven, area.meters id := by
  have hset : area.tracked.filter (· ∈ t.driven) = t.driven.toList.toFinset := by
    ext id
    rw [mem_filter, List.mem_toFinset, ← IdSet.mem_def]
    exact and_iff_right_of_imp (hdriven id)
  rw [hset, List.sum_toFinset _ t.driven.nodup, ← sum_lengths htracks]
  exact Scalar.exact_sum _

end Tracker

end Sums

end Roadbook

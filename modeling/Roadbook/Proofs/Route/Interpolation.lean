import Roadbook.Proofs.Route.Tables

/-!
# From distances back to points

Where legs without length lead nowhere (`Route.IsTaut`), the point at a distance along the route is
that of every leg which the distance lies on (`Route.IsLaid.pointAt_on`): within a leg no other leg
is found at the distance, and between legs those that are found meet in the same point. So a place
found on a leg leads back to its foot (`Route.IsLaid.pointAt_locate`).
-/

namespace Roadbook

/-- A leg without length ends where it starts. -/
def Route.IsTaut {K : Type} [Zero K] (route : Route K) : Prop :=
  ∀ leg ∈ route.legs, leg.length = 0 → leg.start = leg.finish

variable {K : Type} [Field K] [LinearOrder K] [FloorRing K]

attribute [local instance] Scalar.exact

variable [Geodesy K]

namespace Route

variable {route : Route K} {i : Nat} {leg next : Leg K} {p : Point K}

omit [Geodesy K] in
theorem clamp_of_mem {d : K} (hd : d ∈ Set.Icc 0 route.total) : route.clamp d = d := by
  unfold clamp
  rw [Scalar.exact_zero]
  exact Scalar.exact_clamp_of_mem hd

omit [Geodesy K] in
theorem pointAt_of_nonpos {d : K} (hd : d ∈ Set.Icc 0 route.total) (hhere : route.legAt d = leg)
    (hlength : leg.length ≤ 0) : route.pointAt d = leg.start := by
  unfold pointAt
  dsimp only
  rw [clamp_of_mem hd, hhere, Scalar.exact_zero, if_pos hlength]

omit [Geodesy K] in
/-- On the leg at a distance that has a length, the point lies as far along as the distance does. -/
theorem pointAt_of_pos {d t : K} (hd : d ∈ Set.Icc 0 route.total) (hhere : route.legAt d = leg)
    (hlength : 0 < leg.length) (ht : t ∈ Set.Icc 0 1) (heq : d = leg.along + t * leg.length) :
    route.pointAt d = leg.start.between leg.finish t := by
  have hfraction : (d - leg.along) / leg.length = t := by
    rw [heq, add_sub_cancel_left, mul_div_cancel_right₀ t hlength.ne']
  unfold pointAt
  dsimp only
  rw [clamp_of_mem hd, hhere, Scalar.exact_zero, Scalar.exact_one, if_neg hlength.not_ge,
    hfraction, Scalar.exact_clamp_of_mem ht]

namespace IsLaid

variable [IsStrictOrderedRing K] (h : route.IsLaid) (hjoined : route.IsJoined)
  (htaut : route.IsTaut) (hground : ∀ a b : Point K, 0 ≤ Geodesy.distance a b)

include h hjoined htaut hground

/-- Legs that start at the same distance start at the same point. -/
theorem start_eq_of_along_le : ∀ {n i : Nat} {leg : Leg K}, route.legs[i]? = some leg →
    route.legs[i + n]? = some next → next.along ≤ leg.along → next.start = leg.start
  | 0, i, leg, hleg, hnext, _ => by
    rw [Nat.add_zero, hleg] at hnext
    rw [Option.some.inj hnext]
  | n + 1, i, leg, hleg, hnext, hle => by
    have hlt : i + 1 < route.legs.length := by
      have hin := (List.getElem?_eq_some_iff.1 hnext).1
      omega
    have hmid := List.getElem?_eq_getElem hlt
    rw [← Nat.add_assoc, Nat.add_right_comm] at hnext
    have hlength := h.length_nonneg hground (List.mem_of_getElem? hleg)
    have hend : leg.along + leg.length ≤ route.legs[i + 1].along :=
      h.alongEnd_le hground hleg hmid (Nat.lt_succ_self i)
    have hmono : route.legs[i + 1].along ≤ next.along :=
      h.along_le hground hmid hnext (Nat.le_add_right _ _)
    have hnone : leg.length = 0 := by linarith
    rw [start_eq_of_along_le hmid hnext (by linarith), htaut leg (List.mem_of_getElem? hleg) hnone]
    exact Option.some.inj ((hjoined.points_getElem? hmid).symm.trans (points_succ hleg))

theorem pointAt_start (hleg : route.legs[i]? = some leg) :
    route.pointAt leg.along = leg.start := by
  have hd := h.distances_mem hground (List.mem_of_getElem? (distances_getElem? hleg))
  have hhere := h.legs_index_legAt leg.along
  have hindex := h.le_index_legAt hground hleg le_rfl
  have hle := h.along_legAt_le hground hd.1
  have hmono := h.along_le hground hleg hhere hindex
  obtain ⟨n, hn⟩ := Nat.exists_eq_add_of_le hindex
  have hstart : (route.legAt leg.along).start = leg.start :=
    h.start_eq_of_along_le hjoined htaut hground hleg (hn ▸ hhere) hle
  rcases (h.length_nonneg hground (List.mem_of_getElem? hhere)).eq_or_lt with hnone | hpos
  · rw [pointAt_of_nonpos hd rfl hnone.ge, hstart]
  · rw [pointAt_of_pos hd rfl hpos ⟨le_rfl, zero_le_one⟩ (by linarith), Point.between_zero, hstart]

/-- The point at a distance on a leg lies as far along the leg. -/
theorem pointAt_on (hleg : route.legs[i]? = some leg) {t : K} (ht : t ∈ Set.Icc 0 1) :
    route.pointAt (leg.along + t * leg.length) = leg.start.between leg.finish t := by
  have hmem := List.mem_of_getElem? hleg
  rcases (h.length_nonneg hground hmem).eq_or_lt with hnone | hpos
  · rw [← hnone, mul_zero, add_zero, h.pointAt_start hjoined htaut hground hleg,
      ← htaut leg hmem hnone.symm, Point.between_self]
  have hstart : leg.along ≤ leg.along + t * leg.length :=
    le_add_of_nonneg_right (mul_nonneg ht.1 hpos.le)
  have hend : leg.along + t * leg.length ≤ leg.alongEnd :=
    add_le_add_right (mul_le_of_le_one_left hpos.le ht.2) leg.along
  have hd : leg.along + t * leg.length ∈ Set.Icc 0 route.total :=
    ⟨(h.distances_mem hground (List.mem_of_getElem? (distances_getElem? hleg))).1.trans hstart,
      hend.trans (h.distances_mem hground (List.mem_of_getElem? (h.distances_succ hleg))).2⟩
  have hhere := h.legs_index_legAt (leg.along + t * leg.length)
  rcases (h.le_index_legAt hground hleg hstart).eq_or_lt with hsame | hlater
  · rw [← hsame, hleg] at hhere
    exact pointAt_of_pos hd (Option.some.inj hhere).symm hpos ht rfl
  · -- a leg further on starts at or before the distance, which is then the end of this one
    have hlt : i + 1 < route.legs.length :=
      Nat.lt_of_le_of_lt hlater (List.getElem?_eq_some_iff.1 hhere).1
    have hnext := List.getElem?_eq_getElem hlt
    have hbefore : leg.along + leg.length ≤ leg.along + t * leg.length :=
      (h.alongEnd_le hground hleg hhere hlater).trans (h.along_legAt_le hground hd.1)
    have hone : t = 1 := by
      have hle : 1 * leg.length ≤ t * leg.length := by linarith
      exact ht.2.antisymm (le_of_mul_le_mul_right hle hpos)
    have hmeet : leg.along + leg.length = route.legs[i + 1].along :=
      Option.some.inj ((h.distances_succ hleg).symm.trans (distances_getElem? hnext))
    rw [hone, one_mul, hmeet, h.pointAt_start hjoined htaut hground hnext, Point.between_one]
    exact Option.some.inj ((hjoined.points_getElem? hnext).symm.trans (points_succ hleg))

/-- The point at the place where a position is found is its foot. -/
theorem pointAt_locate (hleg : leg ∈ route.legs) (p : Point K) :
    route.pointAt (leg.locate p).along = (leg.locate p).foot := by
  obtain ⟨i, hi⟩ := List.mem_iff_getElem?.1 hleg
  exact (h.pointAt_on hjoined htaut hground hi (project_fraction_mem p _ _)).trans
    (project_foot p leg.start leg.finish).symm

/-- The point at the distance of a point of the route is that point. -/
theorem pointAt_distances {q : Point K} {d : K} (hq : route.points[i]? = some q)
    (hd : route.distances[i]? = some d) : route.pointAt d = q := by
  have hlength : route.points.length = route.legs.length + 1 := by simp [points]
  have hi := (List.getElem?_eq_some_iff.1 hq).1
  by_cases hlt : i < route.legs.length
  · have hleg := List.getElem?_eq_getElem hlt
    rw [hjoined.points_getElem? hleg] at hq
    rw [distances_getElem? hleg] at hd
    rw [← Option.some.inj hq, ← Option.some.inj hd]
    exact h.pointAt_start hjoined htaut hground hleg
  · obtain ⟨j, rfl⟩ : ∃ j, i = j + 1 := Nat.exists_eq_add_one_of_ne_zero (by
      have hsome : route.legs.length ≠ 0 := by simp [legs]
      omega)
    have hleg := List.getElem?_eq_getElem (show j < route.legs.length by omega)
    rw [points_succ hleg] at hq
    rw [h.distances_succ hleg] at hd
    have hon := h.pointAt_on hjoined htaut hground hleg (t := 1) ⟨zero_le_one, le_rfl⟩
    rw [one_mul, Point.between_one] at hon
    rw [← Option.some.inj hq, ← Option.some.inj hd]
    exact hon

end IsLaid

omit [Geodesy K] in
/-- The part of the route up to a distance ends at the point there. -/
theorem getLast?_between_zero {d : K} (hd : d ∈ Set.Icc 0 route.total) :
    (route.between 0 d).getLast? = some (route.pointAt d) := by
  have hzero : route.clamp 0 = 0 := clamp_of_mem ⟨le_rfl, hd.1.trans hd.2⟩
  unfold between
  dsimp only
  rw [hzero, clamp_of_mem hd]
  split_ifs with hle
  · rw [hd.1.antisymm hle, List.getLast?_singleton]
  · rw [List.getLast?_append, List.getLast?_singleton]
    rfl

end Route

end Roadbook

import Roadbook.Proofs.Route.Places

/-!
# Looking up a route

The points, distances and lengths of a route are tables with an entry for each leg, and the leg
before it ends where it starts (`Route.isJoined_ofPoints`). The leg at a distance along the route is
found among legs that lie in order: the others start at or before the distance just if they are not
further on (`Route.IsLaid.le_legAt_iff`).
-/

namespace Roadbook

section Lists

variable {β : Type} {P : β → Bool}

theorem getElem?_takeWhile : ∀ (bs : List β) (b : β),
    (b :: bs)[(bs.takeWhile P).length]? = some ((bs.takeWhile P).getLastD b)
  | [], b => rfl
  | c :: bs, b => by
    rw [List.takeWhile_cons]
    split_ifs
    · rw [List.length_cons, List.getElem?_cons_succ, List.getLastD_cons]
      exact getElem?_takeWhile bs c
    · rfl

/-- Where what fails is followed by nothing but failures, all that passes is taken. -/
theorem lt_length_takeWhile_iff : ∀ {bs : List β} {i : Nat} {b : β},
    bs.Pairwise (fun b c => P c = true → P b = true) → bs[i]? = some b →
      (i < (bs.takeWhile P).length ↔ P b = true)
  | [], _, _, _, h => by simp at h
  | c :: bs, i, b, hpairs, h => by
    obtain ⟨hc, hbs⟩ := List.pairwise_cons.1 hpairs
    rw [List.takeWhile_cons]
    cases i with
    | zero =>
      obtain rfl : c = b := by simpa using h
      split_ifs with hpass <;> simp [hpass]
    | succ i =>
      rw [List.getElem?_cons_succ] at h
      split_ifs with hpass
      · rw [List.length_cons, Nat.succ_lt_succ_iff]
        exact lt_length_takeWhile_iff hbs h
      · simpa using fun hb => hpass (hc b (List.mem_of_getElem? h) hb)

end Lists

variable {α : Type} [Scalar α] [Geodesy α]

/-- Each leg starts where the one before it ends. -/
def Route.IsJoined (route : Route α) : Prop :=
  route.points = route.legs.map (·.start) ++ [route.finish]

theorem Leg.points_chain : ∀ {points : List (Point α)} {index : Nat} {along : α} {first : Leg α}
    {rest : List (Leg α)}, chain index along points = first :: rest →
      first.start :: (first :: rest).map (·.finish) = points
        ∧ (first :: rest).map (·.start) ++ [(rest.getLastD first).finish] = points
  | [], _, _, _, _, h => by simp [chain] at h
  | [_], _, _, _, _, h => by simp [chain] at h
  | a :: b :: points, index, along, first, rest, h => by
    rw [chain, List.cons.injEq] at h
    obtain ⟨rfl, hrest⟩ := h
    rcases rest with _ | ⟨second, rest⟩
    · rcases points with _ | ⟨c, points⟩
      · exact ⟨rfl, rfl⟩
      · simp [chain] at hrest
    · obtain ⟨hfinish, hstart⟩ := points_chain hrest
      have hsecond : second.start = b := by
        rw [chain.eq_def] at hrest
        cases points <;> simp at hrest
        exact hrest.1 ▸ rfl
      refine ⟨?_, ?_⟩
      · rw [List.map_cons, ← hfinish, hsecond]
      · rw [List.map_cons, List.cons_append, List.getLastD_cons, hstart]

namespace Route

variable {route : Route α} {i : Nat} {leg : Leg α}

theorem points_ofPoints {rules : Config.Turns α} {points : List (Point α)}
    (h : ofPoints rules points = .ok route) : route.points = points :=
  (Leg.points_chain (legs_ofPoints h)).1

theorem isJoined_ofPoints {rules : Config.Turns α} {points : List (Point α)}
    (h : ofPoints rules points = .ok route) : route.IsJoined :=
  (points_ofPoints h).trans (Leg.points_chain (legs_ofPoints h)).2.symm

omit [Scalar α] [Geodesy α] in
theorem IsJoined.points_getElem? (h : route.IsJoined) (hleg : route.legs[i]? = some leg) :
    route.points[i]? = some leg.start := by
  rw [h, List.getElem?_append_left, List.getElem?_map, hleg]
  · rfl
  · rw [List.length_map]
    exact (List.getElem?_eq_some_iff.1 hleg).1

omit [Scalar α] [Geodesy α] in
theorem points_succ (hleg : route.legs[i]? = some leg) :
    route.points[i + 1]? = some leg.finish := by
  rw [points, List.getElem?_cons_succ, List.getElem?_map, hleg]
  rfl

omit [Scalar α] [Geodesy α] in
theorem lengths_getElem? (hleg : route.legs[i]? = some leg) :
    route.lengths[i]? = some leg.length := by
  rw [lengths, List.getElem?_map, hleg]
  rfl

omit [Geodesy α] in
/-- The leg at a distance comes after the legs that are passed over on the way there. -/
theorem legs_legAt (route : Route α) (d : α) :
    route.legs[(route.rest.takeWhile fun l => decide (l.along ≤ d)).length]?
      = some (route.legAt d) :=
  getElem?_takeWhile route.rest route.first

namespace IsLaid

variable (h : route.IsLaid)

include h

theorem legs_index_legAt (d : α) :
    route.legs[(route.legAt d).index]? = some (route.legAt d) := by
  rw [h.numbered _ _ (route.legs_legAt d)]
  exact route.legs_legAt d

theorem distances_zero : route.distances[0]? = some 0 := by
  rw [h.joined]
  rfl

end IsLaid

end Route

section Exact

variable {K : Type} [Field K] [LinearOrder K] [FloorRing K] [IsStrictOrderedRing K] [Geodesy K]

attribute [local instance] Scalar.exact

namespace Route.IsLaid

variable {route : Route K} {i j : Nat} {leg next : Leg K} (h : route.IsLaid)
  (hground : ∀ a b : Point K, 0 ≤ Geodesy.distance a b)

include h hground

theorem pairwise_along : route.legs.Pairwise fun l m => l.along ≤ m.along := by
  have hsorted := h.pairwise_distances hground
  rw [distances, List.pairwise_append, List.pairwise_map] at hsorted
  exact hsorted.1

theorem along_le (hleg : route.legs[i]? = some leg) (hnext : route.legs[j]? = some next)
    (hij : i ≤ j) : leg.along ≤ next.along := by
  obtain ⟨hi, rfl⟩ := List.getElem?_eq_some_iff.1 hleg
  obtain ⟨hj, rfl⟩ := List.getElem?_eq_some_iff.1 hnext
  rcases hij.lt_or_eq with hlt | rfl
  · exact List.pairwise_iff_getElem.1 (h.pairwise_along hground) i j hi hj hlt
  · rfl

theorem alongEnd_le (hleg : route.legs[i]? = some leg) (hnext : route.legs[j]? = some next)
    (hij : i < j) : leg.alongEnd ≤ next.along := by
  have hsorted := h.pairwise_distances hground
  obtain ⟨hi, hend⟩ := List.getElem?_eq_some_iff.1 (h.distances_succ hleg)
  obtain ⟨hj, hstart⟩ := List.getElem?_eq_some_iff.1 (distances_getElem? hnext)
  rw [← hend, ← hstart]
  rcases Nat.lt_or_eq_of_le (Nat.succ_le_of_lt hij) with hlt | rfl
  · exact List.pairwise_iff_getElem.1 hsorted _ _ hi hj hlt
  · rfl

/-- A leg after the first is not further on than the leg at a distance just if it starts at or
before that distance. -/
theorem le_legAt_iff {d : K} (hleg : route.legs[i]? = some leg) (hi : 0 < i) :
    i ≤ (route.legAt d).index ↔ leg.along ≤ d := by
  obtain ⟨i, rfl⟩ := Nat.exists_eq_succ_of_ne_zero hi.ne'
  rw [h.numbered _ _ (route.legs_legAt d), Nat.succ_le_iff]
  rw [legs, List.getElem?_cons_succ] at hleg
  have hpairs : route.rest.Pairwise
      fun l m => decide (m.along ≤ d) = true → decide (l.along ≤ d) = true := by
    refine (List.pairwise_cons.1 (h.pairwise_along hground)).2.imp fun hle hpass => ?_
    exact decide_eq_true (hle.trans (of_decide_eq_true hpass))
  rw [lt_length_takeWhile_iff hpairs hleg, decide_eq_true_eq]

theorem le_index_legAt {d : K} (hleg : route.legs[i]? = some leg) (hle : leg.along ≤ d) :
    i ≤ (route.legAt d).index := by
  rcases Nat.eq_zero_or_pos i with rfl | hpos
  · exact Nat.zero_le _
  · exact (h.le_legAt_iff hground hleg hpos).2 hle

/-- The leg at a distance starts at or before it. -/
theorem along_legAt_le {d : K} (hd : 0 ≤ d) : (route.legAt d).along ≤ d := by
  have hhere := h.legs_index_legAt d
  rcases Nat.eq_zero_or_pos (route.legAt d).index with hzero | hpos
  · have hfirst := distances_getElem? hhere
    rw [hzero, h.distances_zero, Scalar.exact_zero] at hfirst
    exact (Option.some.inj hfirst) ▸ hd
  · exact (h.le_legAt_iff hground hhere hpos).1 le_rfl

end Route.IsLaid

end Exact

namespace Trial

/-- A road north, east and south again, with the point of the first bend given twice. -/
def bends : List (Point ℚ) :=
  [⟨0, 0⟩, ⟨0, 1 / 1000⟩, ⟨0, 1 / 1000⟩, ⟨1 / 1000, 1 / 1000⟩, ⟨1 / 1000, 0⟩]

def bent : Route ℚ where
  first := ⟨0, ⟨0, 0⟩, ⟨0, 1 / 1000⟩, 0, 22239 / 200⟩
  rest :=
    [⟨1, ⟨0, 1 / 1000⟩, ⟨0, 1 / 1000⟩, 22239 / 200, 0⟩,
      ⟨2, ⟨0, 1 / 1000⟩, ⟨1 / 1000, 1 / 1000⟩, 22239 / 200, 22239 / 200⟩,
      ⟨3, ⟨1 / 1000, 1 / 1000⟩, ⟨1 / 1000, 0⟩, 22239 / 100, 22239 / 200⟩]
  maneuvers :=
    [⟨0, 0, .depart, 0⟩, ⟨3, 22239 / 100, .right, 90⟩, ⟨4, 66717 / 200, .arrive, 0⟩]

theorem ofPoints_bends : Route.ofPoints .standard bends = .ok bent := by decide +kernel

end Trial

end Roadbook

import Roadbook.Proofs.Ground.Projection
import Roadbook.Route.Matching

/-!
# Places on a route

A route is laid leg after leg: each bears the number of its place and begins where the one before it
ends (`Route.isLaid_ofPoints`). A position is found on some leg (`Matcher.exists_locate`,
`Route.resume?_eq_some`). So in exact numbers, and with no leg shorter than nothing, it is found
within that leg (`Route.IsLaid.spans_locate`) and between the ends of the route
(`Route.IsLaid.along_mem`).
-/

namespace Roadbook

variable {α : Type} [Scalar α] [Geodesy α]

/-- The legs bear the numbers of their places. -/
def Route.IsNumbered (route : Route α) : Prop :=
  ∀ (i : Nat) (leg : Leg α), route.legs[i]? = some leg → leg.index = i

/-- The legs follow one another from the start, as long as the ground under them. -/
structure Route.IsLaid (route : Route α) : Prop where
  numbered : route.IsNumbered
  joined : route.distances = 0 :: route.legs.map (·.alongEnd)
  measured : ∀ leg ∈ route.legs, leg.length = Geodesy.distance leg.start leg.finish

/-- A match lies within its leg. -/
def Route.Spans (route : Route α) (m : Match α) : Prop :=
  ∃ a b, route.distances[m.leg]? = some a ∧ route.distances[m.leg + 1]? = some b
    ∧ a ≤ m.along ∧ m.along ≤ b

namespace Leg

theorem index_chain : ∀ {points : List (Point α)} {index : Nat} {along : α} {i : Nat}
    {leg : Leg α}, (chain index along points)[i]? = some leg → leg.index = index + i
  | [], _, _, _, _, h => by simp [chain] at h
  | [_], _, _, _, _, h => by simp [chain] at h
  | a :: b :: rest, index, along, 0, leg, h => by
    simp only [chain, List.getElem?_cons_zero, Option.some.injEq] at h
    rw [← h, Nat.add_zero]
  | a :: b :: rest, index, along, i + 1, leg, h => by
    simp only [chain, List.getElem?_cons_succ] at h
    have hindex := index_chain h
    omega

theorem length_chain : ∀ {points : List (Point α)} {index : Nat} {along : α} {leg : Leg α},
    leg ∈ chain index along points → leg.length = Geodesy.distance leg.start leg.finish
  | [], _, _, _, h => by simp [chain] at h
  | [_], _, _, _, h => by simp [chain] at h
  | a :: b :: rest, index, along, leg, h => by
    rw [chain, List.mem_cons] at h
    rcases h with rfl | h
    · rfl
    · exact length_chain h

/-- The legs lead from end to end of the stretches. -/
theorem ends_chain : ∀ (points : List (Point α)) (index : Nat) (along : α),
    (chain index along points).map (fun leg => (leg.start, leg.finish)) = stretches points
  | [], _, _ => rfl
  | [_], _, _ => rfl
  | _ :: b :: rest, _, _ => congrArg _ (ends_chain (b :: rest) _ _)

/-- Where the legs begin and the last one ends is where the first begins and all of them end. -/
theorem along_chain : ∀ {points : List (Point α)} {index : Nat} {along : α} {first : Leg α}
    {rest : List (Leg α)}, chain index along points = first :: rest →
      (first :: rest).map (·.along) ++ [(rest.getLastD first).alongEnd]
        = along :: (first :: rest).map (·.alongEnd)
  | [], _, _, _, _, h => by simp [chain] at h
  | [_], _, _, _, _, h => by simp [chain] at h
  | a :: b :: points, index, along, first, rest, h => by
    rw [chain, List.cons.injEq] at h
    obtain ⟨rfl, hrest⟩ := h
    rcases rest with _ | ⟨second, rest⟩
    · rfl
    · have ih := along_chain hrest
      rw [List.map_cons, List.cons_append, List.getLastD_cons, ih]
      rfl

end Leg

/-- What makes a list of points a route, and what the route is made of. -/
theorem Route.ofPoints_eq_ok_iff {turns : Config.Turns α} {points : List (Point α)}
    {route : Route α} : ofPoints turns points = .ok route
      ↔ Leg.chain 0 0 points = route.first :: route.rest ∧ (∀ p ∈ points, p.IsValid)
        ∧ route.maneuvers = maneuversOf turns route.first route.rest ∧ ¬ route.total ≤ 0 := by
  unfold ofPoints
  constructor
  · intro h
    split at h
    · cases h
    · rename_i first rest hchain
      split at h
      · cases h
      · rename_i hnone
        dsimp only at h
        split_ifs at h with hshort
        obtain rfl := Except.ok.inj h
        refine ⟨hchain, fun p hp => ?_, rfl, hshort⟩
        obtain ⟨i, hi⟩ := List.mem_iff_getElem?.1 hp
        simpa using List.find?_eq_none.1 hnone (p, i) (List.mem_zipIdx_iff_getElem?.2 hi)
  · obtain ⟨first, rest, maneuvers⟩ := route
    rintro ⟨hchain, hvalid, hmaneuvers, hlong⟩
    dsimp only at hchain hmaneuvers
    obtain rfl := hmaneuvers
    rw [hchain]
    dsimp only
    split
    · rename_i p i hfound
      have hbad := List.find?_some hfound
      have hgood := hvalid p (List.fst_mem_of_mem_zipIdx (List.mem_of_find?_eq_some hfound))
      simp [hgood] at hbad
    · exact if_neg hlong

theorem Route.legs_ofPoints {rules : Config.Turns α} {points : List (Point α)} {route : Route α}
    (h : ofPoints rules points = .ok route) : Leg.chain 0 0 points = route.first :: route.rest :=
  (ofPoints_eq_ok_iff.1 h).1

theorem Route.ends_legs {rules : Config.Turns α} {points : List (Point α)} {route : Route α}
    (h : ofPoints rules points = .ok route) :
    route.legs.map (fun leg => (leg.start, leg.finish)) = stretches points := by
  rw [legs, ← legs_ofPoints h]
  exact Leg.ends_chain points 0 0

theorem Route.isLaid_ofPoints {rules : Config.Turns α} {points : List (Point α)} {route : Route α}
    (h : ofPoints rules points = .ok route) : route.IsLaid := by
  have hchain := legs_ofPoints h
  refine ⟨fun i leg hleg => ?_, Leg.along_chain hchain, fun leg hleg => ?_⟩
  · have hindex : leg.index = 0 + i := Leg.index_chain (by rw [hchain]; exact hleg)
    rwa [Nat.zero_add] at hindex
  · rw [legs, ← hchain] at hleg
    exact Leg.length_chain hleg

namespace Route.IsLaid

variable {route : Route α} {i : Nat} {leg : Leg α}

omit [Geodesy α] in
theorem distances_getElem? (hleg : route.legs[i]? = some leg) :
    route.distances[i]? = some leg.along := by
  rw [distances, List.getElem?_append_left, List.getElem?_map, hleg]
  · rfl
  · rw [List.length_map]
    exact (List.getElem?_eq_some_iff.1 hleg).1

theorem distances_succ (h : route.IsLaid) (hleg : route.legs[i]? = some leg) :
    route.distances[i + 1]? = some leg.alongEnd := by
  rw [h.joined, List.getElem?_cons_succ, List.getElem?_map, hleg]
  rfl

end Route.IsLaid

/-- A point to resume at is where the position is found on some leg, ahead and near enough. -/
theorem Route.resume?_eq_some {route : Route α} {p : Point α} {progress radius : α} {m : Match α}
    (h : route.resume? p progress radius = some m) :
    ∃ leg ∈ route.legs, m = leg.locate p ∧ progress < m.along ∧ m.distance ≤ radius := by
  have hmem := Scalar.mem_of_firstBy? h
  rw [List.mem_filter, List.mem_map] at hmem
  obtain ⟨⟨leg, hleg, rfl⟩, hgood⟩ := hmem
  have hgood := of_decide_eq_true hgood
  exact ⟨leg, List.mem_of_mem_drop hleg, rfl, hgood.1, hgood.2⟩

/-- Matches on the legs bear the numbers of their places. -/
theorem Route.IsNumbered.pairwise_locate {route : Route α} (h : route.IsNumbered) (p : Point α) :
    (route.legs.map (·.locate p)).Pairwise (·.leg < ·.leg) := by
  rw [List.pairwise_map, List.pairwise_iff_getElem]
  intro i j hi hj hij
  have hfirst := h i _ (List.getElem?_eq_getElem hi)
  have hsecond := h j _ (List.getElem?_eq_getElem hj)
  show route.legs[i].index < route.legs[j].index
  omega

theorem Match.mem_best? {p : Point α} {legs : List (Leg α)} {m : Match α}
    (h : best? p legs = some m) : ∃ leg ∈ legs, m = leg.locate p := by
  obtain ⟨leg, hleg, heq⟩ := List.mem_map.1 (Scalar.mem_of_firstBy? h)
  exact ⟨leg, hleg, heq.symm⟩

/-- A position is found on some leg. -/
theorem Matcher.exists_locate (m : Matcher) (rules : Config.Matching α) (route : Route α)
    (p : Point α) : ∃ leg ∈ route.legs, (m.locate rules route p).1 = leg.locate p := by
  have hbest : ∃ leg ∈ route.legs, Match.best p route.first route.rest = leg.locate p := by
    unfold Match.best
    rcases hfound : Match.best? p (route.first :: route.rest) with _ | found
    · exact ⟨route.first, List.mem_cons_self, rfl⟩
    · exact Match.mem_best? hfound
  unfold locate
  dsimp only
  rcases hnear : m.nearby? rules route p with _ | found
  · exact hbest
  · simp only [nearby?, Option.bind_eq_bind, Option.bind_eq_some_iff] at hnear
    obtain ⟨cursor, -, found', hfound, hif⟩ := hnear
    split_ifs at hif
    obtain rfl := Option.some.inj hif
    obtain ⟨leg, hleg, heq⟩ := Match.mem_best? hfound
    exact ⟨leg, List.mem_of_mem_take (List.mem_of_mem_drop hleg), heq⟩

section Exact

variable {K : Type} [Field K] [LinearOrder K] [FloorRing K]

attribute [local instance] Scalar.exact

variable {route : Route K} {x : K}

theorem Route.remaining_of_le [IsStrictOrderedRing K] (h : x ≤ route.total) :
    route.remaining x = route.total - x := by
  unfold remaining
  rw [Scalar.exact_max, Scalar.exact_zero]
  exact max_eq_left (sub_nonneg.2 h)

namespace Route.IsLaid

variable [Geodesy K] (h : route.IsLaid) (hground : ∀ a b : Point K, 0 ≤ Geodesy.distance a b)

include h hground

theorem length_nonneg {leg : Leg K} (hleg : leg ∈ route.legs) : 0 ≤ leg.length := by
  rw [h.measured leg hleg]
  exact hground _ _

variable [IsStrictOrderedRing K]

/-- The distances along the route do not decrease. -/
theorem pairwise_distances : route.distances.Pairwise (· ≤ ·) := by
  rw [← List.isChain_iff_pairwise, List.isChain_iff_getElem]
  intro i hi
  have hlt : i < route.legs.length := by simpa [distances] using hi
  have hleg : route.legs[i]? = some route.legs[i] := List.getElem?_eq_getElem hlt
  obtain ⟨_, hthis⟩ := List.getElem?_eq_some_iff.1 (distances_getElem? hleg)
  obtain ⟨_, hnext⟩ := List.getElem?_eq_some_iff.1 (h.distances_succ hleg)
  rw [hthis, hnext]
  exact le_add_of_nonneg_right (h.length_nonneg hground (List.getElem_mem hlt))

theorem distances_mem (hx : x ∈ route.distances) : x ∈ Set.Icc 0 route.total := by
  have hsorted := h.pairwise_distances hground
  constructor
  · rw [h.joined] at hx hsorted
    rcases List.mem_cons.1 hx with rfl | hx
    · exact le_of_eq Scalar.exact_zero.symm
    · exact Scalar.exact_zero.symm.le.trans ((List.pairwise_cons.1 hsorted).1 x hx)
  · rw [distances] at hx hsorted
    rcases List.mem_append.1 hx with hx | hx
    · exact (List.pairwise_append.1 hsorted).2.2 x hx _ (List.mem_singleton_self _)
    · exact (List.mem_singleton.1 hx).le

/-- A position is found between the ends of the leg on which it is looked for. -/
theorem along_locate_mem {leg : Leg K} (hleg : leg ∈ route.legs) (p : Point K) :
    (leg.locate p).along ∈ Set.Icc leg.along leg.alongEnd := by
  have hlength := h.length_nonneg hground hleg
  obtain ⟨hzero, hone⟩ := project_fraction_mem p leg.start leg.finish
  constructor
  · show leg.along ≤ leg.along + _ * leg.length
    exact le_add_of_nonneg_right (mul_nonneg hzero hlength)
  · show leg.along + _ * leg.length ≤ leg.along + leg.length
    gcongr
    exact mul_le_of_le_one_left hlength hone

theorem spans_locate {leg : Leg K} (hleg : leg ∈ route.legs) (p : Point K) :
    route.Spans (leg.locate p) := by
  obtain ⟨i, hi⟩ := List.mem_iff_getElem?.1 hleg
  obtain ⟨hstart, hend⟩ := h.along_locate_mem hground hleg p
  refine ⟨leg.along, leg.alongEnd, ?_, ?_, hstart, hend⟩
  · show route.distances[leg.index]? = _
    rw [h.numbered i leg hi, distances_getElem? hi]
  · show route.distances[leg.index + 1]? = _
    rw [h.numbered i leg hi, h.distances_succ hi]

theorem spans_resume? {p : Point K} {progress radius : K} {m : Match K}
    (hm : route.resume? p progress radius = some m) : route.Spans m := by
  obtain ⟨leg, hleg, rfl, -⟩ := resume?_eq_some hm
  exact h.spans_locate hground hleg p

theorem spans_matched (m : Matcher) (rules : Config.Matching K) (p : Point K) :
    route.Spans (m.locate rules route p).1 := by
  obtain ⟨leg, hleg, hfound⟩ := m.exists_locate rules route p
  rw [hfound]
  exact h.spans_locate hground hleg p

theorem along_mem {m : Match K} (hm : route.Spans m) : m.along ∈ Set.Icc 0 route.total := by
  obtain ⟨a, b, ha, hb, ham, hmb⟩ := hm
  have ha' := h.distances_mem hground (List.mem_of_getElem? ha)
  have hb' := h.distances_mem hground (List.mem_of_getElem? hb)
  exact ⟨ha'.1.trans ham, hmb.trans hb'.2⟩

theorem total_nonneg : 0 ≤ route.total :=
  (h.distances_mem hground (List.mem_append_right _ (List.mem_singleton_self _))).1

end Route.IsLaid

end Exact

end Roadbook

import Mathlib.Tactic.Set
import Roadbook.Proofs.Route.Tables

/-!
# Finding a distance in the tables

A list of points is a route just if it has a stretch, all its points exist and it is longer than
nothing (`Route.exists_ofPoints_iff`). Its tables then follow the points (`Route.IsTabled`), and the
leg at a distance is the one whose entries the distance lies between (`Route.FindsLegs`), also where
points are repeated. The same leg is found by its number (`Route.IsLaid.indexAt_eq`), and with it
the tables have every entry that the point at a distance and the line between two distances ask for
(`Route.IsLaid.readPoint?_eq`, `Route.IsLaid.readLine?_eq`).
-/

namespace Roadbook

section Defs

variable {α : Type} [Scalar α]

/-- A quotient, unless one would divide by zero. -/
def quotient? (a b : α) : Option α := if 0 < b ∨ b < 0 then some (a / b) else none

/-- The sum of the distances from each point of a line to the next. -/
def lineLength [Geodesy α] (points : List (Point α)) : α :=
  Scalar.sum ((stretches points).map fun s => Geodesy.distance s.1 s.2)

namespace Route

/-- The number of the leg at a distance: the first entry of the table beyond the distance is its
end. -/
def indexAt (route : Route α) (d : α) : Nat :=
  min ((route.distances.takeWhile fun c => decide (c ≤ d)).length - 1) (route.lengths.length - 1)

/-- The point at a distance, read from the tables. There is no answer if a table lacks an entry that
is asked for, or if one would divide by zero. -/
def readPoint? (route : Route α) (d : α) : Option (Point α) := do
  let d := route.clamp d
  let i := route.indexAt d
  let length ← route.lengths[i]?
  let start ← route.points[i]?
  if length ≤ 0 then some start
  else
    let finish ← route.points[i + 1]?
    let along ← route.distances[i]?
    let t ← quotient? (d - along) length
    some (start.between finish (Scalar.clamp 0 1 t))

/-- The line from one distance to another, read from the tables. -/
def readLine? (route : Route α) (d e : α) : Option (List (Point α)) := do
  let d := route.clamp d
  let e := route.clamp e
  let start ← route.readPoint? d
  if e ≤ d then some [start]
  else
    let inner := (route.points.zip route.distances).filter fun q => decide (d < q.2 ∧ q.2 < e)
    let finish ← route.readPoint? e
    some (start :: inner.map (·.1) ++ [finish])

end Route

variable [Geodesy α]

theorem Leg.chain_eq_cons_iff {index : Nat} {along : α} {points : List (Point α)} :
    (∃ first rest, chain index along points = first :: rest) ↔ 2 ≤ points.length := by
  rcases points with _ | ⟨a, _ | ⟨b, points⟩⟩ <;> simp [chain]

end Defs

variable {K : Type} [Field K] [LinearOrder K] [FloorRing K] [Geodesy K]

attribute [local instance] Scalar.exact

theorem lineLength_cons (a b : Point K) (rest : List (Point K)) :
    lineLength (a :: b :: rest) = Geodesy.distance a b + lineLength (b :: rest) := by
  unfold lineLength
  rw [Scalar.exact_sum, Scalar.exact_sum, stretches, List.map_cons, List.sum_cons]

namespace Leg

/-- The last leg ends as far along as the line is long. -/
theorem alongEnd_chain : ∀ {points : List (Point K)} {index : Nat} {along : K} {first : Leg K}
    {rest : List (Leg K)}, chain index along points = first :: rest →
      (rest.getLastD first).alongEnd = along + lineLength points
  | [], _, _, _, _, h => by simp [chain] at h
  | [_], _, _, _, _, h => by simp [chain] at h
  | a :: b :: points, index, along, first, rest, h => by
    rw [chain, List.cons.injEq] at h
    obtain ⟨rfl, hrest⟩ := h
    rw [lineLength_cons, ← add_assoc]
    rcases rest with _ | ⟨second, rest⟩
    · rcases points with _ | ⟨c, points⟩
      · unfold lineLength
        rw [Scalar.exact_sum]
        simp [alongEnd, stretches]
      · simp [chain] at hrest
    · rw [List.getLastD_cons, alongEnd_chain hrest]

theorem lengths_chain : ∀ (points : List (Point K)) (index : Nat) (along : K),
    (chain index along points).map (·.length)
      = (stretches points).map fun s => Geodesy.distance s.1 s.2
  | [], _, _ => rfl
  | [_], _, _ => rfl
  | a :: b :: points, index, along => by
    rw [chain, stretches, List.map_cons, List.map_cons, lengths_chain (b :: points)]

end Leg

namespace Route

variable {turns : Config.Turns K} {points : List (Point K)} {route : Route K}

theorem total_ofPoints (h : ofPoints turns points = .ok route) :
    route.total = lineLength points := by
  have hsum := Leg.alongEnd_chain (legs_ofPoints h)
  rwa [Scalar.exact_zero, zero_add] at hsum

theorem exists_ofPoints_iff (turns : Config.Turns K) (points : List (Point K)) :
    (∃ route, ofPoints turns points = .ok route)
      ↔ 2 ≤ points.length ∧ (∀ p ∈ points, p.IsValid) ∧ 0 < lineLength points := by
  constructor
  · rintro ⟨route, h⟩
    have htotal := total_ofPoints h
    obtain ⟨hchain, hvalid, -, hlong⟩ := ofPoints_eq_ok_iff.1 h
    rw [Scalar.exact_zero, htotal, not_le] at hlong
    exact ⟨Leg.chain_eq_cons_iff.1 ⟨_, _, hchain⟩, hvalid, hlong⟩
  · rintro ⟨hcount, hvalid, hlong⟩
    obtain ⟨first, rest, hchain⟩ := Leg.chain_eq_cons_iff.2 hcount
    refine ⟨⟨first, rest, maneuversOf turns first rest⟩,
      ofPoints_eq_ok_iff.2 ⟨hchain, hvalid, rfl, ?_⟩⟩
    have hsum := Leg.alongEnd_chain hchain
    rw [Scalar.exact_zero] at hsum ⊢
    rw [total, last, hsum, zero_add]
    exact hlong.not_ge

/-- The tables have an entry for each point and each stretch, and lead from the start to the end of
the route. -/
structure IsTabled (route : Route K) (points : List (Point K)) : Prop where
  points_eq : route.points = points
  lengths_eq : route.lengths = (stretches points).map fun s => Geodesy.distance s.1 s.2
  distances_length : route.distances.length = points.length
  lengths_length : route.lengths.length + 1 = points.length
  start : route.distances[0]? = some 0
  step : ∀ (i : Nat) (along length : K), route.distances[i]? = some along →
    route.lengths[i]? = some length → route.distances[i + 1]? = some (along + length)
  sorted : route.distances.Pairwise (· ≤ ·)
  finish : route.distances.getLast? = some route.total

/-- The leg at a distance is the one on which it lies, and off either end of the route the one at that
end. What is read from the tables by the number of the leg exists. -/
structure FindsLegs (route : Route K) : Prop where
  within : ∀ d, 0 ≤ d → d < route.total → ∃ along alongEnd,
    route.distances[(route.legAt d).index]? = some along
      ∧ route.distances[(route.legAt d).index + 1]? = some alongEnd ∧ along ≤ d ∧ d < alongEnd
      ∧ 0 < (route.legAt d).length
  beyond : ∀ d, route.total ≤ d → (route.legAt d).index + 1 = route.lengths.length
  before : ∀ d, d < 0 → (route.legAt d).index = 0
  mono : ∀ d e, d ≤ e → (route.legAt d).index ≤ (route.legAt e).index
  number : ∀ d, route.indexAt d = (route.legAt d).index
  point : ∀ d, route.readPoint? d = some (route.pointAt d)
  line : ∀ d e, route.readLine? d e = some (route.between d e)

omit [Geodesy K] [Field K] [LinearOrder K] [FloorRing K] in
theorem length_legs (route : Route K) : route.lengths.length = route.legs.length :=
  List.length_map ..

omit [Geodesy K] in
theorem distances_total (route : Route K) :
    route.distances[route.legs.length]? = some route.total := by
  rw [distances, List.getElem?_append_right (by simp)]
  simp

namespace IsLaid

theorem alongEnd_eq_total (h : route.IsLaid) {i : Nat} {leg : Leg K}
    (hleg : route.legs[i]? = some leg) (hi : i + 1 = route.legs.length) :
    leg.alongEnd = route.total := by
  have hend := h.distances_succ hleg
  rw [hi, distances_total] at hend
  exact (Option.some.inj hend).symm

omit [Geodesy K] in
/-- The last point is at the end, so it is never strictly between two distances. -/
theorem filter_points (hjoined : route.IsJoined) {d e : K} (he : e ≤ route.total) :
    ((route.points.zip route.distances).filter fun q => decide (d < q.2 ∧ q.2 < e)).map (·.1)
      = (route.legs.filter fun l => decide (d < l.along ∧ l.along < e)).map (·.start) := by
  have hzip : route.points.zip route.distances
      = route.legs.map (fun l => (l.start, l.along)) ++ [(route.finish, route.total)] := by
    rw [hjoined, distances, List.zip_append (by simp), List.zip_map']
    rfl
  have hlast : ¬ (d < route.total ∧ route.total < e) := fun hlt => he.not_gt hlt.2
  rw [hzip, List.filter_append, List.filter_map, List.filter_cons_of_neg (by simpa using hlast)]
  simp [Function.comp_def]

variable [IsStrictOrderedRing K] (h : route.IsLaid)
  (hground : ∀ a b : Point K, 0 ≤ Geodesy.distance a b)

include h hground

theorem lt_alongEnd_legAt {d : K} (hd : d < route.total) : d < (route.legAt d).alongEnd := by
  have hhere := h.legs_index_legAt d
  rcases (Nat.succ_le_of_lt (List.getElem?_eq_some_iff.1 hhere).1).lt_or_eq with hlt | hlast
  · have hnext := List.getElem?_eq_getElem hlt
    have hpassed : ¬ (route.legs[(route.legAt d).index + 1]).along ≤ d := by
      rw [← h.le_legAt_iff hground hnext (Nat.succ_pos _)]
      exact Nat.not_succ_le_self _
    have hmeet : (route.legAt d).alongEnd = (route.legs[(route.legAt d).index + 1]).along :=
      Option.some.inj ((h.distances_succ hhere).symm.trans (distances_getElem? hnext))
    rw [hmeet]
    exact not_le.1 hpassed
  · rw [h.alongEnd_eq_total hhere hlast]
    exact hd

theorem index_legAt_of_total_le {d : K} (hd : route.total ≤ d) :
    (route.legAt d).index + 1 = route.legs.length := by
  have hlast : route.legs.length - 1 < route.legs.length := Nat.sub_one_lt (by simp [legs])
  have hleg := List.getElem?_eq_getElem hlast
  have halong : route.legs[route.legs.length - 1].along ≤ d :=
    (h.distances_mem hground (List.mem_of_getElem? (distances_getElem? hleg))).2.trans hd
  have hlow := h.le_index_legAt hground hleg halong
  have hhigh := (List.getElem?_eq_some_iff.1 (h.legs_index_legAt d)).1
  omega

theorem index_legAt_of_neg {d : K} (hd : d < 0) : (route.legAt d).index = 0 := by
  by_contra hpos
  have hhere := h.legs_index_legAt d
  have hle := (h.le_legAt_iff hground hhere (Nat.pos_of_ne_zero hpos)).1 le_rfl
  have hnonneg := (h.distances_mem hground (List.mem_of_getElem? (distances_getElem? hhere))).1
  exact hd.not_ge (hnonneg.trans hle)

theorem index_legAt_mono {d e : K} (hde : d ≤ e) :
    (route.legAt d).index ≤ (route.legAt e).index := by
  have hhere := h.legs_index_legAt d
  rcases Nat.eq_zero_or_pos (route.legAt d).index with hzero | hpos
  · exact hzero.le.trans (Nat.zero_le _)
  · exact h.le_index_legAt hground hhere (((h.le_legAt_iff hground hhere hpos).1 le_rfl).trans hde)

/-- The entries of the table up to a distance are those of the legs up to the leg there. -/
theorem indexAt_eq (d : K) : route.indexAt d = (route.legAt d).index := by
  have hpairs : route.distances.Pairwise fun b c => decide (c ≤ d) = true → decide (b ≤ d) = true :=
    (h.pairwise_distances hground).imp fun hle hpass =>
      decide_eq_true (hle.trans (of_decide_eq_true hpass))
  have hcount : ∀ i leg, route.legs[i]? = some leg →
      (i < (route.distances.takeWhile fun c => decide (c ≤ d)).length ↔ leg.along ≤ d) := by
    intro i leg hleg
    rw [lt_length_takeWhile_iff hpairs (distances_getElem? hleg), decide_eq_true_eq]
  have hhere := h.legs_index_legAt d
  have hin := (List.getElem?_eq_some_iff.1 hhere).1
  unfold indexAt
  rw [length_legs]
  set n := (route.distances.takeWhile fun c => decide (c ≤ d)).length
  apply le_antisymm
  · rcases Nat.eq_zero_or_pos (min (n - 1) (route.legs.length - 1)) with hzero | hpos
    · exact hzero.le.trans (Nat.zero_le _)
    · have hleg := List.getElem?_eq_getElem
        (show min (n - 1) (route.legs.length - 1) < route.legs.length by omega)
      exact h.le_index_legAt hground hleg ((hcount _ _ hleg).1 (by omega))
  · rcases Nat.eq_zero_or_pos (route.legAt d).index with hzero | hpos
    · exact hzero.le.trans (Nat.zero_le _)
    · have hle := (h.le_legAt_iff hground hhere hpos).1 le_rfl
      have hlt := (hcount _ _ hhere).2 hle
      omega

variable (hjoined : route.IsJoined)

include hjoined

theorem readPoint?_eq (d : K) : route.readPoint? d = some (route.pointAt d) := by
  have hhere := h.legs_index_legAt (route.clamp d)
  unfold readPoint? pointAt
  dsimp only
  rw [h.indexAt_eq hground, lengths_getElem? hhere, hjoined.points_getElem? hhere, points_succ hhere,
    distances_getElem? hhere]
  dsimp only [Option.bind_eq_bind, Option.bind_some]
  rw [Scalar.exact_zero]
  split_ifs with hnone
  · rfl
  · rw [quotient?, Scalar.exact_zero, if_pos (.inl (not_le.1 hnone))]
    rfl

theorem readLine?_eq (d e : K) : route.readLine? d e = some (route.between d e) := by
  have hclamp : route.clamp e ≤ route.total := by
    unfold clamp
    rw [Scalar.exact_zero]
    exact (Scalar.exact_clamp_mem (h.total_nonneg hground) e).2
  unfold readLine? between
  dsimp only
  rw [h.readPoint?_eq hground hjoined, h.readPoint?_eq hground hjoined]
  dsimp only [Option.bind_eq_bind, Option.bind_some]
  rw [filter_points hjoined hclamp]
  split_ifs <;> rfl

theorem findsLegs : route.FindsLegs where
  within d hd hlt := by
    have hhere := h.legs_index_legAt d
    have hle := h.along_legAt_le hground hd
    have hend := h.lt_alongEnd_legAt hground hlt
    exact ⟨_, _, distances_getElem? hhere, h.distances_succ hhere, hle, hend,
      pos_of_lt_add_right (hle.trans_lt hend)⟩
  beyond d hd := by
    rw [length_legs]
    exact h.index_legAt_of_total_le hground hd
  before _ := h.index_legAt_of_neg hground
  mono _ _ := h.index_legAt_mono hground
  number := h.indexAt_eq hground
  point := h.readPoint?_eq hground hjoined
  line := h.readLine?_eq hground hjoined

end IsLaid

theorem isTabled_ofPoints [IsStrictOrderedRing K] (h : ofPoints turns points = .ok route)
    (hground : ∀ a b : Point K, 0 ≤ Geodesy.distance a b) : route.IsTabled points := by
  have hlaid := isLaid_ofPoints h
  have hpoints := points_ofPoints h
  have hcount : points.length = route.legs.length + 1 := by
    rw [← hpoints, Route.points, List.length_cons, List.length_map]
  refine ⟨hpoints, ?_, ?_, ?_, ?_, fun i along length halong hlength => ?_,
    hlaid.pairwise_distances hground, ?_⟩
  · rw [lengths, legs, ← legs_ofPoints h]
    exact Leg.lengths_chain points 0 _
  · rw [hcount, distances, List.length_append, List.length_map, List.length_singleton]
  · rw [hcount, length_legs]
  · rw [hlaid.distances_zero, Scalar.exact_zero]
  · have hlt : i < route.legs.length := by
      rw [← length_legs]
      exact (List.getElem?_eq_some_iff.1 hlength).1
    have hleg := List.getElem?_eq_getElem hlt
    rw [IsLaid.distances_getElem? hleg] at halong
    rw [lengths_getElem? hleg] at hlength
    rw [hlaid.distances_succ hleg, ← Option.some.inj halong, ← Option.some.inj hlength]
    rfl
  · rw [distances, List.getLast?_append, List.getLast?_singleton]
    rfl

/-- On a ground without negative distances, a list of points is a route just if it has a stretch,
all its points exist and it is longer than nothing. Then the tables follow the points, and whatever
distance is looked up in them, the leg found is the one on which it lies. -/
theorem tables_bracket [IsStrictOrderedRing K]
    (hground : ∀ a b : Point K, 0 ≤ Geodesy.distance a b) (turns : Config.Turns K)
    (points : List (Point K)) :
    ((∃ route, ofPoints turns points = .ok route)
        ↔ 2 ≤ points.length ∧ (∀ p ∈ points, p.IsValid) ∧ 0 < lineLength points)
      ∧ ∀ route, ofPoints turns points = .ok route →
        route.total = lineLength points ∧ route.IsTabled points ∧ route.FindsLegs := by
  refine ⟨exists_ofPoints_iff turns points, fun route h => ?_⟩
  exact ⟨total_ofPoints h, isTabled_ofPoints h hground,
    (isLaid_ofPoints h).findsLegs hground (isJoined_ofPoints h)⟩

/-- At the bend that is given twice, the leg found is the one after both. -/
theorem tables_bracket_bends : Trial.bent.IsTabled Trial.bends
    ∧ (∃ route, ofPoints .standard Trial.bends = .ok route)
    ∧ (Trial.bent.legAt (22239 / 200)).index = 2
    ∧ ∃ along alongEnd, Trial.bent.distances[2]? = some along
      ∧ Trial.bent.distances[3]? = some alongEnd ∧ along ≤ 22239 / 200 ∧ 22239 / 200 < alongEnd := by
  obtain ⟨hroute, htables⟩ := tables_bracket distance_rat_nonneg .standard Trial.bends
  obtain ⟨-, htabled, hfinds⟩ := htables Trial.bent Trial.ofPoints_bends
  have hindex : (Trial.bent.legAt (22239 / 200)).index = 2 := by decide +kernel
  have hvalid : 2 ≤ Trial.bends.length ∧ (∀ p ∈ Trial.bends, p.IsValid)
      ∧ 0 < lineLength Trial.bends := by decide +kernel
  obtain ⟨along, alongEnd, halong, hend, hle, hlt, -⟩ :=
    hfinds.within (22239 / 200) (by decide +kernel) (by decide +kernel)
  rw [hindex] at halong hend
  exact ⟨htabled, hroute.2 hvalid, hindex, along, alongEnd, halong, hend, hle, hlt⟩

end Route

end Roadbook

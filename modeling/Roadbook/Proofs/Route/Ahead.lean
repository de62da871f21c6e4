import Roadbook.Proofs.Route.Tables

/-!
# The nearest place ahead

The search for a place to resume at starts with the leg at which progress is. The legs before it end
at or before progress (`Route.IsLaid.skips`), so none of their places is ahead, and the search comes
to the same as one on all legs (`Route.IsLaid.resume?_eq`): it finds the first of the nearest places
that are ahead and near enough, if there is any (`Route.resumes_nearest`).
-/

namespace Roadbook

variable {α : Type} [Scalar α]

/-- Ahead of progress, and no further from the driver than the radius. -/
def Match.Serves (progress radius : α) (m : Match α) : Prop :=
  progress < m.along ∧ m.distance ≤ radius

instance (progress radius : α) (m : Match α) : Decidable (m.Serves progress radius) :=
  inferInstanceAs (Decidable (_ ∧ _))

/-- The place serves, no other that serves is nearer, and none as near is on a leg before. -/
structure Route.Resumes [Geodesy α] (route : Route α) (p : Point α) (progress radius : α)
    (m : Match α) : Prop where
  located : ∃ leg, route.legs[m.leg]? = some leg ∧ m = leg.locate p
  serves : m.Serves progress radius
  least : ∀ leg ∈ route.legs, (leg.locate p).Serves progress radius →
    m.distance ≤ (leg.locate p).distance
  first : ∀ leg ∈ route.legs, (leg.locate p).Serves progress radius → leg.index < m.leg →
    m.distance < (leg.locate p).distance

section Exact

variable {K : Type} [Field K] [LinearOrder K] [FloorRing K] [IsStrictOrderedRing K] [Geodesy K]

attribute [local instance] Scalar.exact

namespace Route.IsLaid

variable {route : Route K} {p : Point K} {progress radius : K} (h : route.IsLaid)

include h

omit [IsStrictOrderedRing K] in
theorem isFirst_iff_resumes {m : Match K} :
    Scalar.IsFirst (fun m n : Match K => Scalar.Before m.distance n.distance) (·.leg)
        ((route.legs.map (·.locate p)).filter fun m => m.Serves progress radius) m
      ↔ route.Resumes p progress radius m := by
  have hmem : ∀ leg ∈ route.legs, (leg.locate p).Serves progress radius →
      leg.locate p ∈ (route.legs.map (·.locate p)).filter fun m => m.Serves progress radius :=
    fun leg hleg hserves =>
      List.mem_filter.2 ⟨List.mem_map_of_mem hleg, decide_eq_true hserves⟩
  constructor
  · rintro ⟨hm, hleast, hfirst⟩
    obtain ⟨hm, hserves⟩ := List.mem_filter.1 hm
    obtain ⟨here, hhere, rfl⟩ := List.mem_map.1 hm
    refine ⟨⟨here, ?_, rfl⟩, of_decide_eq_true hserves, fun leg hleg hleg' => ?_,
      fun leg hleg hleg' hlt => ?_⟩
    · obtain ⟨i, hi⟩ := List.mem_iff_getElem?.1 hhere
      rwa [← h.numbered i here hi] at hi
    · exact not_lt.1 fun hlt => hleast _ (hmem leg hleg hleg') (Scalar.before_exact.2 hlt)
    · exact Scalar.before_exact.1 (hfirst _ (hmem leg hleg hleg') hlt)
  · rintro ⟨⟨here, hhere, rfl⟩, hserves, hleast, hfirst⟩
    refine ⟨hmem here (List.mem_of_getElem? hhere) hserves, fun n hn => ?_, fun n hn hlt => ?_⟩
    all_goals
      obtain ⟨hn, hn'⟩ := List.mem_filter.1 hn
      obtain ⟨leg, hleg, rfl⟩ := List.mem_map.1 hn
    · exact fun hbefore =>
        (hleast leg hleg (of_decide_eq_true hn')).not_gt (Scalar.before_exact.1 hbefore)
    · exact Scalar.before_exact.2 (hfirst leg hleg (of_decide_eq_true hn') hlt)

variable (hground : ∀ a b : Point K, 0 ≤ Geodesy.distance a b)

include hground

/-- A leg before the one at which progress is ends no further on. -/
theorem skips {leg : Leg K} (hleg : leg ∈ route.legs.take (route.legAt progress).index) :
    leg.alongEnd ≤ progress := by
  obtain ⟨i, hi⟩ := List.mem_iff_getElem?.1 hleg
  rw [List.getElem?_take] at hi
  split_ifs at hi with hlt
  have hhere := h.legs_index_legAt progress
  have hpos : 0 < (route.legAt progress).index := Nat.zero_lt_of_lt hlt
  exact (h.alongEnd_le hground hi hhere hlt).trans
    ((h.le_legAt_iff hground hhere hpos).1 le_rfl)

theorem resume?_eq : route.resume? p progress radius
    = Scalar.nearestBy? (·.distance)
        ((route.legs.map (·.locate p)).filter fun m => m.Serves progress radius) := by
  have hskipped : ((route.legs.take (route.legAt progress).index).map (·.locate p)).filter
      (fun m => m.Serves progress radius) = [] := by
    rw [List.filter_eq_nil_iff]
    intro m hm
    obtain ⟨leg, hleg, rfl⟩ := List.mem_map.1 hm
    have hbehind := ((h.along_locate_mem hground (List.mem_of_mem_take hleg) p).2).trans
      (h.skips hground hleg)
    rw [decide_eq_true_eq]
    exact fun hserves => hbehind.not_gt hserves.1
  have hsplit := List.take_append_drop (route.legAt progress).index route.legs
  conv_rhs => rw [← hsplit, List.map_append, List.filter_append, hskipped, List.nil_append]
  rfl

end Route.IsLaid

/-- On a ground without negative distances, the search for a place ahead of progress finds what a
search on all legs would: of the places that serve the first of the nearest, and nothing if none
does. -/
theorem Route.resumes_nearest {turns : Config.Turns K} {points : List (Point K)} {route : Route K}
    (h : ofPoints turns points = .ok route)
    (hground : ∀ a b : Point K, 0 ≤ Geodesy.distance a b) (p : Point K) (progress radius : K) :
    route.resume? p progress radius
        = Scalar.nearestBy? (·.distance)
            ((route.legs.map (·.locate p)).filter fun m => m.Serves progress radius)
      ∧ (∀ m, route.resume? p progress radius = some m ↔ route.Resumes p progress radius m)
      ∧ (route.resume? p progress radius = none
        ↔ ∀ leg ∈ route.legs, ¬ (leg.locate p).Serves progress radius) := by
  have hlaid := isLaid_ofPoints h
  refine ⟨hlaid.resume?_eq hground, fun m => ?_, ?_⟩
  · have hnumbered := (hlaid.numbered.pairwise_locate p).sublist
      (List.filter_sublist (p := fun m => decide (m.Serves progress radius)))
    rw [hlaid.resume?_eq hground, ← hlaid.isFirst_iff_resumes]
    exact Scalar.firstBy?_eq_some_iff hnumbered (Scalar.ranks_before_exact _)
  · rw [hlaid.resume?_eq hground, Scalar.nearestBy?, Scalar.firstBy?_eq_none_iff,
      List.filter_eq_nil_iff]
    simp

end Exact

namespace Trial

/-- Twelve meters off the point that is given twice. -/
def corner : Point ℚ := ⟨-1 / 10000, 1 / 1000⟩

end Trial

/-- Short of the first bend the driver may resume there, on the leg that ends there. With progress
at the bend nothing on the legs that meet there is ahead, and within eleven meters nothing is. -/
theorem Route.resumes_nearest_corner :
    (∃ m, Trial.bent.resume? Trial.corner 100 500 = some m ∧ m.leg = 0
        ∧ Trial.bent.Resumes Trial.corner 100 500 m)
      ∧ (∃ m, Trial.bent.resume? Trial.corner (22239 / 200) 500 = some m ∧ m.leg = 3
        ∧ Trial.bent.Resumes Trial.corner (22239 / 200) 500 m)
      ∧ Trial.bent.resume? Trial.corner 100 11 = none
      ∧ ∀ leg ∈ Trial.bent.legs, ¬ (leg.locate Trial.corner).Serves 100 11 := by
  have hfinds := resumes_nearest Trial.ofPoints_bends distance_rat_nonneg Trial.corner
  have hshort : (Trial.bent.resume? Trial.corner 100 500).map (·.leg) = some 0 := by
    decide +kernel
  have hthere : (Trial.bent.resume? Trial.corner (22239 / 200) 500).map (·.leg) = some 3 := by
    decide +kernel
  have hnone : Trial.bent.resume? Trial.corner 100 11 = none := by decide +kernel
  obtain ⟨m, hm, hleg⟩ := Option.map_eq_some_iff.1 hshort
  obtain ⟨n, hn, hleg'⟩ := Option.map_eq_some_iff.1 hthere
  exact ⟨⟨m, hm, hleg, ((hfinds 100 500).2.1 m).1 hm⟩,
    ⟨n, hn, hleg', ((hfinds (22239 / 200) 500).2.1 n).1 hn⟩, hnone, (hfinds 100 11).2.2.1 hnone⟩

end Roadbook

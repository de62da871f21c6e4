import Roadbook.Proofs.Number.Order
import Roadbook.Ground.Projection

/-!
# Feet

The distance to a stretch is that to the foot on it (`project_distance`), which in exact numbers
lies between the ends of the stretch (`project_foot`, `project_fraction_mem`). A line is within a
radius just if one of its stretches is (`exists_distanceToLine?_le_iff`).
-/

namespace Roadbook

theorem project_distance {α : Type} [Scalar α] [Geodesy α] (p a b : Point α) :
    (project p a b).distance = Geodesy.distance p (project p a b).foot := by
  unfold project
  dsimp only
  split_ifs <;> rfl

theorem mem_of_mem_stretches {β : Type} {s : β × β} :
    ∀ {line : List β}, s ∈ stretches line → s.1 ∈ line ∧ s.2 ∈ line
  | a :: b :: rest, h => by
    rcases List.mem_cons.1 h with rfl | h
    · simp
    · obtain ⟨hfst, hsnd⟩ := mem_of_mem_stretches h
      exact ⟨List.mem_cons_of_mem a hfst, List.mem_cons_of_mem a hsnd⟩

variable {K : Type} [Field K] [LinearOrder K] [FloorRing K]

attribute [local instance] Scalar.exact

namespace Point

theorem between_exact (a b : Point K) (t : K) :
    a.between b t = ⟨a.lon + t * (b.lon - a.lon), a.lat + t * (b.lat - a.lat)⟩ := rfl

theorem between_zero (a b : Point K) : a.between b 0 = a := by
  rw [between_exact, zero_mul, zero_mul, add_zero, add_zero]

theorem between_one (a b : Point K) : a.between b 1 = b := by
  rw [between_exact, one_mul, one_mul, add_sub_cancel, add_sub_cancel]

theorem between_self (a : Point K) (t : K) : a.between a t = a := by
  rw [between_exact, sub_self, sub_self, mul_zero, add_zero, add_zero]

end Point

variable [Geodesy K]

theorem project_fraction_mem (p a b : Point K) :
    0 ≤ (project p a b).fraction ∧ (project p a b).fraction ≤ 1 := by
  unfold project
  dsimp only
  rw [Scalar.exact_zero, Scalar.exact_one]
  split_ifs
  · exact Scalar.exact_clamp_mem zero_le_one _
  · exact ⟨le_refl 0, zero_le_one⟩

theorem project_foot (p a b : Point K) :
    (project p a b).foot = a.between b (project p a b).fraction := by
  unfold project
  dsimp only
  split_ifs
  · rfl
  · exact (a.between_zero b).symm.trans (by rw [Scalar.exact_zero])

/-- The distance to a stretch that leads nowhere is that to its ends. -/
theorem distanceToStretch_self [IsStrictOrderedRing K] (p a : Point K) :
    distanceToStretch p (a, a) = Geodesy.distance p a := by
  unfold distanceToStretch
  rw [project_distance, project_foot, Point.between_self]

theorem distanceToLine?_cons (p a b : Point K) (rest : List (Point K)) :
    distanceToLine? p (a :: b :: rest)
      = ((stretches (a :: b :: rest)).map (distanceToStretch p)).min? := by
  have hdefined : (stretches (a :: b :: rest)).find? (fun s => IsUndefined p s) = none := by
    simp [List.find?_eq_none, IsUndefined]
  unfold distanceToLine?
  simp only [hdefined, Scalar.nearestBy?_id]

theorem exists_distanceToLine?_le_iff {p a : Point K} {rest : List (Point K)} {radius : K} :
    (∃ d, distanceToLine? p (a :: rest) = some d ∧ d ≤ radius)
      ↔ rest = [] ∧ Geodesy.distance p a ≤ radius
        ∨ ∃ s ∈ stretches (a :: rest), distanceToStretch p s ≤ radius := by
  cases rest with
  | nil => simp [distanceToLine?, stretches]
  | cons b rest =>
    rw [distanceToLine?_cons, or_iff_right (fun h => nomatch h.1)]
    constructor
    · rintro ⟨d, hmin, hd⟩
      obtain ⟨s, hs, rfl⟩ := List.mem_map.1 (List.min?_mem hmin)
      exact ⟨s, hs, hd⟩
    · rintro ⟨s, hs, hd⟩
      have hmem := List.mem_map_of_mem (f := distanceToStretch p) hs
      obtain ⟨d, hmin⟩ := Option.isSome_iff_exists.1
        (List.isSome_min?_of_mem hmem)
      exact ⟨d, hmin, ((List.min?_eq_some_iff.1 hmin).2 _ hmem).trans hd⟩

end Roadbook

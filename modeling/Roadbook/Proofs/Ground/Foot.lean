import Mathlib.Tactic.LinearCombination
import Roadbook.Proofs.Ground.Projection

/-!
# The nearest point of a stretch

In the flat frame of a stretch, the square of the distance from a point to the points of the stretch
is a parabola (`squareTo_sub`), and from the foot on it grows by at least the square of the way
(`squareTo_fraction_add_le`). So the foot is the only nearest point of the stretch, and it is the
same one seen from the other end (`project_nearest`).
-/

namespace Roadbook

section Defs

variable {α : Type} [Scalar α] [Geodesy α]

/-- The length of a degree along a parallel, over that along a meridian, in the frame of a
stretch. -/
def frameScale (a b : Point α) : α := Geodesy.parallelScale ((a.lat + b.lat) / 2)

/-- A stretch in its own frame. -/
def direction (a b : Point α) : Offset α := Offset.between (frameScale a b) a b

/-- The square of the length of a stretch in its own frame. -/
def frameSquare (a b : Point α) : α := (direction a b).dot (direction a b)

/-- A stretch that is long enough to have a direction. -/
def IsDirected (a b : Point α) : Prop := degenerateSquare < frameSquare a b

/-- How far along the direction of a stretch a point lies from its start, in lengths of it. -/
def advance (p a b : Point α) : α :=
  (Offset.between (frameScale a b) a p).dot (direction a b) / frameSquare a b

/-- The square of the distance, in the frame of a stretch, from a point to the one a fraction of the
way along the stretch. -/
def squareTo (p a b : Point α) (t : α) : α :=
  let u := Offset.between (frameScale a b) p (a.between b t)
  u.dot u

theorem project_of_isDirected {a b : Point α} (h : IsDirected a b) (p : Point α) :
    project p a b
      = let t := Scalar.clamp 0 1 (advance p a b)
        ⟨Geodesy.distance p (a.between b t), t, a.between b t⟩ :=
  if_pos h

theorem project_of_not_isDirected {a b : Point α} (h : ¬ IsDirected a b) (p : Point α) :
    project p a b = ⟨Geodesy.distance p a, 0, a⟩ :=
  if_neg h

end Defs

variable {K : Type} [Field K] [LinearOrder K] [FloorRing K]

attribute [local instance] Scalar.exact instOfNatAtLeastTwo

theorem Offset.dot_exact (u v : Offset K) : u.dot v = u.east * v.east + u.north * v.north := rfl

variable [Geodesy K] {p a b : Point K}

/-- No point of the stretch is nearer in its frame, and no other is as near. -/
structure IsNearestFraction (p a b : Point K) (t : K) : Prop where
  mem : t ∈ Set.Icc 0 1
  least : ∀ s ∈ Set.Icc (0 : K) 1, squareTo p a b t ≤ squareTo p a b s
  unique : ∀ s ∈ Set.Icc (0 : K) 1, squareTo p a b s = squareTo p a b t → s = t

theorem fraction_of_isDirected (h : IsDirected a b) (p : Point K) :
    (project p a b).fraction = Scalar.clamp 0 1 (advance p a b) := by
  rw [project_of_isDirected h, Scalar.exact_zero, Scalar.exact_one]

section Reverse

theorem frameScale_comm (a b : Point K) : frameScale b a = frameScale a b := by
  unfold frameScale
  rw [add_comm]

theorem direction_reverse (a b : Point K) :
    direction b a = ⟨-(direction a b).east, -(direction a b).north⟩ := by
  unfold direction
  rw [frameScale_comm]
  simp only [Offset.between, Offset.mk.injEq]
  exact ⟨by ring, by ring⟩

theorem frameSquare_comm (a b : Point K) : frameSquare b a = frameSquare a b := by
  unfold frameSquare
  rw [direction_reverse, Offset.dot_exact, neg_mul_neg, neg_mul_neg]
  rfl

theorem IsDirected.reverse (h : IsDirected a b) : IsDirected b a := by
  unfold IsDirected
  rwa [frameSquare_comm]

end Reverse

variable [IsStrictOrderedRing K]

namespace Scalar

omit [Geodesy K]

/-- A clamped number does not lie between what it was clamped from and a number in the interval,
but at most beyond it. -/
theorem exact_clamp_obtuse {lo hi s : K} (hs : s ∈ Set.Icc lo hi) (r : K) :
    0 ≤ (s - Scalar.clamp lo hi r) * (Scalar.clamp lo hi r - r) := by
  unfold Scalar.clamp
  split_ifs with hlow hhigh
  · exact mul_nonneg (sub_nonneg.2 hs.1) (sub_nonneg.2 hlow.le)
  · exact mul_nonneg_of_nonpos_of_nonpos (sub_nonpos.2 hs.2) (sub_nonpos.2 hhigh.le)
  · rw [sub_self, mul_zero]

theorem exact_clamp_one_sub (r : K) : Scalar.clamp 0 1 (1 - r) = 1 - Scalar.clamp 0 1 r := by
  unfold Scalar.clamp
  split_ifs <;> linarith

end Scalar

theorem IsDirected.pos (h : IsDirected a b) : 0 < frameSquare a b := by
  have hpos : (0 : K) < degenerateSquare := by
    unfold degenerateSquare
    rw [Scalar.exact_one, Scalar.exact_numeral]
    positivity
  exact hpos.trans h

/-- Along a stretch the square of the distance is a parabola with its vertex abreast of the point. -/
theorem squareTo_sub (h : IsDirected a b) (p : Point K) (s t : K) :
    squareTo p a b s - squareTo p a b t
      = frameSquare a b * ((s - t) ^ 2 + 2 * ((s - t) * (t - advance p a b))) := by
  have hvertex : frameSquare a b * advance p a b
      = (Offset.between (frameScale a b) a p).dot (direction a b) :=
    mul_div_cancel₀ _ h.pos.ne'
  have hsplit : frameSquare a b * ((s - t) ^ 2 + 2 * ((s - t) * (t - advance p a b)))
      = frameSquare a b * ((s - t) ^ 2 + 2 * (s - t) * t)
        - 2 * (s - t) * (frameSquare a b * advance p a b) := by ring
  rw [hsplit, hvertex]
  simp only [squareTo, frameSquare, direction, Offset.dot_exact, Offset.between,
    Point.between_exact]
  ring

/-- On the way along the stretch from the foot the square of the distance grows at least as fast as
that of the way. -/
theorem squareTo_fraction_add_le (h : IsDirected a b) (p : Point K) {s : K}
    (hs : s ∈ Set.Icc 0 1) : squareTo p a b (project p a b).fraction
        + frameSquare a b * (s - (project p a b).fraction) ^ 2 ≤ squareTo p a b s := by
  have hobtuse := Scalar.exact_clamp_obtuse hs (advance p a b)
  rw [← fraction_of_isDirected h] at hobtuse
  have hgrowth := squareTo_sub h p s (project p a b).fraction
  have hmore := mul_nonneg h.pos.le hobtuse
  linarith

theorem isNearestFraction_project (h : IsDirected a b) (p : Point K) :
    IsNearestFraction p a b (project p a b).fraction := by
  refine ⟨project_fraction_mem p a b, fun s hs => ?_, fun s hs heq => ?_⟩
  · have hgrowth := squareTo_fraction_add_le h p hs
    have hway := mul_nonneg h.pos.le (sq_nonneg (s - (project p a b).fraction))
    linarith
  · have hgrowth := squareTo_fraction_add_le h p hs
    have hnone : frameSquare a b * (s - (project p a b).fraction) ^ 2 ≤ 0 := by linarith
    have hzero := (nonpos_of_mul_nonpos_right hnone h.pos).antisymm (sq_nonneg _)
    exact sub_eq_zero.1 (pow_eq_zero_iff two_ne_zero |>.1 hzero)

theorem advance_reverse (h : IsDirected a b) (p : Point K) :
    advance p b a = 1 - advance p a b := by
  have hvertex : (Offset.between (frameScale a b) b p).dot (direction b a)
      + (Offset.between (frameScale a b) a p).dot (direction a b) = frameSquare a b := by
    rw [direction_reverse]
    simp only [frameSquare, direction, Offset.dot_exact, Offset.between]
    ring
  unfold advance
  rw [frameSquare_comm, frameScale_comm, eq_sub_iff_add_eq, ← add_div, hvertex,
    div_self h.pos.ne']

theorem fraction_reverse (h : IsDirected a b) (p : Point K) :
    (project p b a).fraction = 1 - (project p a b).fraction := by
  rw [fraction_of_isDirected h.reverse, fraction_of_isDirected h, advance_reverse h,
    Scalar.exact_clamp_one_sub]

theorem foot_reverse (h : IsDirected a b) (p : Point K) :
    (project p b a).foot = (project p a b).foot := by
  rw [project_foot, project_foot, fraction_reverse h, Point.between_exact, Point.between_exact,
    Point.mk.injEq]
  exact ⟨by ring, by ring⟩

/-- The foot lies on the stretch. If the stretch has no direction, that is its start. Else the
square of its length, by which one divides, is positive, the foot is the nearest point of the
stretch in its frame, and it is the same one seen from the other end. -/
theorem project_nearest (p a b : Point K) :
    (project p a b).fraction ∈ Set.Icc 0 1
      ∧ (project p a b).foot = a.between b (project p a b).fraction
      ∧ (¬ IsDirected a b → project p a b = ⟨Geodesy.distance p a, 0, a⟩)
      ∧ (IsDirected a b → 0 < frameSquare a b
        ∧ (project p a b).fraction = Scalar.clamp 0 1
            ((Offset.between (frameScale a b) a p).dot (direction a b) / frameSquare a b)
        ∧ IsNearestFraction p a b (project p a b).fraction
        ∧ (project p b a).fraction = 1 - (project p a b).fraction
        ∧ (project p b a).foot = (project p a b).foot) := by
  refine ⟨project_fraction_mem p a b, project_foot p a b, fun h => ?_, fun h => ?_⟩
  · rw [project_of_not_isDirected h, Scalar.exact_zero]
  · exact ⟨h.pos, fraction_of_isDirected h p, isNearestFraction_project h p, fraction_reverse h p,
      foot_reverse h p⟩

/-- A point beyond the end of a stretch is projected to that end, from whichever side the stretch is
seen. -/
theorem project_nearest_beyond : IsDirected (⟨0, 0⟩ : Point ℚ) ⟨1 / 1000, 1 / 1000⟩
    ∧ IsNearestFraction (⟨3 / 1000, 0⟩ : Point ℚ) ⟨0, 0⟩ ⟨1 / 1000, 1 / 1000⟩ 1
    ∧ (project (⟨3 / 1000, 0⟩ : Point ℚ) ⟨1 / 1000, 1 / 1000⟩ ⟨0, 0⟩).fraction = 0 := by
  have hdirected : IsDirected (⟨0, 0⟩ : Point ℚ) ⟨1 / 1000, 1 / 1000⟩ := by
    unfold IsDirected
    decide +kernel
  have hend : (project (⟨3 / 1000, 0⟩ : Point ℚ) ⟨0, 0⟩ ⟨1 / 1000, 1 / 1000⟩).fraction = 1 := by
    decide +kernel
  obtain ⟨-, -, hnearest, hreverse, -⟩ :=
    (project_nearest (⟨3 / 1000, 0⟩ : Point ℚ) ⟨0, 0⟩ ⟨1 / 1000, 1 / 1000⟩).2.2.2 hdirected
  rw [hend] at hnearest hreverse
  exact ⟨hdirected, hnearest, hreverse.trans (sub_self 1)⟩

end Roadbook

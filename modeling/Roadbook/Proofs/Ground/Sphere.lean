import Mathlib.Analysis.SpecialFunctions.Trigonometric.Inverse
import Roadbook.Ground.Sphere
import Roadbook.Proofs.Ground.Wave
import Roadbook.Proofs.Number.Exact

/-!
# The sphere in real numbers

With the real functions the haversine formula gives the angle between two points, seen from the
centre of the earth, times the radius (`Sphere.distance_eq`). So of two points the one that is
better aligned with a third is nearer to it (`Sphere.distance_le_distance_iff`).
-/

namespace Roadbook

open Real Set

noncomputable instance : Trig ℝ where
  pi := Real.pi
  sin := Real.sin
  cos := Real.cos
  atan2 y x := Complex.arg ⟨x, y⟩
  sqrt := Real.sqrt

-- numerals are those of the field
attribute [local instance] Scalar.exact instOfNatAtLeastTwo

theorem Point.isValid_iff {p : Point ℝ} : p.IsValid ↔ |p.lon| ≤ 180 ∧ |p.lat| ≤ 90 := by
  unfold IsValid
  simp only [Scalar.exact_numeral, abs_le, and_assoc]
  exact ⟨fun h => h.2.2, fun h => ⟨rfl, rfl, h⟩⟩

namespace Sphere

theorem radians_exact (x : ℝ) : radians x = x * (π / 180) := by
  rw [← Scalar.exact_numeral 180]
  rfl

theorem radians_zero : radians (0 : ℝ) = 0 := by rw [radians_exact, zero_mul]

theorem radians_neg (x : ℝ) : radians (-x) = -radians x := by
  rw [radians_exact, radians_exact, neg_mul]

theorem radians_add (x y : ℝ) : radians (x + y) = radians x + radians y := by
  simp only [radians_exact, add_mul]

theorem radians_sub (x y : ℝ) : radians (x - y) = radians x - radians y := by
  simp only [radians_exact, sub_mul]

theorem radians_one : radians (1 : ℝ) = π / 180 := by rw [radians_exact, one_mul]

theorem radians_half_circle : radians (180 : ℝ) = π := by
  rw [radians_exact, mul_div_cancel₀ π (by norm_num)]

theorem radians_circle : radians (360 : ℝ) = 2 * π := by
  rw [radians_exact]
  ring

theorem cos_radians_sub_circle (x : ℝ) : cos (radians (x - 360)) = cos (radians x) := by
  rw [radians_sub, radians_circle, cos_sub_two_pi]

theorem radians_quarter_circle : radians (90 : ℝ) = π / 2 := by
  rw [radians_exact]
  ring

theorem radians_le_radians {x y : ℝ} : radians x ≤ radians y ↔ x ≤ y := by
  rw [radians_exact, radians_exact]
  exact mul_le_mul_iff_left₀ (by positivity)

theorem radians_lt_radians {x y : ℝ} : radians x < radians y ↔ x < y :=
  lt_iff_lt_of_le_iff_le radians_le_radians

theorem radians_eq_zero {x : ℝ} : radians x = 0 ↔ x = 0 := by
  rw [radians_exact, mul_eq_zero_iff_right (by positivity)]

theorem radians_surjective : Function.Surjective (radians : ℝ → ℝ) := by
  intro x
  refine ⟨x / (π / 180), ?_⟩
  rw [radians_exact, div_mul_cancel₀ x (by positivity)]

theorem abs_radians (x : ℝ) : |radians x| = radians |x| := by
  rw [radians_exact, radians_exact, abs_mul, abs_of_pos (show 0 < π / 180 by positivity)]

theorem cos_radians_abs (x : ℝ) : cos (radians |x|) = cos (radians x) := by
  rw [← abs_radians, cos_abs]

theorem abs_radians_le {x : ℝ} (h : |x| ≤ 90) : |radians x| ≤ π / 2 := by
  rw [abs_radians, ← radians_quarter_circle]
  exact radians_le_radians.2 h

/-- Of two ways along the equator the longer one ends at least as far away just if it does not come
nearer again from the other side. -/
theorem cos_radians_le_iff {x y : ℝ} (hx : 0 ≤ x) (hxy : x ≤ y) (hy : y ≤ 360) :
    cos (radians y) ≤ cos (radians x) ↔ x = y ∨ x + y ≤ 360 := by
  rw [cos_le_cos_iff (radians_zero.symm.trans_le (radians_le_radians.2 hx))
    (radians_le_radians.2 hxy) (radians_circle ▸ radians_le_radians.2 hy), ← radians_circle,
    ← radians_add, radians_le_radians, radians_exact, radians_exact, mul_left_inj' (by positivity)]

theorem forall_cos_radians_le_iff {x near far : ℝ} {s : Set ℝ}
    (hnear : ∀ lon ∈ s, |near - x| ≤ |lon - x|) (hfar : ∀ lon ∈ s, |lon - x| ≤ |far - x|)
    (hmem : far ∈ s) (hcircle : |far - x| ≤ 360) :
    (∀ lon ∈ s, cos (radians (lon - x)) ≤ cos (radians (near - x)))
      ↔ |near - x| = |far - x| ∨ |near - x| + |far - x| ≤ 360 := by
  have hiff : ∀ lon ∈ s, cos (radians (lon - x)) ≤ cos (radians (near - x))
      ↔ |near - x| = |lon - x| ∨ |near - x| + |lon - x| ≤ 360 := by
    intro lon hlon
    rw [← cos_radians_abs (lon - x), ← cos_radians_abs (near - x)]
    exact cos_radians_le_iff (abs_nonneg _) (hnear lon hlon) ((hfar lon hlon).trans hcircle)
  constructor
  · intro h
    exact (hiff far hmem).1 (h far hmem)
  · intro h lon hlon
    rw [hiff lon hlon]
    have hle := hfar lon hlon
    rcases h with h | h
    · exact .inl ((hnear lon hlon).antisymm (h ▸ hle))
    · exact .inr (by linarith)

theorem cos_radians_le_of_abs_le {x y : ℝ} (h : |x| ≤ |y|) (hy : |y| ≤ 180) :
    cos (radians y) ≤ cos (radians x) := by
  rw [← cos_radians_abs x, ← cos_radians_abs y,
    cos_radians_le_iff (abs_nonneg x) h (hy.trans (by norm_num))]
  right
  linarith

theorem cos_radians_nonneg {lat : ℝ} (h : |lat| ≤ 90) : 0 ≤ cos (radians lat) :=
  cos_nonneg_of_mem_Icc (abs_le.1 (abs_radians_le h))

theorem cos_radians_pos {lat : ℝ} (h : |lat| < 90) : 0 < cos (radians lat) := by
  refine cos_pos_of_mem_Ioo (abs_lt.1 ?_)
  rw [abs_radians, ← radians_quarter_circle]
  exact radians_lt_radians.2 h

theorem cos_radians_eq_zero {lat : ℝ} (h : |lat| = 90) : cos (radians lat) = 0 := by
  rw [← cos_radians_abs, h, radians_quarter_circle, cos_pi_div_two]

/-- The cosine of the angle between two points, seen from the centre. -/
noncomputable def alignment (a b : Point ℝ) : ℝ :=
  sin (radians a.lat) * sin (radians b.lat)
    + cos (radians a.lat) * cos (radians b.lat) * cos (radians (b.lon - a.lon))

/-- How fast the alignment with `a` grows as `b` moves north. -/
noncomputable def northing (a b : Point ℝ) : ℝ :=
  sin (radians a.lat) * cos (radians b.lat)
    - cos (radians a.lat) * sin (radians b.lat) * cos (radians (b.lon - a.lon))

/-- Seen from the centre, the direction to `a` has an upward, a northward and an eastward part at
`b`. -/
theorem alignment_sq_add (a b : Point ℝ) : alignment a b ^ 2 + northing a b ^ 2
    + (cos (radians a.lat) * sin (radians (b.lon - a.lon))) ^ 2 = 1 := by
  have ha := sin_sq_add_cos_sq (radians a.lat)
  have hb := sin_sq_add_cos_sq (radians b.lat)
  have hlon := sin_sq_add_cos_sq (radians (b.lon - a.lon))
  unfold alignment northing
  linear_combination (sin (radians a.lat) ^ 2
      + cos (radians a.lat) ^ 2 * cos (radians (b.lon - a.lon)) ^ 2) * hb
    + ha + cos (radians a.lat) ^ 2 * hlon

theorem alignment_mem (a b : Point ℝ) : alignment a b ∈ Icc (-1) 1 := by
  have hsq : alignment a b ^ 2 ≤ 1 := by
    have hsum := alignment_sq_add a b
    linarith [sq_nonneg (northing a b),
      sq_nonneg (cos (radians a.lat) * sin (radians (b.lon - a.lon)))]
  exact abs_le.1 ((sq_le_one_iff_abs_le_one _).1 hsq)

theorem alignment_mono {a b : Point ℝ} (ha : |a.lat| ≤ 90) (hb : |b.lat| ≤ 90) {lon : ℝ}
    (h : cos (radians (b.lon - a.lon)) ≤ cos (radians (lon - a.lon))) :
    alignment a b ≤ alignment a ⟨lon, b.lat⟩ := by
  unfold alignment
  gcongr
  exact mul_nonneg (cos_radians_nonneg ha) (cos_radians_nonneg hb)

theorem alignment_le_alignment_iff {a b : Point ℝ} (ha : |a.lat| < 90) (hb : |b.lat| < 90)
    {lon : ℝ} : alignment a ⟨lon, b.lat⟩ ≤ alignment a b
      ↔ cos (radians (lon - a.lon)) ≤ cos (radians (b.lon - a.lon)) := by
  unfold alignment
  rw [add_le_add_iff_left]
  exact mul_le_mul_iff_right₀ (mul_pos (cos_radians_pos ha) (cos_radians_pos hb))

/-- Two points lie on one meridian. All meridians meet at the poles. -/
def ShareMeridian (a b : Point ℝ) : Prop := b.lon = a.lon ∨ |a.lat| = 90 ∨ |b.lat| = 90

theorem alignment_of_shareMeridian {a b : Point ℝ} (h : ShareMeridian a b) :
    alignment a b = cos (radians (b.lat - a.lat)) := by
  unfold alignment
  rw [radians_sub b.lat, cos_sub]
  rcases h with h | h | h
  · rw [h, sub_self, radians_zero, cos_zero]
    ring
  · rw [cos_radians_eq_zero h]
    ring
  · rw [cos_radians_eq_zero h]
    ring

theorem alignment_le_cos {a b : Point ℝ} (ha : |a.lat| ≤ 90) (hb : |b.lat| ≤ 90) :
    alignment a b ≤ cos (radians (b.lat - a.lat)) := by
  have hmono : alignment a b ≤ alignment a ⟨a.lon, b.lat⟩ := by
    refine alignment_mono ha hb ?_
    rw [sub_self, radians_zero, cos_zero]
    exact cos_le_one _
  exact hmono.trans_eq (alignment_of_shareMeridian (.inl rfl))

theorem haversine_eq (a b : Point ℝ) :
    sin (radians (b.lat - a.lat) / 2) ^ 2
      + cos (radians a.lat) * cos (radians b.lat) * sin (radians (b.lon - a.lon) / 2) ^ 2
      = (1 - alignment a b) / 2 := by
  have hhalf : ∀ x : ℝ, sin (x / 2) ^ 2 = (1 - cos x) / 2 := by
    intro x
    rw [sin_sq_eq_half_sub, mul_div_cancel₀ x two_ne_zero]
    ring
  unfold alignment
  rw [hhalf, hhalf, radians_sub, cos_sub]
  ring

/-- The haversine formula is the angle seen from the centre, times the radius. -/
theorem distance_eq (a b : Point ℝ) : distance a b = 6371000 * arccos (alignment a b) := by
  obtain ⟨hlow, hhigh⟩ := alignment_mem a b
  have hpos := pi_pos
  have hnonneg := arccos_nonneg (alignment a b)
  have hle := arccos_le_pi (alignment a b)
  have hcos := cos_arccos hlow hhigh
  have hsqrt_sin : √((1 - alignment a b) / 2) = sin (arccos (alignment a b) / 2) := by
    rw [sin_half_eq_sqrt hnonneg (by linarith), hcos]
  have hsqrt_cos : √(1 - (1 - alignment a b) / 2) = cos (arccos (alignment a b) / 2) := by
    rw [cos_half (by linarith) hle, hcos]
    congr 1
    ring
  have hdef : distance a b = 6371000 * (2 * Complex.arg ⟨√(1 - (1 - alignment a b) / 2),
      √((1 - alignment a b) / 2)⟩) := by
    rw [← haversine_eq]
    unfold distance radius square
    simp only [Scalar.exact_numeral, Scalar.exact_one, ← sq]
    rfl
  rw [hdef, hsqrt_sin, hsqrt_cos, Complex.mk_eq_add_mul_I, Complex.ofReal_cos, Complex.ofReal_sin,
    Complex.arg_cos_add_sin_mul_I ⟨by linarith, by linarith⟩, mul_div_cancel₀ _ two_ne_zero]

theorem distance_le_distance_iff {a b c d : Point ℝ} :
    distance a b ≤ distance c d ↔ alignment c d ≤ alignment a b := by
  rw [distance_eq, distance_eq, mul_le_mul_iff_right₀ (by norm_num)]
  exact strictAntiOn_arccos.le_iff_ge (alignment_mem a b) (alignment_mem c d)

theorem distance_nonneg (a b : Point ℝ) : 0 ≤ distance a b := by
  rw [distance_eq]
  exact mul_nonneg (by norm_num) (arccos_nonneg _)

theorem distance_equator (x y : ℝ) :
    distance ⟨x, 0⟩ ⟨y, 0⟩ = 6371000 * arccos (cos (radians (y - x))) := by
  rw [distance_eq]
  simp [alignment, radians_zero]

attribute [local instance] geodesy

theorem degreeLength_eq : (Geodesy.degreeLength : ℝ) = 6371000 * (π / 180) := by
  rw [← radians_exact, ← Scalar.exact_numeral 6371000]
  rfl

end Sphere

end Roadbook

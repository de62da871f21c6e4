import Roadbook.Proofs.Ground.Sphere

/-!
# Along a meridian

The alignment with a point is a wave in the latitude (`Sphere.alignment_shift`), so one comes no
nearer to the point along a meridian under a condition on the start and the end of the way
(`Sphere.forall_north_iff`, `Sphere.forall_south_iff`). The meridian comes nearest to the point
somewhat towards the pole from where it has the latitude of the point; up to a quarter of the circle
away, this is at least `sinc` of the difference in longitude times as far as that place
(`Sphere.sinc_mul_distance_le_meridian`).
-/

namespace Roadbook

open Real Set

attribute [local instance] Scalar.exact instOfNatAtLeastTwo

namespace Sphere

/-- Along a meridian the alignment is a wave, which sets out as the northing at the start tells. -/
theorem alignment_shift (a b : Point ℝ) (lat : ℝ) : alignment a ⟨b.lon, lat⟩
    = alignment a b * cos (radians (lat - b.lat)) + northing a b * sin (radians (lat - b.lat)) := by
  have hb := sin_sq_add_cos_sq (radians b.lat)
  unfold alignment northing
  rw [radians_sub lat, cos_sub, sin_sub]
  linear_combination (-sin (radians a.lat) * sin (radians lat)
    - cos (radians a.lat) * cos (radians lat) * cos (radians (b.lon - a.lon))) * hb

/-- Going north on a meridian, one comes no nearer to `a` than at the start just if one sets out
away from it and does not end up nearer. -/
theorem forall_north_iff {a b : Point ℝ} {lat : ℝ} (h : b.lat < lat) (hspan : lat - b.lat ≤ 180) :
    (∀ l ∈ Icc b.lat lat, alignment a ⟨b.lon, l⟩ ≤ alignment a b)
      ↔ northing a b ≤ 0 ∧ alignment a ⟨b.lon, lat⟩ ≤ alignment a b := by
  have hpos : 0 < radians (lat - b.lat) :=
    radians_zero.symm.trans_lt (radians_lt_radians.2 (sub_pos.2 h))
  have hle : radians (lat - b.lat) ≤ π := radians_half_circle ▸ radians_le_radians.2 hspan
  rw [alignment_shift a b lat, ← forall_wave_le_iff hpos hle]
  constructor
  · rintro hall x ⟨hx, hxy⟩
    obtain ⟨d, rfl⟩ := radians_surjective x
    rw [← radians_zero, radians_le_radians] at hx
    rw [radians_le_radians] at hxy
    have hd := hall (b.lat + d) ⟨by linarith, by linarith⟩
    rwa [alignment_shift, add_sub_cancel_left] at hd
  · rintro hall l ⟨hl, hllat⟩
    rw [alignment_shift]
    refine hall _ ⟨?_, radians_le_radians.2 (by linarith)⟩
    rw [← radians_zero, radians_le_radians]
    exact sub_nonneg.2 hl

theorem alignment_mirror (a : Point ℝ) (lon lat : ℝ) :
    alignment ⟨a.lon, -a.lat⟩ ⟨lon, -lat⟩ = alignment a ⟨lon, lat⟩ := by
  unfold alignment
  rw [radians_neg, radians_neg, sin_neg, sin_neg, cos_neg, cos_neg, neg_mul_neg]

theorem northing_mirror (a b : Point ℝ) :
    northing ⟨a.lon, -a.lat⟩ ⟨b.lon, -b.lat⟩ = -northing a b := by
  unfold northing
  rw [radians_neg, radians_neg, sin_neg, sin_neg, cos_neg, cos_neg]
  ring

theorem forall_south_iff {a b : Point ℝ} {lat : ℝ} (h : lat < b.lat) (hspan : b.lat - lat ≤ 180) :
    (∀ l ∈ Icc lat b.lat, alignment a ⟨b.lon, l⟩ ≤ alignment a b)
      ↔ 0 ≤ northing a b ∧ alignment a ⟨b.lon, lat⟩ ≤ alignment a b := by
  have hlt : -b.lat < -lat := neg_lt_neg h
  have hnorth := forall_north_iff (a := ⟨a.lon, -a.lat⟩) (b := ⟨b.lon, -b.lat⟩) hlt (by linarith)
  rw [northing_mirror, alignment_mirror, alignment_mirror, neg_nonpos] at hnorth
  rw [← hnorth]
  constructor
  · intro hall l hl
    rw [← neg_neg l, alignment_mirror]
    exact hall (-l) ⟨by linarith [hl.2], by linarith [hl.1]⟩
  · intro hall l hl
    rw [← alignment_mirror]
    exact hall (-l) ⟨neg_le_neg hl.2, neg_le_neg hl.1⟩

/-- Beside a point off the equator, a meridian does not run level where it has the same latitude. -/
theorem northing_parallel_ne_zero {a : Point ℝ} {lon : ℝ} (ha : |a.lat| < 90)
    (hequator : a.lat ≠ 0) (hbeside : lon ≠ a.lon) (hcircle : |lon - a.lon| < 360) :
    northing a ⟨lon, a.lat⟩ ≠ 0 := by
  have hform : northing a ⟨lon, a.lat⟩
      = sin (radians a.lat) * cos (radians a.lat) * (1 - cos (radians (lon - a.lon))) := by
    unfold northing
    ring
  have hsin : sin (radians a.lat) ≠ 0 := by
    obtain ⟨hl, hh⟩ := abs_le.1 (abs_radians_le ha.le)
    rw [ne_eq, sin_eq_zero_iff_of_lt_of_lt (by linarith [pi_pos]) (by linarith [pi_pos]),
      radians_eq_zero]
    exact hequator
  have hcos : cos (radians (lon - a.lon)) ≠ 1 := by
    have hround := radians_lt_radians.2 hcircle
    rw [← abs_radians, radians_circle, abs_lt] at hround
    rw [ne_eq, cos_eq_one_iff_of_lt_of_lt hround.1 hround.2, radians_eq_zero, sub_eq_zero]
    exact hbeside
  rw [hform]
  exact mul_ne_zero (mul_ne_zero hsin (cos_radians_pos ha).ne') (sub_ne_zero.2 hcos.symm)

/-- A point is at least as far away as the great circle through it that runs north and south. -/
theorem arcsin_le_arccos_alignment {a : Point ℝ} (ha : |a.lat| ≤ 90) (b : Point ℝ) :
    arcsin (cos (radians a.lat) * |sin (radians (b.lon - a.lon))|) ≤ arccos (alignment a b) := by
  have hsum := alignment_sq_add a b
  rw [arcsin_eq_arccos (mul_nonneg (cos_radians_nonneg ha) (abs_nonneg _))]
  refine arccos_le_arccos (le_sqrt_of_sq_le ?_)
  rw [mul_pow, sq_abs, ← mul_pow]
  linarith [sq_nonneg (northing a b)]

/-- Half the angle between two points on a parallel. -/
theorem sin_arccos_alignment_half {a : Point ℝ} (ha : |a.lat| ≤ 90) (lon : ℝ) :
    sin (arccos (alignment a ⟨lon, a.lat⟩) / 2)
      = cos (radians a.lat) * |sin (radians (lon - a.lon) / 2)| := by
  have hpos := pi_pos
  have hnonneg := arccos_nonneg (alignment a ⟨lon, a.lat⟩)
  have hle := arccos_le_pi (alignment a ⟨lon, a.lat⟩)
  obtain ⟨hlow, hhigh⟩ := alignment_mem a ⟨lon, a.lat⟩
  have hhav := haversine_eq a ⟨lon, a.lat⟩
  rw [sub_self, radians_zero, zero_div, sin_zero] at hhav
  rw [← sq_eq_sq₀ (sin_nonneg_of_nonneg_of_le_pi (by linarith) (by linarith))
    (mul_nonneg (cos_radians_nonneg ha) (abs_nonneg _)), mul_pow, sq_abs, sin_sq_eq_half_sub,
    mul_div_cancel₀ _ two_ne_zero, cos_arccos hlow hhigh]
  linarith

theorem sinc_mul_arccos_le {a : Point ℝ} (ha : |a.lat| ≤ 90) {lon : ℝ}
    (h : |lon - a.lon| ≤ 90) : sinc (radians (lon - a.lon)) * arccos (alignment a ⟨lon, a.lat⟩)
      ≤ arcsin (cos (radians a.lat) * |sin (radians (lon - a.lon))|) := by
  have hsin := sin_arccos_alignment_half ha lon
  have hparallel := cos_radians_nonneg ha
  have hcos := cos_radians_nonneg h
  have hquarter := abs_radians_le h
  have halign : 0 ≤ alignment a ⟨lon, a.lat⟩ :=
    add_nonneg (mul_self_nonneg _) (mul_nonneg (mul_self_nonneg _) hcos)
  set x := radians (lon - a.lon)
  set angle := arccos (alignment a ⟨lon, a.lat⟩)
  have hangle : 0 ≤ angle ∧ angle ≤ π / 2 := ⟨arccos_nonneg _, arccos_le_pi_div_two.2 halign⟩
  have hhalf := half_le_sinc hquarter
  have hle : sinc x * angle ≤ angle := mul_le_of_le_one_left hangle.1 (sinc_le_one x)
  have hnonneg : 0 ≤ sinc x * angle := mul_nonneg (by linarith) hangle.1
  rw [le_arcsin_iff_sin_le' ⟨by linarith [pi_pos], hle.trans hangle.2⟩]
  calc sin (sinc x * angle) = sin (2 * sinc x * (angle / 2)) := by
        congr 1
        ring
    _ ≤ 2 * sinc x * sin (angle / 2) :=
        sin_mul_le (by linarith) (by linarith) (by linarith [pi_pos])
    _ = cos (radians a.lat) * (2 * sinc x * |sin (x / 2)|) := by
        rw [hsin]
        ring
    _ ≤ cos (radians a.lat) * |sin x| :=
        mul_le_mul_of_nonneg_left (two_mul_sinc_mul_le hquarter) hparallel

/-- Up to a quarter of the circle away, the alignment along a meridian has but one crest. -/
theorem alignment_le_or_le {a : Point ℝ} (ha : |a.lat| ≤ 90) {lon : ℝ} (h : |lon - a.lon| ≤ 90)
    {x y z : ℝ} (hx : |x| ≤ 90) (hz : |z| ≤ 90) (hy : y ∈ uIcc x z) :
    alignment a ⟨lon, x⟩ ≤ alignment a ⟨lon, y⟩ ∨ alignment a ⟨lon, z⟩ ≤ alignment a ⟨lon, y⟩ := by
  have hmid : radians y ∈ uIcc (radians x) (radians z) := by
    simpa only [mem_uIcc, radians_le_radians] using hy
  have hwave : ∀ lat : ℝ, alignment a ⟨lon, lat⟩
      = cos (radians a.lat) * cos (radians (lon - a.lon)) * cos (radians lat)
        + sin (radians a.lat) * sin (radians lat) := by
    intro lat
    unfold alignment
    ring
  rw [hwave, hwave, hwave]
  exact wave_le_or_le (mul_nonneg (cos_radians_nonneg ha) (cos_radians_nonneg h))
    (abs_le.1 (abs_radians_le hx)) (abs_le.1 (abs_radians_le hz)) hmid

/-- No point of a meridian is much nearer than the one of the same latitude. -/
theorem sinc_mul_distance_le_meridian {a b : Point ℝ} (ha : |a.lat| ≤ 90)
    (h : |b.lon - a.lon| ≤ 90) :
    sinc (radians (b.lon - a.lon)) * distance a ⟨b.lon, a.lat⟩ ≤ distance a b := by
  rw [distance_eq, distance_eq, mul_left_comm]
  exact mul_le_mul_of_nonneg_left
    ((sinc_mul_arccos_le ha h).trans (arcsin_le_arccos_alignment ha b)) (by norm_num)

end Sphere

end Roadbook

import Mathlib.Analysis.SpecialFunctions.Complex.Arg
import Mathlib.Analysis.SpecialFunctions.Trigonometric.Bounds
import Mathlib.Analysis.SpecialFunctions.Trigonometric.Sinc

/-!
# Waves

A sum of a cosine and a sine is followed along a meridian. It stays below its start under a
condition on its slope there and on its end (`forall_wave_le_iff`), and between the poles it has but
one crest (`wave_le_or_le`).
-/

namespace Roadbook

open Real Set

theorem wave_sub (m n x : ℝ) : m * cos x + n * sin x - m
    = 2 * sin (x / 2) * (n * cos (x / 2) - m * sin (x / 2)) := by
  obtain ⟨u, rfl⟩ : ∃ u, x = 2 * u := ⟨x / 2, by ring⟩
  rw [mul_div_cancel_left₀ u two_ne_zero, cos_two_mul, sin_two_mul, cos_sq']
  ring

theorem wave_le_iff {m n x : ℝ} (hx : 0 < x) (hxπ : x ≤ π) :
    m * cos x + n * sin x ≤ m ↔ n * cos (x / 2) ≤ m * sin (x / 2) := by
  have hpos : 0 < 2 * sin (x / 2) :=
    mul_pos two_pos (sin_pos_of_pos_of_lt_pi (by linarith) (by linarith))
  rw [← sub_nonpos, wave_sub, ← sub_nonpos (a := n * cos (x / 2))]
  exact ⟨fun h => nonpos_of_mul_nonpos_right h hpos,
    fun h => mul_nonpos_of_nonneg_of_nonpos hpos.le h⟩

theorem slope_nonpos {m n y : ℝ} (hy : 0 < y) (hyπ : y ≤ π)
    (h : ∀ x ∈ Icc 0 y, m * cos x + n * sin x ≤ m) : n ≤ 0 := by
  -- the first steps up would outweigh what a wave loses by its curvature
  have hlim : Filter.Tendsto (fun x => n * cos (x / 2) - m * sin (x / 2))
      (nhdsWithin 0 (Ioi 0)) (nhds n) := by
    refine (Continuous.tendsto' (by fun_prop) 0 n ?_).mono_left nhdsWithin_le_nhds
    rw [zero_div, cos_zero, sin_zero, mul_one, mul_zero, sub_zero]
  refine le_of_tendsto hlim ?_
  filter_upwards [Ioo_mem_nhdsGT hy] with x hx
  exact sub_nonpos.2 ((wave_le_iff hx.1 (hx.2.le.trans hyπ)).1 (h x ⟨hx.1.le, hx.2.le⟩))

theorem wave_le_of_end_le {m n x y : ℝ} (hx : 0 < x) (hxy : x ≤ y) (hyπ : y ≤ π) (hn : n ≤ 0)
    (hend : m * cos y + n * sin y ≤ m) : m * cos x + n * sin x ≤ m := by
  rw [wave_le_iff hx (hxy.trans hyπ)]
  rw [wave_le_iff (hx.trans_le hxy) hyπ] at hend
  rcases le_total 0 m with hm | hm
  · have hcos : 0 ≤ cos (x / 2) :=
      cos_nonneg_of_neg_pi_div_two_le_of_le (by linarith) (by linarith)
    have hsin : 0 ≤ sin (x / 2) := sin_nonneg_of_nonneg_of_le_pi (by linarith) (by linarith)
    exact (mul_nonpos_of_nonpos_of_nonneg hn hcos).trans (mul_nonneg hm hsin)
  · have hcos : cos (y / 2) ≤ cos (x / 2) :=
      cos_le_cos_of_nonneg_of_le_pi (by linarith) (by linarith) (by linarith)
    have hsin : sin (x / 2) ≤ sin (y / 2) :=
      sin_le_sin_of_le_of_le_pi_div_two (by linarith) (by linarith) (by linarith)
    calc n * cos (x / 2) ≤ n * cos (y / 2) := mul_le_mul_of_nonpos_left hcos hn
      _ ≤ m * sin (y / 2) := hend
      _ ≤ m * sin (x / 2) := mul_le_mul_of_nonpos_left hsin hm

/-- On a way of at most half a circle, a wave stays at most as high as at the start just if it falls
there and is not higher at the end. -/
theorem forall_wave_le_iff {m n y : ℝ} (hy : 0 < y) (hyπ : y ≤ π) :
    (∀ x ∈ Icc 0 y, m * cos x + n * sin x ≤ m) ↔ n ≤ 0 ∧ m * cos y + n * sin y ≤ m := by
  constructor
  · intro h
    exact ⟨slope_nonpos hy hyπ h, h y ⟨hy.le, le_rfl⟩⟩
  · rintro ⟨hn, hend⟩ x ⟨hx, hxy⟩
    rcases hx.eq_or_lt with rfl | hx
    · rw [cos_zero, sin_zero, mul_one, mul_zero, add_zero]
    · exact wave_le_of_end_le hx hxy hyπ hn hend

/-- Of two angles in a circle the larger one has at most the cosine of the other unless it is nearer
to zero the other way round. -/
theorem cos_le_cos_iff {x y : ℝ} (hx : 0 ≤ x) (hxy : x ≤ y) (hy : y ≤ 2 * π) :
    cos y ≤ cos x ↔ x = y ∨ x + y ≤ 2 * π := by
  rcases hxy.eq_or_lt with rfl | hlt
  · simp
  have hprod : cos x - cos y = 2 * sin ((y - x) / 2) * sin ((x + y) / 2) := by
    rw [cos_sub_cos, ← neg_sub y x, neg_div, sin_neg]
    ring
  have hdiff : 0 ≤ sin ((y - x) / 2) := sin_nonneg_of_nonneg_of_le_pi (by linarith) (by linarith)
  rw [← sub_nonneg, hprod, or_iff_right hlt.ne]
  constructor
  · intro h
    by_contra hsum
    have hsum := not_le.1 hsum
    have hdiff : 0 < sin ((y - x) / 2) := sin_pos_of_pos_of_lt_pi (by linarith) (by linarith)
    have hneg : sin ((x + y) / 2) < 0 := by
      rw [← sin_sub_two_pi]
      exact sin_neg_of_neg_of_neg_pi_lt (by linarith) (by linarith)
    exact absurd h (not_le.2 (mul_neg_of_pos_of_neg (mul_pos two_pos hdiff) hneg))
  · intro hsum
    exact mul_nonneg (mul_nonneg two_pos.le hdiff)
      (sin_nonneg_of_nonneg_of_le_pi (by linarith) (by linarith))

/-- A wave that is not below zero at the equator has but one crest between the poles. -/
theorem wave_le_or_le {m n x y z : ℝ} (hm : 0 ≤ m) (hx : x ∈ Icc (-(π / 2)) (π / 2))
    (hz : z ∈ Icc (-(π / 2)) (π / 2)) (hy : y ∈ uIcc x z) :
    m * cos x + n * sin x ≤ m * cos y + n * sin y
      ∨ m * cos z + n * sin z ≤ m * cos y + n * sin y := by
  obtain ⟨r, φ, hr, hφ, rfl, rfl⟩ : ∃ r φ, 0 ≤ r ∧ φ ∈ Icc (-(π / 2)) (π / 2)
      ∧ m = r * cos φ ∧ n = r * sin φ := by
    refine ⟨‖(⟨m, n⟩ : ℂ)‖, Complex.arg ⟨m, n⟩, norm_nonneg _, ?_, ?_, ?_⟩
    · exact abs_le.1 (Complex.abs_arg_le_pi_div_two_iff.2 hm)
    · rw [Complex.norm_mul_cos_arg]
    · rw [Complex.norm_mul_sin_arg]
  have hwave : ∀ t, r * cos φ * cos t + r * sin φ * sin t = r * cos |t - φ| := by
    intro t
    rw [cos_abs, cos_sub]
    ring
  have hle : ∀ t ∈ Icc (-(π / 2)) (π / 2), |y - φ| ≤ |t - φ| →
      r * cos |t - φ| ≤ r * cos |y - φ| := by
    intro t ht hyt
    have hπ : |t - φ| ≤ π := abs_le.2 ⟨by linarith [ht.1, hφ.2], by linarith [ht.2, hφ.1]⟩
    exact mul_le_mul_of_nonneg_left (cos_le_cos_of_nonneg_of_le_pi (abs_nonneg _) hπ hyt) hr
  rw [hwave, hwave, hwave]
  rcases uIcc_subset_uIcc_union_uIcc (b := φ) hy with h | h
  · rw [uIcc_comm] at h
    exact .inl (hle x hx (abs_sub_left_of_mem_uIcc h))
  · exact .inr (hle z hz (abs_sub_left_of_mem_uIcc h))

theorem sin_mul_le {s u : ℝ} (hs : 1 ≤ s) (hu : 0 ≤ u) (hsu : s * u ≤ π) :
    sin (s * u) ≤ s * sin u := by
  have hpos : 0 < s := by linarith
  have hconcave := strictConcaveOn_sin_Icc.concaveOn.2 (x := 0) ⟨le_rfl, pi_pos.le⟩
    (y := s * u) ⟨by positivity, hsu⟩ (sub_nonneg.2 (inv_le_one_of_one_le₀ hs))
    (inv_nonneg.2 hpos.le) (sub_add_cancel 1 s⁻¹)
  simp only [smul_eq_mul, sin_zero, mul_zero, zero_add, inv_mul_cancel_left₀ hpos.ne'] at hconcave
  rwa [inv_mul_le_iff₀ hpos] at hconcave

theorem sinc_abs (x : ℝ) : sinc |x| = sinc x := by
  rcases abs_choice x with h | h <;> rw [h]
  rw [sinc_neg]

theorem half_le_sinc {x : ℝ} (hx : |x| ≤ π / 2) : 1 / 2 ≤ sinc x := by
  rcases (abs_nonneg x).eq_or_lt with h | h
  · rw [← sinc_abs, ← h, sinc_zero]
    norm_num
  · have hfour : 1 / 2 ≤ 2 / π := by
      rw [div_le_div_iff₀ two_pos pi_pos]
      linarith [pi_le_four]
    rw [← sinc_abs, sinc_of_ne_zero h.ne', le_div_iff₀ h]
    exact (mul_le_mul_of_nonneg_right hfour h.le).trans (mul_le_sin h.le hx)

theorem sinc_le_cos_half {x : ℝ} (hx : |x| ≤ π / 2) : sinc x ≤ cos (x / 2) := by
  rcases (abs_nonneg x).eq_or_lt with h | h
  · rw [abs_eq_zero.1 h.symm, sinc_zero, zero_div, cos_zero]
  · have hcos : 0 ≤ cos (|x| / 2) :=
      cos_nonneg_of_neg_pi_div_two_le_of_le (by linarith [pi_pos]) (by linarith)
    have hhalf : cos (x / 2) = cos (|x| / 2) := by
      rw [← cos_abs (x / 2), abs_div, abs_two]
    rw [← sinc_abs, sinc_of_ne_zero h.ne', div_le_iff₀ h, hhalf]
    calc sin |x| = 2 * sin (|x| / 2) * cos (|x| / 2) := by
          rw [← sin_two_mul, mul_div_cancel₀ _ two_ne_zero]
      _ ≤ 2 * (|x| / 2) * cos (|x| / 2) := by
          have hsin := sin_le (half_pos h).le
          gcongr
      _ = cos (|x| / 2) * |x| := by ring

theorem two_mul_sinc_mul_le {x : ℝ} (hx : |x| ≤ π / 2) :
    2 * sinc x * |sin (x / 2)| ≤ |sin x| := by
  have hsinc := sinc_le_cos_half hx
  have hcos : 0 ≤ cos (x / 2) := by linarith [half_le_sinc hx]
  calc 2 * sinc x * |sin (x / 2)| ≤ 2 * cos (x / 2) * |sin (x / 2)| := by gcongr
    _ = 2 * |sin (x / 2)| * cos (x / 2) := by ring
    _ = |sin x| := by
      rw [← abs_of_nonneg hcos, ← abs_two, ← abs_mul, ← abs_mul, abs_two, ← sin_two_mul,
        mul_div_cancel₀ x two_ne_zero]

end Roadbook

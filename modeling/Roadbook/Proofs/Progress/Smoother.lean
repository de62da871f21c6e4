import Mathlib.Algebra.Order.BigOperators.Group.List
import Mathlib.Analysis.Convex.Basic
import Roadbook.Proofs.Number.Exact
import Roadbook.Proofs.Progress.Samples

/-!
# Progress between two ends

As long as all samples lie between two ends, progress does, however the clock runs
(`Smoother.IsWithin.update`). For a sample is cut down to nothing less than progress was, and what
becomes of it is blended with the average of samples that lie between the ends too, in whatever
part the weight says.
-/

namespace Roadbook

namespace Smoother

variable {K : Type} [LinearOrder K] {rules : Config.Smoothing K} {lo hi sample : K} {s : Smoother K}

/-- Progress and the samples kept lie between two ends. -/
structure IsWithin (lo hi : K) (s : Smoother K) : Prop where
  progress : s.progress ∈ Set.Icc lo hi
  history : ∀ x ∈ s.history, x ∈ Set.Icc lo hi

namespace IsWithin

theorem force (s : Smoother K) (h : sample ∈ Set.Icc lo hi) : (s.force sample).IsWithin lo hi :=
  ⟨h, by simp [Smoother.force]⟩

theorem remember (h : s.IsWithin lo hi) (hsample : sample ∈ Set.Icc lo hi) :
    ∀ x ∈ Smoother.remember rules s.history sample, x ∈ Set.Icc lo hi := by
  intro x hx
  rcases mem_remember hx with hx | rfl
  · exact h.history x hx
  · exact hsample

end IsWithin

variable [Field K] [FloorRing K]

attribute [local instance] Scalar.exact

theorem IsWithin.fresh (hhi : 0 ≤ hi) : (Smoother.fresh : Smoother K).IsWithin 0 hi := by
  have hzero : (Smoother.fresh : Smoother K).progress = 0 := Scalar.exact_zero
  refine ⟨?_, by simp [Smoother.fresh]⟩
  rw [hzero]
  exact ⟨le_refl 0, hhi⟩

theorem average_eq (samples : List K) : average samples = samples.sum / samples.length := by
  rw [average, Scalar.exact_sum, Scalar.exact_ofInt, Int.cast_natCast]

theorem blend_eq (progress elapsed sample : K) (history : List K) :
    blend rules progress elapsed sample history
      = rules.rawWeight * min sample (progress + rules.maxSpeed * elapsed)
        + (1 - rules.rawWeight) * average history := by
  rw [blend, Scalar.exact_min, Scalar.exact_one]

theorem average_singleton (a : K) : average [a] = a := by
  rw [average_eq, List.sum_singleton, List.length_singleton, Nat.cast_one, div_one]

theorem elapsed_self {time : Int} (h : s.time = some time) : s.elapsed time = 0 := by
  simp only [elapsed, h, sub_self, Scalar.exact_wrap, max_self, Scalar.exact_ofInt, Int.cast_zero,
    zero_div]

variable [IsStrictOrderedRing K]

theorem elapsed_nonneg (s : Smoother K) (time : Int) : 0 ≤ s.elapsed time := by
  unfold elapsed
  split
  · rw [Scalar.exact_ofInt, Scalar.exact_ofNat]
    exact div_nonneg (Int.cast_nonneg (le_max_right _ 0)) (Nat.cast_nonneg 1000)
  · exact Scalar.exact_zero.symm.le

theorem le_average {samples : List K} (hne : samples ≠ []) (h : ∀ x ∈ samples, lo ≤ x) :
    lo ≤ average samples := by
  have hpos : (0 : K) < samples.length := Nat.cast_pos.2 (List.length_pos_of_ne_nil hne)
  have hsum := List.card_nsmul_le_sum samples lo h
  rw [nsmul_eq_mul] at hsum
  rw [average_eq]
  exact (le_div_iff₀' hpos).2 hsum

theorem average_le {samples : List K} (hne : samples ≠ []) (h : ∀ x ∈ samples, x ≤ hi) :
    average samples ≤ hi := by
  have hpos : (0 : K) < samples.length := Nat.cast_pos.2 (List.length_pos_of_ne_nil hne)
  have hsum := List.sum_le_card_nsmul samples hi h
  rw [nsmul_eq_mul] at hsum
  rw [average_eq]
  exact (div_le_iff₀' hpos).2 hsum

namespace IsWithin

variable (hweight : rules.rawWeight ∈ Set.Icc 0 1) (hspeed : 0 ≤ rules.maxSpeed)

include hweight hspeed

theorem blend (h : s.IsWithin lo hi) (hsample : sample ∈ Set.Icc lo hi) (time : Int) :
    Smoother.blend rules s.progress (s.elapsed time) sample
      (Smoother.remember rules s.history sample) ∈ Set.Icc lo hi := by
  have hfurther : s.progress ≤ s.progress + rules.maxSpeed * s.elapsed time :=
    le_add_of_nonneg_right (mul_nonneg hspeed (s.elapsed_nonneg time))
  have hreached : Min.min sample (s.progress + rules.maxSpeed * s.elapsed time)
      ∈ Set.Icc lo hi :=
    ⟨le_min hsample.1 (h.progress.1.trans hfurther), (min_le_left _ _).trans hsample.2⟩
  have hkept : ∀ x ∈ Smoother.remember rules s.history sample, x ∈ Set.Icc lo hi :=
    h.remember hsample
  have hne := remember_ne_nil rules s.history sample
  have haverage : average (Smoother.remember rules s.history sample) ∈ Set.Icc lo hi :=
    ⟨le_average hne fun x hx => (hkept x hx).1, average_le hne fun x hx => (hkept x hx).2⟩
  have hparts : rules.rawWeight + (1 - rules.rawWeight) = 1 := add_sub_cancel _ _
  rw [blend_eq]
  exact convex_Icc lo hi hreached haverage hweight.1 (sub_nonneg.2 hweight.2) hparts

theorem update (h : s.IsWithin lo hi) (hsample : sample ∈ Set.Icc lo hi) (time : Int) :
    (s.update rules sample time).IsWithin lo hi := by
  refine ⟨?_, h.remember hsample⟩
  show s.next rules sample time ∈ Set.Icc lo hi
  unfold next
  dsimp only
  split
  · exact hsample
  · split_ifs
    · exact h.progress
    · exact h.blend hweight hspeed hsample time

end IsWithin

end Smoother

end Roadbook

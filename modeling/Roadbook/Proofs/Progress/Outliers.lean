import Roadbook.Proofs.Progress.Smoother

/-!
# Runs of outliers

While too few outliers have come, progress stays where it was (`Smoother.Withstands`). The samples
kept from before are near it and do not count, and there is room for as many outliers as have to
agree, so none of these is lost. The outlier that makes them enough takes progress back: at most as
many of the older samples are left, and they are ahead by no more than the outliers are behind, so
the average is behind as well (`Smoother.average_lt_of_outliers`).
-/

namespace Roadbook

namespace Smoother

variable {K : Type} [Field K] [LinearOrder K] [FloorRing K]

attribute [local instance] Scalar.exact

/-- Progress has not moved, and the outliers are kept after some samples that are near it. -/
structure Withstands (rules : Config.Smoothing K) (progress : K) (outliers : List K)
    (s : Smoother K) : Prop where
  progress_eq : s.progress = progress
  time_ne : s.time ≠ none
  history_eq : ∃ near, s.history = near ++ outliers
    ∧ ∀ a ∈ near, |progress - a| ≤ rules.backwardJump

variable {rules : Config.Smoothing K} {s : Smoother K} {p : K} {near outliers : List K}

theorem countP_outliers (hnear : ∀ a ∈ near, |p - a| ≤ rules.backwardJump)
    (hback : ∀ a ∈ outliers, IsBehind rules p a) :
    (near ++ outliers).countP (fun a => IsBehind rules p a) = outliers.length := by
  have hno : near.countP (fun a => IsBehind rules p a) = 0 := by
    refine List.countP_eq_zero.2 fun a ha => ?_
    rw [decide_eq_true_eq]
    exact ((le_abs_self _).trans (hnear a ha)).not_gt
  have hall : outliers.countP (fun a => IsBehind rules p a) = outliers.length :=
    List.countP_eq_length.2 (by simpa using hback)
  rw [List.countP_append, hno, hall, Nat.zero_add]

variable [IsStrictOrderedRing K]

theorem average_lt_of_outliers (hjump : 0 ≤ rules.backwardJump) (hne : outliers ≠ [])
    (hfew : near.length ≤ outliers.length) (hnear : ∀ a ∈ near, |p - a| ≤ rules.backwardJump)
    (hback : ∀ a ∈ outliers, IsBehind rules p a) : average (near ++ outliers) < p := by
  have hahead : near.sum ≤ near.length * (p + rules.backwardJump) := by
    rw [← nsmul_eq_mul]
    refine List.sum_le_card_nsmul near _ fun a ha => ?_
    linarith [neg_le_of_abs_le (hnear a ha)]
  have hbehind : outliers.sum < outliers.length * (p - rules.backwardJump) := by
    have hsum := List.sum_lt_sum_of_ne_nil hne (fun a => a) (fun _ => p - rules.backwardJump)
      fun a ha => lt_sub_comm.1 (hback a ha)
    simpa using hsum
  have hspare : 0 ≤ ((outliers.length : K) - near.length) * rules.backwardJump :=
    mul_nonneg (sub_nonneg.2 (Nat.cast_le.2 hfew)) hjump
  have hpos : (0 : K) < (near ++ outliers).length :=
    Nat.cast_pos.2 (List.length_pos_of_ne_nil (List.append_ne_nil_of_right_ne_nil _ hne))
  rw [average_eq, div_lt_iff₀ hpos]
  push_cast [List.sum_append, List.length_append]
  linarith

namespace Withstands

omit [IsStrictOrderedRing K] in
theorem exists_kept (h : s.Withstands rules p outliers) (hroom : outliers.length < rules.capacity)
    (a : K) : ∃ near, remember rules s.history a = near ++ (outliers ++ [a])
      ∧ near.length + outliers.length + 1 ≤ rules.capacity
      ∧ ∀ b ∈ near, |p - b| ≤ rules.backwardJump := by
  obtain ⟨near, hhistory, hnear⟩ := h.history_eq
  rw [hhistory]
  refine ⟨_, remember_append hroom a, ?_, fun b hb => hnear b (List.mem_of_mem_drop hb)⟩
  simp
  omega

variable {a : Sample K} (h : s.Withstands rules p outliers)
  (hroom : rules.corroboration ≤ rules.capacity)
  (hback : ∀ b ∈ outliers ++ [a.along], IsBehind rules p b)

include h hroom hback

omit [IsStrictOrderedRing K] in
/-- One more outlier that leaves them too few. -/
theorem take (hfew : outliers.length + 1 < rules.corroboration) :
    (s.take rules a).Withstands rules p (outliers ++ [a.along]) := by
  obtain ⟨near, hkept, -, hnear⟩ := h.exists_kept (by omega) a.along
  refine ⟨?_, nofun, near, hkept, hnear⟩
  have hout : IsOutlier rules s.progress a.along (remember rules s.history a.along) := by
    rw [hkept, h.progress_eq]
    refine ⟨hback _ (by simp), ?_⟩
    rw [countP_outliers hnear hback]
    simpa using hfew
  show s.next rules a.along a.time = p
  rw [next_of_time h.time_ne, if_pos hout, h.progress_eq]

/-- The outlier that makes them enough. -/
theorem take_lt (hweight : rules.rawWeight ∈ Set.Icc 0 1) (hspeed : 0 ≤ rules.maxSpeed)
    (hjump : 0 < rules.backwardJump) (hfew : rules.capacity ≤ 2 * rules.corroboration)
    (henough : outliers.length + 1 = rules.corroboration) :
    (s.take rules a).progress < p - rules.rawWeight * rules.backwardJump := by
  obtain ⟨near, hkept, hlength, hnear⟩ := h.exists_kept (by omega) a.along
  have hin : ¬ IsOutlier rules s.progress a.along (remember rules s.history a.along) := by
    rintro ⟨-, htoo⟩
    rw [hkept, h.progress_eq, countP_outliers hnear hback] at htoo
    simp at htoo
    omega
  have haverage : average (near ++ (outliers ++ [a.along])) < p :=
    average_lt_of_outliers hjump.le (by simp) (by simp; omega) hnear hback
  have hstep : a.along < p - rules.backwardJump := lt_sub_comm.1 (hback _ (by simp))
  have hreach : 0 ≤ rules.maxSpeed * s.elapsed a.time := mul_nonneg hspeed (s.elapsed_nonneg _)
  have hcounts : min a.along (p + rules.maxSpeed * s.elapsed a.time) = a.along :=
    min_eq_left (by linarith)
  show s.next rules a.along a.time < _
  rw [next_of_time h.time_ne, if_neg hin, blend_eq, hkept, h.progress_eq, hcounts]
  have hmix : 0 < rules.rawWeight * (p - rules.backwardJump - a.along)
      + (1 - rules.rawWeight) * (p - average (near ++ (outliers ++ [a.along]))) :=
    convex_Ioi (0 : K) (sub_pos.2 hstep) (sub_pos.2 haverage) hweight.1 (sub_nonneg.2 hweight.2)
      (add_sub_cancel _ _)
  linarith

end Withstands

omit [IsStrictOrderedRing K] in
theorem withstands_takeAll (hroom : rules.corroboration ≤ rules.capacity) (hs : s.time ≠ none)
    (hnear : ∀ a ∈ s.history, |s.progress - a| ≤ rules.backwardJump) (samples : List (Sample K))
    (hfew : samples.length < rules.corroboration)
    (hback : ∀ a ∈ samples, IsBehind rules s.progress a.along) :
    (s.takeAll rules samples).Withstands rules s.progress (samples.map (·.along)) := by
  -- from the end, as what is kept depends on the samples before
  induction samples using List.reverseRecOn with
  | nil => exact ⟨rfl, hs, s.history, by simp [takeAll], hnear⟩
  | append_singleton samples a ih =>
    simp only [List.length_append, List.length_singleton] at hfew
    have h := ih (by omega) fun b hb => hback b (List.mem_append_left _ hb)
    rw [takeAll, List.foldl_append, List.map_append]
    exact h.take hroom (by simpa [or_imp, forall_and] using hback) (by simpa using hfew)

/-- Where all samples kept are near progress, outliers leave it as it is until there are enough of
them to agree. Then it steps back, by more than a long step counts for. -/
theorem follows_outliers (hweight : rules.rawWeight ∈ Set.Icc 0 1) (hspeed : 0 ≤ rules.maxSpeed)
    (hjump : 0 < rules.backwardJump) (hsome : 1 ≤ rules.corroboration)
    (hroom : rules.corroboration ≤ rules.capacity)
    (hfew : rules.capacity ≤ 2 * rules.corroboration) (hs : s.time ≠ none)
    (hnear : ∀ a ∈ s.history, |s.progress - a| ≤ rules.backwardJump) {samples : List (Sample K)}
    (hback : ∀ a ∈ samples, IsBehind rules s.progress a.along) :
    (samples.length < rules.corroboration → (s.takeAll rules samples).progress = s.progress)
      ∧ (samples.length = rules.corroboration → (s.takeAll rules samples).progress
        < s.progress - rules.rawWeight * rules.backwardJump) := by
  refine ⟨fun hlength => (withstands_takeAll hroom hs hnear samples hlength hback).progress_eq,
    fun hlength => ?_⟩
  rcases List.eq_nil_or_concat' samples with rfl | ⟨before, a, rfl⟩
  · simp at hlength
    omega
  simp only [List.length_append, List.length_singleton] at hlength
  have h := withstands_takeAll hroom hs hnear before (by omega)
    fun b hb => hback b (List.mem_append_left _ hb)
  rw [takeAll, List.foldl_append]
  exact h.take_lt hroom (by simpa [or_imp, forall_and] using hback) hweight hspeed hjump hfew
    (by simpa using hlength)

end Smoother

namespace Trial

/-- On the way, a kilometer along. -/
def rolling : Smoother ℚ :=
  Smoother.fresh.takeAll .standard [⟨1000, 0⟩, ⟨1010, 1000⟩, ⟨1020, 2000⟩]

/-- Three places far behind, the second of them taken before the first. -/
def strays : List (Sample ℚ) := [⟨800, 3000⟩, ⟨815, 2500⟩, ⟨790, 4000⟩]

end Trial

namespace Smoother

theorem follows_outliers_strays :
    (Trial.rolling.takeAll .standard (Trial.strays.take 2)).progress = Trial.rolling.progress
      ∧ (Trial.rolling.takeAll .standard Trial.strays).progress < Trial.rolling.progress - 35 := by
  have hweight : (Config.Smoothing.standard : Config.Smoothing ℚ).rawWeight ∈ Set.Icc 0 1 :=
    ⟨by decide +kernel, by decide +kernel⟩
  have hspeed : 0 ≤ (Config.Smoothing.standard : Config.Smoothing ℚ).maxSpeed := by decide +kernel
  have hjump : 0 < (Config.Smoothing.standard : Config.Smoothing ℚ).backwardJump := by
    decide +kernel
  have htime : Trial.rolling.time ≠ none := by decide +kernel
  have hnear : ∀ a ∈ Trial.rolling.history,
      |Trial.rolling.progress - a| ≤ Config.Smoothing.standard.backwardJump := by decide +kernel
  have hback : ∀ a ∈ Trial.strays, IsBehind .standard Trial.rolling.progress a.along := by
    decide +kernel
  have hpart : (35 : ℚ) = Config.Smoothing.standard.rawWeight
      * Config.Smoothing.standard.backwardJump := by decide +kernel
  have hfew : ∀ a ∈ Trial.strays.take 2, IsBehind .standard Trial.rolling.progress a.along :=
    fun a ha => hback a (List.mem_of_mem_take ha)
  refine ⟨(follows_outliers hweight hspeed hjump (by decide) (by decide) (by decide) htime
    hnear hfew).1 (by decide), ?_⟩
  rw [hpart]
  exact (follows_outliers hweight hspeed hjump (by decide) (by decide) (by decide) htime
    hnear hback).2 rfl

end Smoother

end Roadbook

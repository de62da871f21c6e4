import Mathlib.Data.List.Chain
import Mathlib.Tactic.IntervalCases
import Roadbook.Proofs.Progress.Smoother

/-!
# Progress on clean samples

Clean samples go further and further along, but never as far as a vehicle gets in the time
(`Sample.Precedes`). None of them is turned down, and progress stays behind the newest one
(`Smoother.Trails`). Yet it does not always grow: it lags after a long gap, so that the next sample
may be out of reach, and then the average of the samples kept, most of them from before the gap, may
hold it back by more than a vehicle gets on (`Smoother.HoldsBack`). There is no other way for it not
to grow, and at an even rate of samples it always does (`Smoother.grows_iff`).
-/

namespace Roadbook

variable {K : Type} [LinearOrder K]

theorem ascending_concat {history : List K} {x y : K} (h : history.Pairwise (· ≤ ·))
    (hlast : history.getLast? = some x) (hxy : x ≤ y) : (history ++ [y]).Pairwise (· ≤ ·) := by
  obtain ⟨older, rfl⟩ := List.getLast?_eq_some_iff.1 hlast
  refine List.pairwise_append.2 ⟨h, List.pairwise_singleton _ _, fun z hz w hw => ?_⟩
  rw [List.mem_singleton.1 hw]
  refine le_trans ?_ hxy
  rcases List.mem_append.1 hz with hz | hz
  · exact (List.pairwise_append.1 h).2.2 z hz x (List.mem_singleton_self x)
  · exact (List.mem_singleton.1 hz).le

variable [Field K]

/-- How far a vehicle gets in some milliseconds. -/
def Config.Smoothing.reach (rules : Config.Smoothing K) (time : ℤ) : K :=
  rules.maxSpeed * (time / 1000)

/-- Clean samples in a row: the second one is later and further along, but not by as much as a
vehicle gets in the time. -/
def Sample.Precedes (rules : Config.Smoothing K) (a b : Sample K) : Prop :=
  a.along < b.along ∧ a.time < b.time ∧ b.along - a.along < rules.reach (b.time - a.time)

instance (rules : Config.Smoothing K) (a b : Sample K) : Decidable (a.Precedes rules b) :=
  inferInstanceAs (Decidable (_ ∧ _ ∧ _))

/-- With at least `shortest` and at most `longest` milliseconds from the first sample to the
second. -/
def Sample.IsEven (shortest longest : ℤ) (a b : Sample K) : Prop :=
  shortest ≤ b.time - a.time ∧ b.time - a.time ≤ longest

instance (shortest longest : ℤ) (a b : Sample K) : Decidable (a.IsEven shortest longest b) :=
  inferInstanceAs (Decidable (_ ∧ _))

section Steps

variable [IsStrictOrderedRing K] {step a b : K}

theorem sub_le_of_steps : ∀ {x : K} {older : List K},
    (x :: older ++ [a]).IsChain (fun x y => y - x ≤ step) → a - x ≤ (older.length + 1) * step
  | x, [], h => by simpa using h
  | x, y :: older, h => by
    obtain ⟨hstep, h⟩ := List.isChain_cons_cons.1 h
    have hrest := sub_le_of_steps h
    push_cast [List.length_cons]
    linarith

theorem shortfall_le : ∀ {older : List K}, (older ++ [a]).IsChain (fun x y => y - x ≤ step) →
    older.length * a - older.sum ≤ older.length * (older.length + 1) / 2 * step
  | [], _ => by simp
  | x :: older, h => by
    have hfirst := sub_le_of_steps h
    have hrest := shortfall_le h.tail
    push_cast [List.length_cons, List.sum_cons]
    linarith

/-- The average of up to five places that come in short steps is not far behind the last but one. -/
theorem sub_average_lt {older : List K} (hroom : older.length ≤ 3) (hstep : 0 ≤ step)
    (h : (older ++ [a]).IsChain (fun x y => y - x ≤ step)) (hab : a < b) :
    a - (older ++ [a, b]).sum / (older ++ [a, b]).length < 6 / 5 * step := by
  have hsum : (older ++ [a, b]).sum = older.sum + a + b := by simp [add_assoc]
  have hlength : ((older ++ [a, b]).length : K) = older.length + 2 := by simp
  have hpos : (0 : K) < older.length + 2 := by positivity
  have hshort := shortfall_le h
  have hfew : (older.length : K) * (older.length + 1) / 2 ≤ 6 / 5 * (older.length + 2) := by
    interval_cases older.length <;> norm_num
  have hsteps := mul_le_mul_of_nonneg_right hfew hstep
  rw [hsum, hlength, sub_lt_comm, lt_div_iff₀ hpos]
  linarith

end Steps

section Standard

variable [FloorRing K]

theorem standard_rawWeight :
    (@Config.Smoothing.standard K (Scalar.exact K)).rawWeight = 7 / 10 := by
  simp [Config.Smoothing.standard, Scalar.exact_ofNat]

theorem standard_backwardJump :
    (@Config.Smoothing.standard K (Scalar.exact K)).backwardJump = 50 := by
  simp [Config.Smoothing.standard, Scalar.exact_ofNat]

theorem standard_reach (time : ℤ) :
    (@Config.Smoothing.standard K (Scalar.exact K)).reach time = 50 * (time / 1000) := by
  simp [Config.Smoothing.reach, Config.Smoothing.standard, Scalar.exact_ofNat]

variable [IsStrictOrderedRing K]

theorem standard_rawWeight_mem :
    (@Config.Smoothing.standard K (Scalar.exact K)).rawWeight ∈ Set.Ioc 0 1 := by
  rw [standard_rawWeight]
  constructor <;> norm_num

theorem standard_rest_pos :
    0 < 1 - (@Config.Smoothing.standard K (Scalar.exact K)).rawWeight := by
  rw [standard_rawWeight]
  norm_num

theorem standard_backwardJump_nonneg :
    0 ≤ (@Config.Smoothing.standard K (Scalar.exact K)).backwardJump := by
  rw [standard_backwardJump]
  norm_num

theorem standard_reach_le {time later : ℤ} (h : time ≤ later) :
    (@Config.Smoothing.standard K (Scalar.exact K)).reach time
      ≤ (@Config.Smoothing.standard K (Scalar.exact K)).reach later := by
  have hcast : (time : K) ≤ later := Int.cast_le.2 h
  rw [standard_reach, standard_reach]
  linarith

/-- With the standard thresholds and at a nearly even rate, what a vehicle gets on counts for more
than what the average of the samples kept falls short. -/
theorem standard_outweighs {gap shortest longest : ℤ} {short : K} (hgap : shortest ≤ gap)
    (heven : 18 * longest ≤ 35 * shortest)
    (hshort : short < 6 / 5 * (@Config.Smoothing.standard K (Scalar.exact K)).reach longest) :
    (1 - (@Config.Smoothing.standard K (Scalar.exact K)).rawWeight) * short
      < (@Config.Smoothing.standard K (Scalar.exact K)).rawWeight
        * (@Config.Smoothing.standard K (Scalar.exact K)).reach gap := by
  have hslowest : (18 * longest : K) ≤ 35 * shortest := by exact_mod_cast heven
  have hgap : (shortest : K) ≤ gap := Int.cast_le.2 hgap
  rw [standard_reach] at hshort ⊢
  rw [standard_rawWeight]
  linarith

end Standard

namespace Smoother

variable [FloorRing K]

attribute [local instance] Scalar.exact

/-- A sample is out of reach, and what a vehicle gets on counts for no more than what progress is
ahead of the average of the samples kept. -/
def HoldsBack (rules : Config.Smoothing K) (s : Smoother K) (a : Sample K) : Prop :=
  s.progress + rules.maxSpeed * s.elapsed a.time < a.along
    ∧ rules.rawWeight * (rules.maxSpeed * s.elapsed a.time)
      ≤ (1 - rules.rawWeight) * (s.progress - average (remember rules s.history a.along))

/-- None of some samples is held back. -/
def HoldsNoneBack (rules : Config.Smoothing K) (s : Smoother K) (samples : List (Sample K)) : Prop :=
  ∀ before a after, samples = before ++ a :: after → ¬ (s.takeAll rules before).HoldsBack rules a

theorem holdsNoneBack_cons {rules : Config.Smoothing K} {s : Smoother K} {a : Sample K}
    {samples : List (Sample K)} : s.HoldsNoneBack rules (a :: samples)
      ↔ ¬ s.HoldsBack rules a ∧ (s.take rules a).HoldsNoneBack rules samples := by
  constructor
  · intro h
    exact ⟨h [] a samples rfl, fun before b after heq => h (a :: before) b after (by rw [heq]; rfl)⟩
  · rintro ⟨hfirst, hrest⟩ (_ | ⟨a', before⟩) b after heq
    · obtain ⟨rfl, -⟩ := List.cons.inj heq
      exact hfirst
    · obtain ⟨rfl, hsamples⟩ := List.cons.inj heq
      exact hrest before b after hsamples

/-- Samples have come further and further along, and progress is not ahead of what the newest of
them makes it when it is within reach. -/
structure Trails (rules : Config.Smoothing K) (s : Smoother K) (a : Sample K) : Prop where
  newest : s.newest? = some a
  ascending : s.history.Pairwise (· ≤ ·)
  behind : s.progress ≤ rules.rawWeight * a.along + (1 - rules.rawWeight) * average s.history

variable [IsStrictOrderedRing K] {rules : Config.Smoothing K} {s : Smoother K} {a b : Sample K}

section Average

variable {x : K} {samples : List K}

theorem average_cons_le (hne : samples ≠ []) (h : ∀ y ∈ samples, x ≤ y) :
    average (x :: samples) ≤ average samples := by
  have hpos : (0 : K) < samples.length := Nat.cast_pos.2 (List.length_pos_of_ne_nil hne)
  have hsum := List.card_nsmul_le_sum samples x h
  rw [nsmul_eq_mul] at hsum
  rw [average_eq, average_eq, List.sum_cons, List.length_cons, Nat.cast_succ,
    div_le_div_iff₀ (by linarith) hpos]
  linarith

theorem average_le_concat (hne : samples ≠ []) (h : ∀ y ∈ samples, y ≤ x) :
    average samples ≤ average (samples ++ [x]) := by
  have hpos : (0 : K) < samples.length := Nat.cast_pos.2 (List.length_pos_of_ne_nil hne)
  have hsum := List.sum_le_card_nsmul samples x h
  rw [nsmul_eq_mul] at hsum
  rw [average_eq, average_eq, List.sum_append, List.sum_singleton, List.length_append,
    List.length_singleton, Nat.cast_succ, div_le_div_iff₀ hpos (by linarith)]
  linarith

theorem average_le_drop : ∀ {samples : List K} (k : ℕ), samples.Pairwise (· ≤ ·) →
    k < samples.length → average samples ≤ average (samples.drop k)
  | _, 0, _, _ => le_rfl
  | x :: samples, k + 1, h, hk => by
    rw [List.length_cons, Nat.add_lt_add_iff_right] at hk
    have hne : samples ≠ [] := List.ne_nil_of_length_pos (by omega)
    rw [List.pairwise_cons] at h
    exact (average_cons_le hne h.1).trans (average_le_drop k h.2 hk)

end Average

theorem average_le_remember {history : List K} {x y : K} (h : history.Pairwise (· ≤ ·))
    (hlast : history.getLast? = some x) (hxy : x ≤ y) :
    average history ≤ average (remember rules history y) := by
  have hne : history ≠ [] := by
    rintro rfl
    cases hlast
  have hall := ascending_concat h hlast hxy
  have hupper : ∀ z ∈ history, z ≤ y := fun z hz =>
    (List.pairwise_append.1 hall).2.2 z hz y (List.mem_singleton_self y)
  have hkept : (history ++ [y]).length - max rules.capacity 1 < (history ++ [y]).length := by
    rw [List.length_append, List.length_singleton]
    omega
  exact (average_le_concat hne hupper).trans (average_le_drop _ hall hkept)

namespace Trails

theorem progress_le (h : s.Trails rules a) (hweight : rules.rawWeight ∈ Set.Ioc 0 1) :
    s.progress ≤ a.along := by
  obtain ⟨hlast, -⟩ := newest?_eq_some.1 h.newest
  have hall := ascending_concat h.ascending hlast le_rfl
  have hne : s.history ≠ [] := by
    intro hempty
    rw [hempty] at hlast
    cases hlast
  have haverage : average s.history ≤ a.along :=
    average_le hne fun x hx => (List.pairwise_append.1 hall).2.2 x hx _ (List.mem_singleton_self _)
  have hrest := mul_le_mul_of_nonneg_left haverage (sub_nonneg.2 hweight.2)
  linarith [h.behind]

theorem next_eq (h : s.Trails rules a) (hweight : rules.rawWeight ∈ Set.Ioc 0 1)
    (hjump : 0 ≤ rules.backwardJump) (hab : a.along ≤ b.along) :
    s.next rules b.along b.time
      = blend rules s.progress (s.elapsed b.time) b.along (remember rules s.history b.along) := by
  have htime : s.time ≠ none := by simp [(newest?_eq_some.1 h.newest).2]
  rw [next_of_time htime, if_neg]
  rintro ⟨hbehind, -⟩
  have hbehind : rules.backwardJump < s.progress - b.along := hbehind
  have hprogress := h.progress_le hweight
  linarith

theorem take (h : s.Trails rules a) (hweight : rules.rawWeight ∈ Set.Ioc 0 1)
    (hjump : 0 ≤ rules.backwardJump) (hab : a.along ≤ b.along) :
    (s.take rules b).Trails rules b where
  newest := newest?_update rules s b.along b.time
  ascending :=
    (ascending_concat h.ascending (newest?_eq_some.1 h.newest).1 hab).sublist (List.drop_sublist _ _)
  behind := by
    show s.next rules b.along b.time ≤ _
    rw [h.next_eq hweight hjump hab, blend_eq]
    have hreached := mul_le_mul_of_nonneg_left
      (min_le_left b.along (s.progress + rules.maxSpeed * s.elapsed b.time)) hweight.1.le
    exact add_le_add_left hreached _

/-- Progress grows by a sample further along, unless that is held back. -/
theorem lt_take_iff (h : s.Trails rules a) (hweight : rules.rawWeight ∈ Set.Ioc 0 1)
    (hjump : 0 ≤ rules.backwardJump) (hab : a.along < b.along) :
    s.progress < (s.take rules b).progress ↔ ¬ s.HoldsBack rules b := by
  have hnext : (s.take rules b).progress = _ := h.next_eq hweight hjump hab.le
  rw [hnext, blend_eq]
  unfold HoldsBack
  by_cases hreach : b.along ≤ s.progress + rules.maxSpeed * s.elapsed b.time
  · -- the sample counts in full, and both it and the average are further along than before
    rw [min_eq_left hreach]
    refine iff_of_true ?_ fun hheld => absurd hheld.1 hreach.not_gt
    have haverage : average s.history ≤ average (remember rules s.history b.along) :=
      average_le_remember h.ascending (newest?_eq_some.1 h.newest).1 hab.le
    have hgain := mul_lt_mul_of_pos_left hab hweight.1
    have hrest := mul_le_mul_of_nonneg_left haverage (sub_nonneg.2 hweight.2)
    linarith [h.behind]
  · -- the sample counts for what a vehicle gets on, and that has to outweigh the average
    have hreach := not_le.1 hreach
    rw [min_eq_right hreach.le, not_and, not_le]
    constructor
    · intro hgrows _
      linarith
    · intro hgrows
      linarith [hgrows hreach]

theorem grows_iff_holdsNoneBack (hweight : rules.rawWeight ∈ Set.Ioc 0 1)
    (hjump : 0 ≤ rules.backwardJump) : ∀ {samples : List (Sample K)} {s : Smoother K} {a : Sample K},
      s.Trails rules a → (a :: samples).IsChain (fun a b => a.along < b.along) →
        ((s.progress :: s.progresses rules samples).IsChain (· < ·)
          ↔ s.HoldsNoneBack rules samples)
  | [], s, a, _, _ => iff_of_true (.singleton _) (by simp [HoldsNoneBack])
  | b :: samples, s, a, h, hchain => by
    obtain ⟨hab, hchain⟩ := List.isChain_cons_cons.1 hchain
    have ih := grows_iff_holdsNoneBack hweight hjump (h.take hweight hjump hab.le) hchain
    rw [progresses, List.isChain_cons_cons, holdsNoneBack_cons, ih,
      h.lt_take_iff hweight hjump hab]

omit [IsStrictOrderedRing K] in
theorem maxSpeed_mul_elapsed (h : s.Trails rules a) (hle : a.time ≤ b.time) :
    rules.maxSpeed * s.elapsed b.time = rules.reach (b.time - a.time) := by
  simp only [elapsed, (newest?_eq_some.1 h.newest).2, Scalar.exact_wrap,
    max_eq_left (sub_nonneg.2 hle), Scalar.exact_ofInt, Scalar.exact_ofNat, Nat.cast_ofNat,
    Config.Smoothing.reach]

section Even

variable {shortest longest : ℤ} (heven : 18 * longest ≤ 35 * shortest)

include heven

theorem not_holdsBack_of_even (h : s.Trails .standard a)
    (hsteps : s.history.IsChain fun x y => y - x ≤ Config.Smoothing.standard.reach longest)
    (hclean : a.Precedes .standard b) (hab : a.IsEven shortest longest b) :
    ¬ s.HoldsBack .standard b := by
  rintro ⟨-, hheld⟩
  have hroom : 2 ≤ (Config.Smoothing.standard : Config.Smoothing K).capacity :=
    show 2 ≤ 5 by decide
  obtain ⟨older, hkept, hfew, hsuffix⟩ :=
    exists_remember b.along (newest?_eq_some.1 h.newest).1 hroom
  have hfew : older.length + 2 ≤ 5 := hfew
  have hstep : 0 ≤ (Config.Smoothing.standard : Config.Smoothing K).reach longest :=
    (sub_pos.2 hclean.1).le.trans (hclean.2.2.le.trans (standard_reach_le hab.2))
  have hnear := sub_average_lt (by omega) hstep (hsteps.suffix hsuffix) hclean.1
  rw [← hkept, ← average_eq] at hnear
  have hshort := (sub_le_sub_right (h.progress_le standard_rawWeight_mem) _).trans_lt hnear
  rw [h.maxSpeed_mul_elapsed hclean.2.1.le] at hheld
  exact absurd hheld (standard_outweighs hab.1 heven hshort).not_ge

theorem holdsNoneBack_of_even : ∀ {samples : List (Sample K)} {s : Smoother K} {a : Sample K},
    s.Trails .standard a →
    (s.history.IsChain fun x y => y - x ≤ Config.Smoothing.standard.reach longest) →
    (a :: samples).IsChain (Sample.Precedes .standard) →
    (a :: samples).IsChain (Sample.IsEven shortest longest) → s.HoldsNoneBack .standard samples
  | [], _, _, _, _, _, _ => by simp [HoldsNoneBack]
  | b :: samples, s, a, h, hsteps, hclean, hrate => by
    obtain ⟨hab, hclean⟩ := List.isChain_cons_cons.1 hclean
    obtain ⟨hgap, hrate⟩ := List.isChain_cons_cons.1 hrate
    refine holdsNoneBack_cons.2 ⟨h.not_holdsBack_of_even heven hsteps hab hgap, ?_⟩
    refine holdsNoneBack_of_even
      (h.take standard_rawWeight_mem standard_backwardJump_nonneg hab.1.le) ?_ hclean hrate
    have hall : (s.history ++ [b.along]).IsChain fun x y =>
        y - x ≤ Config.Smoothing.standard.reach longest := by
      refine List.isChain_append.2 ⟨hsteps, .singleton _, fun x hx y hy => ?_⟩
      obtain rfl := Option.some.inj ((newest?_eq_some.1 h.newest).1.symm.trans hx)
      obtain rfl := Option.some.inj hy
      exact hab.2.2.le.trans (standard_reach_le hgap.2)
    exact hall.suffix (List.drop_suffix _ _)

end Even

end Trails

omit [IsStrictOrderedRing K] in
theorem trails_take (rules : Config.Smoothing K) (a : Sample K) :
    ((fresh : Smoother K).take rules a).Trails rules a where
  newest := newest?_update rules fresh a.along a.time
  ascending := by
    show (remember rules [] a.along).Pairwise (· ≤ ·)
    rw [remember_nil]
    exact List.pairwise_singleton _ _
  behind := by
    show a.along ≤ rules.rawWeight * a.along
      + (1 - rules.rawWeight) * average (remember rules [] a.along)
    rw [remember_nil, average_singleton]
    exact le_of_eq (by ring)

theorem not_holdsBack_fresh (a : Sample K) : ¬ (fresh : Smoother K).HoldsBack .standard a := by
  have hprogress : (fresh : Smoother K).progress = 0 := Scalar.exact_zero
  have helapsed : (fresh : Smoother K).elapsed a.time = 0 := Scalar.exact_zero
  have hkept : remember .standard (fresh : Smoother K).history a.along = [a.along] :=
    remember_nil _ _
  unfold HoldsBack
  rw [hprogress, helapsed, hkept, average_singleton, mul_zero, mul_zero, zero_add, zero_sub]
  rintro ⟨hahead, hheld⟩
  have hrest : 0 < 1 - (Config.Smoothing.standard : Config.Smoothing K).rawWeight :=
    standard_rest_pos
  exact absurd hheld (mul_neg_of_pos_of_neg hrest (neg_neg_of_pos hahead)).not_ge

/-- With the standard thresholds, a fresh smoother has its progress grow with clean samples just if
none of them is held back, and so always at a nearly even rate, where no gap between samples is
about twice as long as another one. -/
theorem grows_iff {samples : List (Sample K)}
    (hclean : samples.IsChain (Sample.Precedes .standard)) :
    (((fresh : Smoother K).progresses .standard samples).Pairwise (· < ·)
        ↔ (fresh : Smoother K).HoldsNoneBack .standard samples)
      ∧ ∀ shortest longest : ℤ, 18 * longest ≤ 35 * shortest →
        samples.IsChain (Sample.IsEven shortest longest) →
          ((fresh : Smoother K).progresses .standard samples).Pairwise (· < ·) := by
  rcases samples with _ | ⟨a, samples⟩
  · exact ⟨iff_of_true .nil (by simp [HoldsNoneBack]), fun _ _ _ _ => .nil⟩
  have htrails := trails_take .standard a
  have hgrows : ((fresh : Smoother K).progresses .standard (a :: samples)).Pairwise (· < ·)
      ↔ (fresh.take .standard a).HoldsNoneBack .standard samples := by
    rw [← List.isChain_iff_pairwise]
    exact htrails.grows_iff_holdsNoneBack standard_rawWeight_mem standard_backwardJump_nonneg
      (hclean.imp fun _ _ h => h.1)
  refine ⟨?_, fun shortest longest heven hrate => hgrows.2 ?_⟩
  · rw [hgrows, holdsNoneBack_cons, and_iff_right (not_holdsBack_fresh a)]
  · refine htrails.holdsNoneBack_of_even heven ?_ hclean hrate
    show (remember _ [] a.along).IsChain _
    rw [remember_nil]
    exact .singleton _

end Smoother

namespace Trial

/-- Out of a tunnel after five kilometers, and on. -/
def tunnelled : List (Sample ℚ) := [⟨0, 0⟩, ⟨5000, 101000⟩, ⟨5010, 102000⟩]

/-- At a pace that is hardly uneven. -/
def paced : List (Sample ℚ) := [⟨0, 0⟩, ⟨12, 1000⟩, ⟨50, 2300⟩, ⟨60, 3000⟩, ⟨61, 4200⟩]

end Trial

namespace Smoother

theorem grows_iff_paced :
    ((fresh : Smoother ℚ).progresses .standard Trial.paced).Pairwise (· < ·)
      ∧ ¬ (fresh : Smoother ℚ).HoldsNoneBack .standard Trial.tunnelled := by
  have hpaced : Trial.paced.IsChain (Sample.Precedes .standard) := by decide +kernel
  have hrate : Trial.paced.IsChain (Sample.IsEven 700 1300) := by decide +kernel
  have htunnelled : Trial.tunnelled.IsChain (Sample.Precedes .standard) := by decide +kernel
  refine ⟨(grows_iff hpaced).2 700 1300 (by decide) hrate, fun hnone => ?_⟩
  have hgrows := (grows_iff htunnelled).1.2 hnone
  revert hgrows
  decide +kernel

/-- Ten meters beyond the end of the tunnel progress steps back by more than two hundred. -/
theorem clean_samples_shrink : ¬ ∀ samples : List (Sample ℚ),
    samples.IsChain (Sample.Precedes .standard) →
    ((fresh : Smoother ℚ).progresses .standard samples).Pairwise (· < ·) := by
  intro hgrow
  have hclean : Trial.tunnelled.IsChain (Sample.Precedes .standard) := by decide +kernel
  have hgrows := hgrow Trial.tunnelled hclean
  revert hgrows
  decide +kernel

end Smoother

end Roadbook

import Mathlib.Tactic.FieldSimp
import Roadbook.Proofs.Progress.Smoother

/-!
# Steps back

A long step back is taken only at a sample that steps back itself, together with enough of the other
samples kept. But a sample that was turned down is kept, and the average that later samples are
blended with may draw progress back a long way although too few samples agree on that
(`Smoother.Slips`): just when what the average falls short outweighs what the sample has to spare
(`Smoother.IsDragged`, `Smoother.slips_iff`). Only few thresholds leave no room for this
(`Smoother.never_slips_iff`).
-/

namespace Roadbook

namespace Smoother

variable {α : Type} [Scalar α]

/-- The smoothers that samples and forced progress lead to. One that is reset is fresh again. -/
inductive Reachable (rules : Config.Smoothing α) : Smoother α → Prop
  | fresh : Reachable rules fresh
  | update {s : Smoother α} (h : Reachable rules s) (sample : α) (time : Int) :
    Reachable rules (s.update rules sample time)
  | force {s : Smoother α} (h : Reachable rules s) (progress : α) :
    Reachable rules (s.force progress)

/-- Enough of the samples kept, a new one among them, are a long step back. -/
def Corroborates (rules : Config.Smoothing α) (s : Smoother α) (sample : α) : Prop :=
  rules.corroboration
    ≤ (remember rules s.history sample).countP fun a => IsBehind rules s.progress a

instance (rules : Config.Smoothing α) (s : Smoother α) (sample : α) :
    Decidable (s.Corroborates rules sample) :=
  inferInstanceAs (Decidable (_ ≤ _))

/-- A sample makes progress step back a long way, and too few of the samples kept agree. -/
def Slips (rules : Config.Smoothing α) (s : Smoother α) (sample : α) (time : Int) : Prop :=
  IsBehind rules s.progress (s.next rules sample time) ∧ ¬ s.Corroborates rules sample

instance (rules : Config.Smoothing α) (s : Smoother α) (sample : α) (time : Int) :
    Decidable (s.Slips rules sample time) :=
  inferInstanceAs (Decidable (_ ∧ _))

end Smoother

variable {K : Type} [Field K] [LinearOrder K]

/-- Thresholds with which progress takes no long step back unless enough samples agree: none has
to, or a single one has to and is there, or nothing counts but a sample that is no long step back
itself. -/
def Config.Smoothing.IsFirm (rules : Config.Smoothing K) : Prop :=
  rules.corroboration = 0
    ∨ rules.corroboration = 1 ∧ (0 ≤ rules.backwardJump ∨ rules.rawWeight = 0)
    ∨ 0 ≤ rules.backwardJump ∧ (rules.rawWeight = 1 ∨ rules.capacity ≤ 1)

namespace Smoother

/-- Two samples of which one is this far back fall short by more than a long step, even where the
other one counts for more than their average. -/
theorem exists_back [IsStrictOrderedRing K] {weight jump : K} (hweight : weight ∈ Set.Ico 0 1)
    (hjump : 0 ≤ jump) : ∃ back, jump < back
      ∧ ∀ p, weight * jump < (1 - weight) * (p - jump - (p - back + p) / 2) := by
  have hrest : 0 < 1 - weight := sub_pos.2 hweight.2
  refine ⟨2 * (jump + 1) / (1 - weight), (lt_div_iff₀ hrest).2 ?_, fun p => ?_⟩
  · have hpart : jump * (1 - weight) ≤ jump :=
      mul_le_of_le_one_right hjump (sub_le_self _ hweight.1)
    linarith
  · have hshort : (1 - weight) * (p - jump - (p - 2 * (jump + 1) / (1 - weight) + p) / 2)
        = jump + 1 - (1 - weight) * jump := by
      field_simp
      ring
    rw [hshort]
    linarith

/-- The least progress that is no long step back. -/
def limit (rules : Config.Smoothing K) (s : Smoother K) : K := s.progress - rules.backwardJump

variable [FloorRing K]

attribute [local instance] Scalar.exact

/-- A sample is no long step back, but by less than the average of the samples kept is one. -/
def IsDragged (rules : Config.Smoothing K) (s : Smoother K) (sample : K) (time : Int) : Prop :=
  s.limit rules ≤ sample
    ∧ rules.rawWeight
        * (min sample (s.progress + rules.maxSpeed * s.elapsed time) - s.limit rules)
      < (1 - rules.rawWeight) * (s.limit rules - average (remember rules s.history sample))

variable [IsStrictOrderedRing K] {rules : Config.Smoothing K} {s : Smoother K} {sample : K}
  {time : Int}

theorem isBehind_iff {a : K} : IsBehind rules s.progress a ↔ a < s.limit rules := lt_sub_comm

/-- With too few samples in agreement, progress takes a long step back at a sample that does not, as
the average drags it there. If standing still counts as a long step back, it takes one also at a
sample that is turned down. -/
theorem slips_iff (hs : s.time ≠ none) : s.Slips rules sample time
    ↔ ¬ s.Corroborates rules sample
      ∧ (rules.backwardJump < 0 ∧ sample < s.limit rules ∨ s.IsDragged rules sample time) := by
  unfold Slips
  rw [and_comm, and_congr_right_iff]
  intro hfew
  have hstill : s.progress < s.limit rules ↔ rules.backwardJump < 0 := by
    unfold limit
    exact ⟨fun h => by linarith, fun h => by linarith⟩
  have hdrags : blend rules s.progress (s.elapsed time) sample (remember rules s.history sample)
        < s.limit rules
      ↔ rules.rawWeight
          * (min sample (s.progress + rules.maxSpeed * s.elapsed time) - s.limit rules)
        < (1 - rules.rawWeight)
          * (s.limit rules - average (remember rules s.history sample)) := by
    rw [blend_eq]
    constructor <;> intro h <;> linarith
  rw [isBehind_iff, next_of_time hs]
  by_cases hbehind : sample < s.limit rules
  · have hout : IsOutlier rules s.progress sample (remember rules s.history sample) :=
      ⟨isBehind_iff.2 hbehind, not_le.1 hfew⟩
    simp [hout, hstill, hbehind, IsDragged]
  · have hin : ¬ IsOutlier rules s.progress sample (remember rules s.history sample) :=
      fun hout => hbehind (isBehind_iff.1 hout.1)
    simp [hin, hdrags, hbehind, IsDragged, not_lt.1 hbehind]

theorem limit_le_of_not_corroborates (hone : rules.corroboration = 1)
    (hfew : ¬ s.Corroborates rules sample) :
    ∀ a ∈ remember rules s.history sample, s.limit rules ≤ a := by
  intro a ha
  rw [Corroborates, hone, not_le, Nat.lt_one_iff, List.countP_eq_zero] at hfew
  have hno := hfew a ha
  rw [decide_eq_true_eq, isBehind_iff] at hno
  exact not_lt.1 hno

theorem limit_le_reached (hspeed : 0 ≤ rules.maxSpeed) (hjump : 0 ≤ rules.backwardJump)
    (hsample : s.limit rules ≤ sample) (time : Int) :
    s.limit rules ≤ min sample (s.progress + rules.maxSpeed * s.elapsed time) := by
  have hfurther : 0 ≤ rules.maxSpeed * s.elapsed time := mul_nonneg hspeed (s.elapsed_nonneg time)
  refine le_min hsample ?_
  unfold limit
  linarith

theorem not_isDragged (hweight : rules.rawWeight ∈ Set.Icc 0 1) (hspeed : 0 ≤ rules.maxSpeed)
    (hjump : 0 ≤ rules.backwardJump)
    (haverage : rules.rawWeight = 1
      ∨ s.limit rules ≤ average (remember rules s.history sample)) :
    ¬ s.IsDragged rules sample time := by
  rintro ⟨hsample, hdrags⟩
  have hreached := limit_le_reached hspeed hjump hsample time
  have hspare : 0 ≤ rules.rawWeight
      * (min sample (s.progress + rules.maxSpeed * s.elapsed time) - s.limit rules) :=
    mul_nonneg hweight.1 (sub_nonneg.2 hreached)
  have hshort : (1 - rules.rawWeight)
      * (s.limit rules - average (remember rules s.history sample)) ≤ 0 := by
    rcases haverage with hall | haverage
    · rw [hall, sub_self, zero_mul]
    · exact mul_nonpos_of_nonneg_of_nonpos (sub_nonneg.2 hweight.2) (sub_nonpos.2 haverage)
  exact absurd hdrags (hshort.trans hspare).not_gt

theorem not_slips_of_isFirm (hweight : rules.rawWeight ∈ Set.Icc 0 1)
    (hspeed : 0 ≤ rules.maxSpeed) (hfirm : rules.IsFirm) (hs : s.time ≠ none) :
    ¬ s.Slips rules sample time := by
  rw [slips_iff hs]
  rintro ⟨hfew, hslips⟩
  have hne := remember_ne_nil rules s.history sample
  rcases hfirm with hnone | ⟨hone, hfirm⟩ | ⟨hjump, hfirm⟩
  · rw [Corroborates, hnone] at hfew
    exact hfew (Nat.zero_le _)
  · have hkept := limit_le_of_not_corroborates hone hfew
    have haverage := le_average hne hkept
    have hsample : s.limit rules ≤ sample := hkept sample (by simp [remember_eq])
    rcases hslips with ⟨-, hbehind⟩ | hdragged
    · exact absurd hbehind hsample.not_gt
    rcases hfirm with hjump | hweightless
    · exact not_isDragged hweight hspeed hjump (.inr haverage) hdragged
    · have hdrags := hdragged.2
      rw [hweightless, zero_mul, sub_zero, one_mul, sub_pos] at hdrags
      exact absurd hdrags haverage.not_gt
  · rcases hslips with ⟨hneg, -⟩ | hdragged
    · exact absurd hneg hjump.not_gt
    refine not_isDragged hweight hspeed hjump (hfirm.imp_right fun hsingle => ?_) hdragged
    have honly : remember rules s.history sample = [sample] := by
      rw [remember_eq, max_eq_right hsingle, Nat.add_sub_cancel, List.drop_length, List.nil_append]
    rw [honly] at hne ⊢
    exact le_average hne (List.forall_mem_singleton.2 hdragged.1)

section Empty

variable (hhistory : s.history = [])

include hhistory

omit [IsStrictOrderedRing K] in
theorem not_corroborates_of_empty (htwo : 2 ≤ rules.corroboration) (sample : K) :
    ¬ s.Corroborates rules sample := by
  rw [Corroborates, hhistory, remember_nil, List.countP_singleton]
  split_ifs <;> omega

variable (htime : s.time = some time)

include htime

theorem slips_standing (hjump : rules.backwardJump < 0) (htwo : 2 ≤ rules.corroboration) :
    s.Slips rules s.progress time := by
  have hbehind : s.progress < s.limit rules := by
    unfold limit
    linarith
  exact (slips_iff (by simp [htime])).2
    ⟨not_corroborates_of_empty hhistory htwo _, .inl ⟨hjump, hbehind⟩⟩

/-- Where standing still counts as a long step back, a sample that is none itself but cannot be
reached leads to one. -/
theorem slips_short (hjump : rules.backwardJump < 0) (hsome : rules.corroboration ≠ 0)
    (hweight : 0 < rules.rawWeight) : s.Slips rules (s.limit rules) time := by
  have hfar : s.progress < s.limit rules := by
    unfold limit
    linarith
  refine (slips_iff (by simp [htime])).2 ⟨?_, .inr ⟨le_rfl, ?_⟩⟩
  · have hno : ¬ IsBehind rules s.progress (s.limit rules) := by
      rw [isBehind_iff]
      exact lt_irrefl _
    rw [Corroborates, hhistory, remember_nil, List.countP_singleton]
    simpa [hno] using hsome
  · rw [hhistory, remember_nil, average_singleton, elapsed_self htime, mul_zero, add_zero,
      min_eq_right hfar.le, sub_self, mul_zero]
    exact mul_neg_of_pos_of_neg hweight (sub_neg.2 hfar)

/-- After a sample that was turned down, progress is drawn back at a sample where progress is. -/
theorem slips_after (hweight : rules.rawWeight ∈ Set.Ico 0 1) (hjump : 0 ≤ rules.backwardJump)
    (htwo : 2 ≤ rules.corroboration) (hroom : 2 ≤ rules.capacity) :
    ∃ outlier, (s.update rules outlier time).Slips rules s.progress time := by
  obtain ⟨back, hlong, hshort⟩ := exists_back hweight hjump
  have hback : s.progress - back < s.limit rules := sub_lt_sub_left hlong _
  have hstands : (s.update rules (s.progress - back) time).progress = s.progress := by
    have hout : IsOutlier rules s.progress (s.progress - back)
        (remember rules s.history (s.progress - back)) :=
      ⟨isBehind_iff.2 hback, not_le.1 (not_corroborates_of_empty hhistory htwo _)⟩
    exact (next_of_time (by simp [htime])).trans (if_pos hout)
  have hlimit : (s.update rules (s.progress - back) time).limit rules = s.limit rules := by
    rw [limit, hstands, limit]
  have hkept : remember rules (s.update rules (s.progress - back) time).history s.progress
      = [s.progress - back, s.progress] := by
    show remember rules (remember rules s.history (s.progress - back)) s.progress = _
    rw [hhistory, remember_nil, remember_of_room (by exact hroom), List.singleton_append]
  refine ⟨s.progress - back, (slips_iff (by simp [update])).2 ⟨?_, .inr ⟨?_, ?_⟩⟩⟩
  · have hhere : ¬ IsBehind rules s.progress s.progress := by
      rw [IsBehind, sub_self]
      exact hjump.not_gt
    rw [Corroborates, hkept, hstands, List.countP_cons, List.countP_singleton]
    simp only [hhere, decide_false, Bool.false_eq_true, if_false]
    split_ifs <;> omega
  · rw [hlimit]
    exact sub_le_self _ hjump
  · rw [hkept, hlimit, hstands, elapsed_self rfl, mul_zero, add_zero, min_self, average_eq]
    simpa [limit] using hshort s.progress

end Empty

/-- Where the weight of a sample is a part of the whole and no vehicle drives backwards, a sample
leads to a long step back on which too few of the samples kept agree just if it is dragged there, or
if standing still counts as one and the sample is turned down. Among all smoothers that samples,
forced progress and resets lead to there are some to which this happens, unless the thresholds are
firm. -/
theorem never_slips_iff (hweight : rules.rawWeight ∈ Set.Icc 0 1) (hspeed : 0 ≤ rules.maxSpeed) :
    (∀ s : Smoother K, s.time ≠ none → ∀ sample time, s.Slips rules sample time
        ↔ ¬ s.Corroborates rules sample
          ∧ (rules.backwardJump < 0 ∧ sample < s.limit rules ∨ s.IsDragged rules sample time))
      ∧ ((∀ s, Reachable rules s → s.time ≠ none → ∀ sample time, ¬ s.Slips rules sample time)
        ↔ rules.IsFirm) := by
  refine ⟨fun s hs sample time => slips_iff hs, fun hnever => ?_, fun hfirm s _ hs sample time =>
    not_slips_of_isFirm hweight hspeed hfirm hs⟩
  let parked : Smoother K := (fresh.update rules 0 0).force 0
  have hparked : Reachable rules parked := (Reachable.fresh.update 0 0).force 0
  by_contra hloose
  simp only [Config.Smoothing.IsFirm, not_or, not_and, not_le] at hloose
  obtain ⟨hsome, hone, hmany⟩ := hloose
  rcases lt_or_ge rules.backwardJump 0 with hjump | hjump
  · -- standing still counts as a long step back, and a sample is turned down or out of reach
    by_cases hsingle : rules.corroboration = 1
    · have hpos : 0 < rules.rawWeight := hweight.1.lt_of_ne' (hone hsingle).2
      exact hnever parked hparked nofun _ 0 (slips_short rfl rfl hjump hsome hpos)
    · have htwo : 2 ≤ rules.corroboration := by omega
      exact hnever parked hparked nofun _ 0 (slips_standing rfl rfl hjump htwo)
  · -- there is room for a sample that was turned down, and the average counts for something
    obtain ⟨hpart, hroom⟩ := hmany hjump
    have hsingle : rules.corroboration ≠ 1 := fun hsingle =>
      absurd hjump (hone hsingle).1.not_ge
    obtain ⟨outlier, hslips⟩ := slips_after (s := parked) rfl rfl
      ⟨hweight.1, hweight.2.lt_of_ne hpart⟩ hjump (by omega) hroom
    exact hnever _ (hparked.update outlier 0) nofun _ 0 hslips

end Smoother

namespace Trial

/-- At 1000 meters, just after a sample at the start of the route that was turned down. -/
def misled : Smoother ℚ := (Smoother.fresh.update .standard 1000 0).update .standard 0 1000

end Trial

namespace Smoother

theorem reachable_misled : Reachable .standard Trial.misled :=
  (Reachable.fresh.update 1000 0).update 0 1000

/-- With the standard thresholds the next good sample is dragged back. -/
theorem never_slips_misled : ¬ Config.Smoothing.IsFirm (K := ℚ) .standard
    ∧ Trial.misled.IsDragged .standard 1000 2000
    ∧ ∃ s : Smoother ℚ, Reachable .standard s ∧ s.time ≠ none
      ∧ ∃ sample time, s.Slips .standard sample time := by
  have hloose : ¬ Config.Smoothing.IsFirm (K := ℚ) .standard := by
    unfold Config.Smoothing.IsFirm
    decide +kernel
  have hslips : Trial.misled.Slips .standard 1000 2000 := by decide +kernel
  have hweight : (Config.Smoothing.standard : Config.Smoothing ℚ).rawWeight ∈ Set.Icc 0 1 :=
    ⟨by decide +kernel, by decide +kernel⟩
  obtain ⟨hdragged, hfirm⟩ := never_slips_iff hweight (by decide +kernel)
  have hjump : ¬ (Config.Smoothing.standard : Config.Smoothing ℚ).backwardJump < 0 := by
    decide +kernel
  refine ⟨hloose, ?_, ?_⟩
  · exact (((hdragged Trial.misled nofun 1000 2000).1 hslips).2).resolve_left fun h => hjump h.1
  · by_contra hnever
    push Not at hnever
    exact hloose (hfirm.1 hnever)

/-- One sample that was turned down is enough for progress to step back by a hundred meters at a
sample where progress was. -/
theorem lone_outlier_slips : ¬ ∀ (rules : Config.Smoothing ℚ) (s : Smoother ℚ) (sample : ℚ)
    (time : Int), rules.rawWeight ∈ Set.Icc 0 1 → 0 ≤ rules.maxSpeed → Reachable rules s →
    s.time ≠ none → IsBehind rules s.progress (s.next rules sample time) →
    s.Corroborates rules sample := by
  intro hagree
  have hslips : Trial.misled.Slips .standard 1000 2000 := by decide +kernel
  exact hslips.2 (hagree .standard Trial.misled 1000 2000
    ⟨by decide +kernel, by decide +kernel⟩ (by decide +kernel) reachable_misled nofun hslips.1)

end Smoother

end Roadbook

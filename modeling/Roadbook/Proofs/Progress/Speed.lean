import Roadbook.Proofs.Progress.Growth

/-!
# How far samples get unnoticed

A sample is too fast when it is further ahead of the one before than a vehicle gets in the time
between the two, and a time that goes back counts as none. So samples none of which is too fast get
on by what a vehicle reaches in all the steps forward of their times together
(`Config.Smoothing.confines_iff`), and no less than that is certain, whatever the times. Where times
go back and forth this may be more than what it reaches from the earliest of them to the latest
(`Config.Smoothing.confines_span_iff`).
-/

namespace Roadbook

/-- The steps forward from a time on, all told. -/
def climb (t : ℤ) : List ℤ → ℤ
  | [] => 0
  | u :: later => max (u - t) 0 + climb u later

/-- From the earliest to the latest of some times. -/
def span (t : ℤ) (later : List ℤ) : ℤ := later.foldl max t - later.foldl min t

theorem climb_of_pairwise : ∀ {t : ℤ} {later : List ℤ}, (t :: later).Pairwise (· ≤ ·) →
    climb t later = later.getLastD t - t
  | t, [], _ => by simp [climb]
  | t, u :: later, h => by
    obtain ⟨hfirst, hlater⟩ := List.pairwise_cons.1 h
    have htu := hfirst u List.mem_cons_self
    rw [climb, climb_of_pairwise hlater, List.getLastD_cons]
    omega

theorem foldl_of_pairwise : ∀ {t : ℤ} {later : List ℤ}, (t :: later).Pairwise (· ≤ ·) →
    later.foldl max t = later.getLastD t ∧ later.foldl min t = t
  | t, [], _ => ⟨rfl, rfl⟩
  | t, u :: later, h => by
    obtain ⟨hfirst, hlater⟩ := List.pairwise_cons.1 h
    have htu := hfirst u List.mem_cons_self
    have hskip : (t :: later).Pairwise (· ≤ ·) :=
      h.sublist ((List.sublist_cons_self _ _).cons_cons _)
    rw [List.foldl_cons, List.foldl_cons, max_eq_right htu, min_eq_left htu, List.getLastD_cons]
    exact ⟨(foldl_of_pairwise hlater).1, (foldl_of_pairwise hskip).2⟩

/-- Times in order only step forward, from the earliest to the latest. -/
theorem climb_eq_span {t : ℤ} {later : List ℤ} (h : (t :: later).Pairwise (· ≤ ·)) :
    climb t later = span t later := by
  rw [span, (foldl_of_pairwise h).1, (foldl_of_pairwise h).2, climb_of_pairwise h]

namespace Smoother

variable {α : Type} [Scalar α] {rules : Config.Smoothing α}

/-- Whether each of some samples in turn is too fast. -/
def flags (rules : Config.Smoothing α) (s : Smoother α) : List (Sample α) → List Bool
  | [] => []
  | a :: samples => (s.take rules a).outran :: (s.take rules a).flags rules samples

section Exact

variable {K : Type} [Field K] [LinearOrder K] [FloorRing K] {rules : Config.Smoothing K}

attribute [local instance] Scalar.exact

theorem outran_take {s : Smoother K} {a : Sample K} (h : s.newest? = some a) (b : Sample K) :
    (s.take rules b).outran = false ↔ a.Reaches rules b := by
  obtain ⟨hlast, htime⟩ := newest?_eq_some.1 h
  simp [take, update, outruns, hlast, elapsed, htime, Sample.Reaches, Scalar.exact_wrap]

/-- After a first sample no other is too fast just if a vehicle gets from each to the next. -/
theorem not_mem_flags_iff : ∀ {samples : List (Sample K)} {s : Smoother K} {a : Sample K},
    s.newest? = some a →
      (true ∉ s.flags rules samples ↔ (a :: samples).IsChain (Sample.Reaches rules))
  | [], _, _, _ => by simp [flags]
  | b :: samples, s, a, h => by
    have hnext : (s.take rules b).newest? = some b := newest?_update rules s b.along b.time
    rw [flags, List.mem_cons, not_or, List.isChain_cons_cons, not_mem_flags_iff hnext,
      ← outran_take h b, ← Bool.not_eq_true, eq_comm]

theorem not_mem_flags_fresh {a : Sample K} {samples : List (Sample K)} :
    true ∉ (fresh : Smoother K).flags rules (a :: samples)
      ↔ (a :: samples).IsChain (Sample.Reaches rules) := by
  rw [← not_mem_flags_iff (newest?_update rules fresh a.along a.time)]
  simp [flags, take, update, outruns, fresh]

end Exact

end Smoother

namespace Config.Smoothing

variable {K : Type} [Field K] {rules : Config.Smoothing K}

theorem reach_zero : rules.reach 0 = 0 := by simp [reach]

theorem reach_add (t u : ℤ) : rules.reach (t + u) = rules.reach t + rules.reach u := by
  simp [reach]
  ring

/-- The samples at some times of a vehicle that gets on as fast as it can. -/
def fastest (rules : Config.Smoothing K) (along : K) (t : ℤ) : List ℤ → List (Sample K)
  | [] => []
  | u :: later =>
    let next := along + rules.reach (max (u - t) 0)
    ⟨next, u⟩ :: fastest rules next u later

theorem map_time_fastest : ∀ (later : List ℤ) (along : K) (t : ℤ),
    (rules.fastest along t later).map (·.time) = later
  | [], _, _ => rfl
  | u :: later, _, _ => congrArg (u :: ·) (map_time_fastest later _ u)

theorem getLastD_fastest : ∀ (later : List ℤ) (along : K) (t : ℤ),
    ((rules.fastest along t later).getLastD ⟨along, t⟩).along
      = along + rules.reach (climb t later)
  | [], _, _ => by simp [fastest, climb, reach_zero]
  | u :: later, along, t => by
    rw [fastest, List.getLastD_cons, getLastD_fastest later, climb, reach_add, add_assoc]

variable [LinearOrder K] [FloorRing K]

attribute [local instance] Scalar.exact instOfNatAtLeastTwo

/-- Samples taken at these times lead no further than `length` if none of them is too fast. -/
def Confines (rules : Config.Smoothing K) (t : ℤ) (later : List ℤ) (length : K) : Prop :=
  ∀ (a : Sample K) (samples : List (Sample K)), a.time = t → samples.map (·.time) = later →
    true ∉ Smoother.fresh.flags rules (a :: samples) →
      (samples.getLastD a).along - a.along ≤ length

theorem reaches_iff {a b : Sample K} : a.Reaches rules b
    ↔ b.along - a.along ≤ rules.reach (max (b.time - a.time) 0) := by
  rw [Sample.Reaches, not_lt, Scalar.exact_ofInt, Scalar.exact_ofNat]
  rfl

theorem isChain_fastest : ∀ (later : List ℤ) (along : K) (t : ℤ),
    (⟨along, t⟩ :: rules.fastest along t later).IsChain (Sample.Reaches rules)
  | [], _, _ => .singleton _
  | u :: later, along, t => by
    refine .cons_cons (reaches_iff.2 ?_) (isChain_fastest later _ u)
    simp

variable [IsStrictOrderedRing K]

theorem sub_le_reach_climb : ∀ {samples : List (Sample K)} {a : Sample K},
    (a :: samples).IsChain (Sample.Reaches rules) → (samples.getLastD a).along - a.along
      ≤ rules.reach (climb a.time (samples.map (·.time)))
  | [], a, _ => by simp [climb, reach_zero]
  | b :: samples, a, h => by
    obtain ⟨hab, h⟩ := List.isChain_cons_cons.1 h
    have ih := sub_le_reach_climb h
    have hstep := reaches_iff.1 hab
    rw [List.getLastD_cons, List.map_cons, climb, reach_add]
    linarith

theorem confines_iff {t : ℤ} {later : List ℤ} {length : K} :
    rules.Confines t later length ↔ rules.reach (climb t later) ≤ length := by
  constructor
  · intro h
    -- no bound is below what the fastest samples reach
    have hfast := h ⟨0, t⟩ (rules.fastest 0 t later) rfl (map_time_fastest later 0 t)
      (Smoother.not_mem_flags_fresh.2 (isChain_fastest later 0 t))
    rwa [getLastD_fastest, add_sub_cancel_left] at hfast
  · rintro hlength a samples rfl rfl hslow
    exact (sub_le_reach_climb (Smoother.not_mem_flags_fresh.1 hslow)).trans hlength

theorem reach_le_reach_iff (hspeed : 0 ≤ rules.maxSpeed) {t u : ℤ} :
    rules.reach t ≤ rules.reach u ↔ rules.maxSpeed = 0 ∨ t ≤ u := by
  rcases hspeed.eq_or_lt with hzero | hpos
  · simp [reach, ← hzero]
  · have hseconds : (0 : K) < 1000 := by norm_num
    simp [reach, mul_le_mul_iff_right₀ hpos, div_le_div_iff_of_pos_right hseconds, hpos.ne']

/-- Samples none of which is too fast get at most as far as a vehicle does in the steps forward of
their times, and for no times is a shorter length certain. So the time from the earliest to the
latest bounds how far they get just if nothing moves or the steps forward add up to no more than
it, as they do for times in order. -/
theorem confines_span_iff (hspeed : 0 ≤ rules.maxSpeed) (t : ℤ) (later : List ℤ) :
    (∀ length, rules.Confines t later length ↔ rules.reach (climb t later) ≤ length)
      ∧ (rules.Confines t later (rules.reach (span t later))
        ↔ rules.maxSpeed = 0 ∨ climb t later ≤ span t later)
      ∧ ((t :: later).Pairwise (· ≤ ·) → climb t later = span t later) :=
  ⟨fun _ => confines_iff, confines_iff.trans (reach_le_reach_iff hspeed), climb_eq_span⟩

end Config.Smoothing

namespace Trial

/-- Two clocks a second apart tell the time by turns. -/
def byTurns : List ℤ := [1000, 0, 1000]

end Trial

namespace Config.Smoothing

theorem confines_span_iff_byTurns : (0 : ℚ) ≤ (standard : Config.Smoothing ℚ).maxSpeed
    ∧ (standard : Config.Smoothing ℚ).Confines 0 Trial.byTurns 100
    ∧ ¬ (standard : Config.Smoothing ℚ).Confines 0 Trial.byTurns
      ((standard : Config.Smoothing ℚ).reach (span 0 Trial.byTurns)) := by
  have hspeed : (0 : ℚ) ≤ (standard : Config.Smoothing ℚ).maxSpeed := by decide +kernel
  obtain ⟨hclimb, hspan, -⟩ := confines_span_iff hspeed 0 Trial.byTurns
  refine ⟨hspeed, (hclimb 100).2 (by decide +kernel), fun hconfines => ?_⟩
  have hmoves : (standard : Config.Smoothing ℚ).maxSpeed ≠ 0 := by decide +kernel
  have hback : ¬ climb 0 Trial.byTurns ≤ span 0 Trial.byTurns := by decide
  exact (hspan.1 hconfines).elim hmoves hback

/-- Within a second by the clocks, and without a sample that is too fast, it is a hundred meters,
though a vehicle gets fifty meters in a second. -/
theorem span_exceeded : ¬ ∀ (rules : Config.Smoothing ℚ) (t : ℤ) (later : List ℤ),
    0 ≤ rules.maxSpeed → rules.Confines t later (rules.reach (span t later)) := by
  intro hconfines
  have hspeed : (0 : ℚ) ≤ (standard : Config.Smoothing ℚ).maxSpeed := by decide +kernel
  have hslow : true ∉ (Smoother.fresh : Smoother ℚ).flags standard
      [⟨0, 0⟩, ⟨50, 1000⟩, ⟨50, 0⟩, ⟨100, 1000⟩] := by decide +kernel
  have hfar := hconfines standard 0 Trial.byTurns hspeed ⟨0, 0⟩
    [⟨50, 1000⟩, ⟨50, 0⟩, ⟨100, 1000⟩] rfl rfl hslow
  revert hfar
  decide +kernel

end Config.Smoothing

end Roadbook

import Mathlib.Algebra.Order.BigOperators.Group.Finset
import Mathlib.Algebra.Order.Field.Basic
import Roadbook.Proofs.Coverage.Bounds
import Roadbook.Proofs.Coverage.Calls
import Roadbook.Proofs.Coverage.Custody
import Roadbook.Proofs.Coverage.Lengths
import Roadbook.Proofs.Coverage.Partition

/-!
# The share of the road that is driven

Once a position has made a segment driven, the percentage that a tracker reports is the share of the
tracked road that lies under driven numbers (`Custody.IsCounted.percent_eq`). A driven number is
never given up (`Custody.Extends`), so the share does not fall, and what becomes of batches does not
matter to it (`Custody.IsCounted.reports`).
-/

namespace Roadbook

section Counting

variable {α : Type}

theorem Tracker.CoversAlike.percent [Scalar α] {t t' : Tracker α} (h : t'.CoversAlike t) :
    t'.percent = t.percent := by
  unfold Tracker.percent Tracker.length Tracker.drivenLength Tracker.track?
  rw [h.promoted, h.tracks, h.driven, h.baseline]

namespace Custody

/-- What a tracker counts for the percentage is what its area gives it to count, and it knows
whether a position has made anything driven. -/
structure IsCounted (area : Area α) (c : Custody α) : Prop where
  tracks : c.tracker.tracks.Perm (Tracker.gather area).tracks
  baseline : c.tracker.baseline = area.baseline
  sorts : c.tracker.Sorts area
  promoted : c.tracker.promoted = true ↔ c.driven ≠ []

/-- What was made driven is so still. -/
structure Extends (c' c : Custody α) : Prop where
  driven : c.driven <+: c'.driven
  covered : ∀ id ∈ c.tracker.driven, id ∈ c'.tracker.driven

variable {area : Area α} {c c' c'' : Custody α}

theorem Extends.refl (c : Custody α) : c.Extends c := ⟨List.prefix_rfl, fun _ => id⟩

theorem Extends.trans (h : c'.Extends c) (h' : c''.Extends c') : c''.Extends c :=
  ⟨h.driven.trans h'.driven, fun id hid => h'.covered id (h.covered id hid)⟩

theorem isCounted_start (area : Area α) (ranks : Nat → Nat) :
    (start area ranks).IsCounted area where
  tracks := Tracker.tracks_ofArea_perm area ranks
  baseline := Tracker.ofArea_baseline area ranks
  sorts := Tracker.sorts_ofArea area ranks
  promoted := by simp [start]

theorem IsCounted.congr (h : c.IsCounted area) (halike : c'.tracker.CoversAlike c.tracker)
    (hdriven : c'.driven = c.driven) : c'.IsCounted area where
  tracks := halike.tracks ▸ h.tracks
  baseline := halike.baseline.trans h.baseline
  sorts := h.sorts.congr halike
  promoted := by rw [halike.promoted, hdriven, h.promoted]

variable [Scalar α]

theorem IsCounted.percent_eq_baseline (h : c.IsCounted area) (hnone : c.driven = []) :
    c.tracker.percent = area.baseline := by
  have hpromoted : ¬ c.tracker.promoted = true := h.promoted.not.2 (not_not.2 hnone)
  rw [Tracker.percent, if_neg hpromoted, h.baseline]

variable [Geodesy α] {rules : Config.Coverage α}

/-- Nothing but a position makes a segment driven. -/
theorem exists_perform?_flush (rules : Config.Coverage α) {operation : Tracker.Operation α}
    (c : Custody α) (hflush : ∀ p, operation ≠ .observe p) :
    ∃ c', c.perform? rules operation = some c' ∧ c'.tracker.CoversAlike c.tracker
      ∧ c'.driven = c.driven := by
  cases operation with
  | observe p => exact absurd rfl (hflush p)
  | beginFlush => exact ⟨_, rfl, c.tracker.coversAlike_beginFlush, rfl⟩
  | completeFlush success => exact ⟨_, rfl, c.tracker.coversAlike_completeFlush success, rfl⟩
  | drain => exact ⟨_, rfl, c.tracker.coversAlike_drain, rfl⟩

theorem IsCounted.perform (h : c.IsCounted area) {operation : Tracker.Operation α}
    (hc : c.perform? rules operation = some c') : c'.IsCounted area ∧ c'.Extends c := by
  by_cases hflush : ∀ p, operation ≠ .observe p
  · obtain ⟨c₁, hc₁, halike, hdriven⟩ := c.exists_perform?_flush rules hflush
    obtain rfl := Option.some.inj (hc₁.symm.trans hc)
    exact ⟨h.congr halike hdriven, hdriven ▸ List.prefix_rfl, halike.driven ▸ fun _ => id⟩
  · obtain ⟨p, rfl⟩ := not_forall_not.1 hflush
    obtain ⟨⟨hits, tracker⟩, hob, rfl⟩ := Option.map_eq_some_iff.1 hc
    have hsorts := h.sorts.observe hob
    cases Tracker.observation?_eq_some hob
    refine ⟨⟨h.tracks, h.baseline, hsorts, ?_⟩, List.prefix_append _ _, fun id hid => ?_⟩
    · show (c.tracker.promoted || !(c.tracker.touched rules p).isEmpty) = true
        ↔ c.driven ++ (c.tracker.touched rules p).toList ≠ []
      rw [Bool.or_eq_true, h.promoted, ne_eq, ne_eq, List.append_eq_nil_iff, not_and_or]
      simp [IdSet.isEmpty]
    · exact IdSet.mem_union.2 (.inl hid)

theorem IsCounted.run : ∀ {operations : List (Tracker.Operation α)} {c : Custody α},
    c.IsCounted area → c.run? rules operations = some c' → c'.IsCounted area ∧ c'.Extends c
  | [], c, h, hc => by
    obtain rfl := Option.some.inj hc
    exact ⟨h, .refl c⟩
  | operation :: operations, c, h, hc => by
    obtain ⟨c₁, hfirst, hrest⟩ := Option.bind_eq_some_iff.1 hc
    obtain ⟨h₁, hextends⟩ := h.perform hfirst
    obtain ⟨h', hextends'⟩ := run h₁ hrest
    exact ⟨h', hextends.trans hextends'⟩

/-- Some operations make one account of another. -/
def Leads (rules : Config.Coverage α) (c c' : Custody α) : Prop :=
  ∃ operations, c.run? rules operations = some c'

theorem Leads.refl (c : Custody α) : c.Leads rules c := ⟨[], rfl⟩

theorem Leads.trans (h : c.Leads rules c') (h' : c'.Leads rules c'') : c.Leads rules c'' := by
  obtain ⟨operations, hrun⟩ := h
  obtain ⟨more, hmore⟩ := h'
  refine ⟨operations ++ more, ?_⟩
  unfold run? at *
  rw [List.foldlM_append, hrun]
  exact hmore

theorem Leads.of_perform (operation : Tracker.Operation α)
    (h : c.perform? rules operation = some c') : c.Leads rules c' :=
  ⟨[operation], Option.bind_eq_some_iff.2 ⟨c', h, rfl⟩⟩

end Custody

end Counting

section Share

variable {K : Type} [Field K] [LinearOrder K]

open Finset

namespace Area

/-- The share of the tracked road that lies under some numbers. -/
def share (area : Area K) (ids : IdSet) : K :=
  (∑ id ∈ area.tracked with id ∈ ids, area.meters id) / ∑ id ∈ area.tracked, area.meters id

/-- No segment is shorter than nothing, and there is some road to drive. -/
structure IsMeasured (area : Area K) : Prop where
  nonneg : ∀ s ∈ area.segments, 0 ≤ s.length
  total : 0 < ∑ id ∈ area.tracked, area.meters id

variable [IsStrictOrderedRing K] {area : Area K} {ids more : IdSet}

namespace IsMeasured

variable (h : area.IsMeasured)
include h

omit [IsStrictOrderedRing K] in
theorem meters_nonneg (id : Nat) : 0 ≤ area.meters id := by
  unfold meters
  rcases hlast : (area.under id).getLast? with _ | s
  · exact le_rfl
  · exact h.nonneg s (List.mem_filter.1 (List.mem_of_getLast? hlast)).1

theorem share_mono (hmore : ∀ id ∈ ids, id ∈ more) : area.share ids ≤ area.share more := by
  have hsubset : area.tracked.filter (· ∈ ids) ⊆ area.tracked.filter (· ∈ more) :=
    monotone_filter_right _ fun id _ => hmore id
  have hsum := sum_le_sum_of_subset_of_nonneg hsubset fun id _ _ => h.meters_nonneg id
  exact div_le_div_of_nonneg_right hsum h.total.le

theorem share_mem (ids : IdSet) : area.share ids ∈ Set.Icc 0 1 := by
  have hnonneg := sum_nonneg fun id (_ : id ∈ area.tracked.filter (· ∈ ids)) => h.meters_nonneg id
  have hle := sum_le_sum_of_subset_of_nonneg (filter_subset (· ∈ ids) area.tracked)
    fun id _ _ => h.meters_nonneg id
  exact ⟨div_nonneg hnonneg h.total.le, div_le_one_of_le₀ hle h.total.le⟩

/-- All the road is driven just if there is none under the numbers that are not. -/
theorem share_eq_one_iff :
    area.share ids = 1 ↔ ∀ id ∈ area.tracked, id ∉ ids → area.meters id = 0 := by
  rw [share, div_eq_one_iff_eq h.total.ne', ← sum_filter_add_sum_filter_not area.tracked (· ∈ ids),
    left_eq_add, sum_eq_zero_iff_of_nonneg fun id _ => h.meters_nonneg id]
  simp only [mem_filter, and_imp]

end IsMeasured

end Area

section Exact

variable [FloorRing K]

attribute [local instance] Scalar.exact instOfNatAtLeastTwo

theorem Custody.IsCounted.percent_eq {area : Area K} {c : Custody K} (h : c.IsCounted area)
    (hmeasured : area.IsMeasured) (hsome : c.driven ≠ []) :
    c.tracker.percent = 100 * area.share c.tracker.driven := by
  have hlength := Tracker.length_eq h.tracks
  have hdriven := Tracker.drivenLength_eq h.tracks fun id hid =>
    Area.mem_tracked.2 (((h.sorts.driven id).1 hid).imp_right And.left)
  have hroad : ¬ c.tracker.length ≤ 0 := by
    rw [hlength]
    exact not_le.2 hmeasured.total
  rw [Tracker.percent, Scalar.exact_zero, Scalar.exact_numeral, if_pos (h.promoted.2 hsome),
    if_neg hroad, hlength, hdriven, Area.share, mul_comm]

variable [Geodesy K] {rules : Config.Coverage K} {area : Area K}

/-- In exact numbers every line has its bounds, so every position can be measured. -/
theorem Tracker.observation?_exact (t : Tracker K) (rules : Config.Coverage K) (p : Point K) :
    t.observation? rules p = some (t.observe rules p) := by
  refine if_pos (List.all_eq_true.2 fun id _ => ?_)
  cases t.track? id with
  | none => rfl
  | some track => exact decide_eq_true track.isProper_bounds

namespace Custody

theorem exists_perform? (rules : Config.Coverage K) (c : Custody K)
    (operation : Tracker.Operation K) : ∃ c', c.perform? rules operation = some c' := by
  cases operation with
  | observe p => exact ⟨_, congrArg (Option.map _) (c.tracker.observation?_exact rules p)⟩
  | beginFlush => exact ⟨_, rfl⟩
  | completeFlush success => exact ⟨_, rfl⟩
  | drain => exact ⟨_, rfl⟩

theorem exists_run? (rules : Config.Coverage K) : ∀ (operations : List (Tracker.Operation K))
    (c : Custody K), ∃ c', c.run? rules operations = some c'
  | [], c => ⟨c, rfl⟩
  | operation :: operations, c => by
    obtain ⟨c₁, hfirst⟩ := c.exists_perform? rules operation
    obtain ⟨c', hrest⟩ := exists_run? rules operations c₁
    exact ⟨c', Option.bind_eq_some_iff.2 ⟨c₁, hfirst, hrest⟩⟩

/-- The percentage is the baseline as long as nothing was made driven. From then on it is that of
the road that is driven, which never falls; storing that, or failing to, does not matter to it. -/
structure Reports (rules : Config.Coverage K) (area : Area K) (c : Custody K) : Prop where
  baseline : c.driven = [] → c.tracker.percent = area.baseline
  share : c.driven ≠ [] → c.tracker.percent = 100 * area.share c.tracker.driven
  mem : c.driven ≠ [] → c.tracker.percent ∈ Set.Icc 0 100
  full : c.driven ≠ [] → (c.tracker.percent = 100 ↔
    ∀ id ∈ area.tracked, id ∉ c.tracker.driven → area.meters id = 0)
  rises : c.driven ≠ [] → ∀ c', c.Leads rules c' → c.tracker.percent ≤ c'.tracker.percent
  flush : ∀ operation c', (∀ p, operation ≠ .observe p) → c.perform? rules operation = some c' →
    c'.tracker.percent = c.tracker.percent

variable [IsStrictOrderedRing K] {c : Custody K}

theorem IsCounted.reports (h : c.IsCounted area) (hmeasured : area.IsMeasured) :
    c.Reports rules area where
  baseline := h.percent_eq_baseline
  share := h.percent_eq hmeasured
  mem hsome := by
    obtain ⟨hnonneg, hle⟩ := hmeasured.share_mem c.tracker.driven
    rw [h.percent_eq hmeasured hsome]
    exact ⟨by linarith, by linarith⟩
  full hsome := by
    have hpercent : (100 : K) ≠ 0 := by norm_num
    rw [h.percent_eq hmeasured hsome, mul_eq_left₀ hpercent, hmeasured.share_eq_one_iff]
  rises hsome c' hleads := by
    obtain ⟨operations, hrun⟩ := hleads
    obtain ⟨h', hextends⟩ := h.run hrun
    have hsome' : c'.driven ≠ [] := fun hnone => hsome (List.prefix_nil.1 (hnone ▸ hextends.driven))
    have hshare := hmeasured.share_mono hextends.covered
    rw [h.percent_eq hmeasured hsome, h'.percent_eq hmeasured hsome']
    linarith
  flush operation c' hflush hc := by
    obtain ⟨c₁, hc₁, halike, -⟩ := c.exists_perform?_flush rules hflush
    obtain rfl := Option.some.inj (hc₁.symm.trans hc)
    exact halike.percent

end Custody

end Exact

end Share

end Roadbook

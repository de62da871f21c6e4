import Mathlib.Analysis.Convex.Basic
import Roadbook.Coverage.Tracker
import Roadbook.Proofs.Ground.Projection

/-!
# Lines and their bounds

A line that is too far from a point by its bounds is not measured (`Track.isWithin_iff`). In exact
numbers the bounds hold the line and all feet on it (`Track.bounds_holds`, `Bounds.Holds.foot`), so
nothing is turned down wrongly where the point moved into the bounds is the nearest one in them
(`Bounds.rejectsRightly_iff`). Elsewhere some line is: one with a corner at a nearer point.
-/

namespace Roadbook

section Defs

variable {α : Type} [Scalar α]

/-- A point lies within the bounds, the edges included. -/
def Bounds.Holds (b : Bounds α) (p : Point α) : Prop :=
  (b.low.lon ≤ p.lon ∧ p.lon ≤ b.high.lon) ∧ b.low.lat ≤ p.lat ∧ p.lat ≤ b.high.lat

variable [Geodesy α]

/-- The line itself comes within a radius of a point. -/
def Track.IsNear (t : Track α) (p : Point α) (radius : α) : Prop :=
  ∃ d, distanceToLine? p t.line = some d ∧ d ≤ radius

/-- Whichever line has these bounds, it is within a radius of a point just if it comes that near. -/
def Bounds.RejectsRightly (b : Bounds α) (p : Point α) : Prop :=
  ∀ t : Track α, (∀ q ∈ t.line, q.IsValid) → t.bounds = b →
    ∀ radius : α, 0 ≤ radius → (t.isWithin p radius = true ↔ t.IsNear p radius)

theorem Track.isWithin_iff {t : Track α} {p : Point α} {radius : α} : t.isWithin p radius = true
    ↔ ¬ radius < Geodesy.distance p (t.bounds.clamp p) ∧ t.IsNear p radius := by
  unfold isWithin IsNear
  split_ifs with hfar
  · simp [hfar]
  · cases distanceToLine? p t.line <;> simp [hfar]

end Defs

variable {K : Type} [Field K] [LinearOrder K] [FloorRing K]

attribute [local instance] Scalar.exact

namespace Bounds

variable {b : Bounds K} {p q : Point K}

theorem Holds.add_left (h : b.Holds p) (q : Point K) : (b.add q).Holds p := by
  unfold Holds add at *
  simp only [Scalar.exact_min, Scalar.exact_max]
  exact ⟨⟨min_le_of_left_le h.1.1, le_max_of_le_left h.1.2⟩,
    min_le_of_left_le h.2.1, le_max_of_le_left h.2.2⟩

theorem holds_add_right (b : Bounds K) (q : Point K) : (b.add q).Holds q := by
  unfold Holds add
  simp only [Scalar.exact_min, Scalar.exact_max]
  exact ⟨⟨min_le_right _ _, le_max_right _ _⟩, min_le_right _ _, le_max_right _ _⟩

theorem holds_foldl_add : ∀ (rest : List (Point K)) {b : Bounds K} {q : Point K},
    b.Holds q ∨ q ∈ rest → (rest.foldl add b).Holds q
  | [], _, _, h => h.resolve_right List.not_mem_nil
  | p :: rest, b, q, h => by
    refine holds_foldl_add rest ?_
    rcases h with h | h
    · exact .inl (h.add_left p)
    · rcases List.mem_cons.1 h with rfl | h
      · exact .inl (b.holds_add_right q)
      · exact .inr h

theorem Holds.between [IsStrictOrderedRing K] (hp : b.Holds p) (hq : b.Holds q) {t : K}
    (ht : t ∈ Set.Icc 0 1) : b.Holds (p.between q t) := by
  rw [Point.between_exact]
  exact ⟨(convex_Icc b.low.lon b.high.lon).add_smul_sub_mem hp.1 hq.1 ht,
    (convex_Icc b.low.lat b.high.lat).add_smul_sub_mem hp.2 hq.2 ht⟩

theorem Holds.isValid (h : b.Holds p) (hlow : b.low.IsValid) (hhigh : b.high.IsValid) :
    p.IsValid := by
  obtain ⟨-, -, hwest, -, hsouth, -⟩ := hlow
  obtain ⟨-, -, -, heast, -, hnorth⟩ := hhigh
  exact ⟨rfl, rfl, hwest.trans h.1.1, h.1.2.trans heast, hsouth.trans h.2.1, h.2.2.trans hnorth⟩

theorem isValid_foldl_add : ∀ (rest : List (Point K)) {b : Bounds K},
    b.low.IsValid ∧ b.high.IsValid → (∀ q ∈ rest, q.IsValid) →
    (rest.foldl add b).low.IsValid ∧ (rest.foldl add b).high.IsValid
  | [], _, h, _ => h
  | q :: rest, b, ⟨hlow, hhigh⟩, hrest => by
    obtain ⟨-, -, hwest, heast, hsouth, hnorth⟩ := hrest q List.mem_cons_self
    obtain ⟨-, -, hlow₁, hlow₂, hlow₃, hlow₄⟩ := hlow
    obtain ⟨-, -, hhigh₁, hhigh₂, hhigh₃, hhigh₄⟩ := hhigh
    refine isValid_foldl_add rest ?_ fun q hq => hrest q (List.mem_cons_of_mem _ hq)
    simp only [add, Scalar.exact_min, Scalar.exact_max]
    exact ⟨⟨rfl, rfl, le_min hlow₁ hwest, min_le_of_left_le hlow₂, le_min hlow₃ hsouth,
        min_le_of_left_le hlow₄⟩,
      ⟨rfl, rfl, le_max_of_le_left hhigh₁, max_le hhigh₂ heast, le_max_of_le_left hhigh₃,
        max_le hhigh₄ hnorth⟩⟩

end Bounds

namespace Track

variable (t : Track K)

theorem bounds_holds {q : Point K} (hq : q ∈ t.line) : t.bounds.Holds q := by
  refine Bounds.holds_foldl_add t.rest ?_
  rcases List.mem_cons.1 hq with rfl | hq
  · exact .inl ⟨⟨le_rfl, le_rfl⟩, le_rfl, le_rfl⟩
  · exact .inr hq

theorem isProper_bounds : t.bounds.IsProper := by
  obtain ⟨⟨hwest, heast⟩, hsouth, hnorth⟩ := t.bounds_holds List.mem_cons_self
  exact ⟨hwest.trans heast, hsouth.trans hnorth⟩

theorem isValid_bounds (h : ∀ q ∈ t.line, q.IsValid) :
    t.bounds.low.IsValid ∧ t.bounds.high.IsValid :=
  Bounds.isValid_foldl_add t.rest ⟨h t.first List.mem_cons_self, h t.first List.mem_cons_self⟩
    fun q hq => h q (List.mem_cons_of_mem _ hq)

variable [Geodesy K] {t} {p : Point K} {radius : K}

theorem isNear_of_mem_stretches {s : Point K × Point K} (hs : s ∈ stretches t.line)
    (h : distanceToStretch p s ≤ radius) : t.IsNear p radius :=
  exists_distanceToLine?_le_iff.2 (.inr ⟨s, hs, h⟩)

variable [IsStrictOrderedRing K]

omit [IsStrictOrderedRing K] in
theorem IsNear.mono (h : t.IsNear p radius) {more : K} (hle : radius ≤ more) : t.IsNear p more := by
  obtain ⟨d, heq, hd⟩ := h
  exact ⟨d, heq, hd.trans hle⟩

/-- A line that comes near does so at a point within its bounds. -/
theorem IsNear.exists_holds (h : t.IsNear p radius) :
    ∃ q, t.bounds.Holds q ∧ Geodesy.distance p q ≤ radius := by
  rcases exists_distanceToLine?_le_iff.1 h with ⟨-, hd⟩ | ⟨s, hs, hd⟩
  · exact ⟨t.first, t.bounds_holds List.mem_cons_self, hd⟩
  · obtain ⟨hstart, hfinish⟩ := mem_of_mem_stretches hs
    refine ⟨(project p s.1 s.2).foot, ?_, (project_distance p s.1 s.2).ge.trans hd⟩
    rw [project_foot]
    exact (t.bounds_holds hstart).between (t.bounds_holds hfinish) (project_fraction_mem p s.1 s.2)

/-- A line from corner to corner of the bounds that stops at a point between. -/
def through (b : Bounds K) (q : Point K) : Track K := ⟨b.low, [q, q, b.high], 0⟩

omit [Geodesy K] [IsStrictOrderedRing K] in
theorem bounds_through {b : Bounds K} {q : Point K} (h : b.Holds q) : (through b q).bounds = b := by
  obtain ⟨⟨hwest, heast⟩, hsouth, hnorth⟩ := h
  simp only [through, bounds, Bounds.add, List.foldl_cons, List.foldl_nil, Scalar.exact_min,
    Scalar.exact_max, max_self, min_eq_left, max_eq_right, hwest, heast, hsouth, hnorth,
    hwest.trans heast, hsouth.trans hnorth]

theorem isNear_through (b : Bounds K) (p q : Point K) :
    (through b q).IsNear p (Geodesy.distance p q) :=
  isNear_of_mem_stretches (s := (q, q)) (by simp [through, line, stretches])
    (distanceToStretch_self p q).le

end Track

/-- Nothing is turned down wrongly just if no point within the bounds is nearer than the one that
the position is moved to. -/
theorem Bounds.rejectsRightly_iff [Geodesy K] [IsStrictOrderedRing K]
    (hground : ∀ a b : Point K, 0 ≤ Geodesy.distance a b) {b : Bounds K} {p : Point K}
    (hlow : b.low.IsValid) (hhigh : b.high.IsValid) : b.RejectsRightly p
      ↔ ∀ q, b.Holds q → Geodesy.distance p (b.clamp p) ≤ Geodesy.distance p q := by
  constructor
  · intro h q hq
    have hvalid : ∀ r ∈ (Track.through b q).line, r.IsValid := by
      simp [Track.through, Track.line, hlow, hhigh, hq.isValid hlow hhigh]
    have hwithin := (h (Track.through b q) hvalid (Track.bounds_through hq) _
      (Scalar.exact_zero.trans_le (hground p q))).2
      (Track.isNear_through b p q)
    have hnot := (Track.isWithin_iff.1 hwithin).1
    rw [Track.bounds_through hq] at hnot
    exact not_lt.1 hnot
  · rintro h t - rfl radius -
    rw [Track.isWithin_iff, and_iff_right_iff_imp]
    intro hnear
    obtain ⟨q, hq, hd⟩ := hnear.exists_holds
    exact not_lt.2 ((h q hq).trans hd)

end Roadbook

import Mathlib.Algebra.Order.Group.Pointwise.Interval
import Roadbook.Proofs.Coverage.Bounds
import Roadbook.Proofs.Ground.Meridian

/-!
# Turning lines down by their bounds

On the sphere the point of a line's bounds that is nearest to a position is not always the one that
the position is moved to: a side of the bounds may be nearer round the other side of the earth, and
beside a meridian the nearest point of it lies towards the pole. `Bounds.IsTrusted` says of which
bounds and positions neither is so (`Bounds.isNearest_iff`). Off the equator it fails for all bounds
that a position lies beside (`Bounds.not_isTrusted_beside`), but by little where they are not far
round the earth (`Track.isWithin_of_isNear`).
-/

namespace Roadbook

open Real Set

attribute [local instance] Scalar.exact Sphere.geodesy instOfNatAtLeastTwo

namespace Bounds

open Sphere

/-- No side of the bounds is nearer to the point by the other way round the earth. -/
def IsHere (b : Bounds ℝ) (p : Point ℝ) : Prop :=
  b.low.lon = b.high.lon ∨ |b.low.lon - p.lon| + |b.high.lon - p.lon| ≤ 360

/-- From where the point is moved to, the ways along the meridian lead away from the point and do
not end nearer to it. -/
structure Recedes (b : Bounds ℝ) (p : Point ℝ) : Prop where
  north : (b.clamp p).lat < b.high.lat → northing p (b.clamp p) ≤ 0
    ∧ distance p (b.clamp p) ≤ distance p ⟨(b.clamp p).lon, b.high.lat⟩
  south : b.low.lat < (b.clamp p).lat → 0 ≤ northing p (b.clamp p)
    ∧ distance p (b.clamp p) ≤ distance p ⟨(b.clamp p).lon, b.low.lat⟩

/-- The point is moved straight along a meridian, or else to where the bounds are nearest to it. -/
def IsTrusted (b : Bounds ℝ) (p : Point ℝ) : Prop :=
  ShareMeridian p (b.clamp p) ∨ b.IsHere p ∧ b.Recedes p

variable {b : Bounds ℝ} {p q : Point ℝ}

theorem holds_clamp (hb : b.IsProper) (p : Point ℝ) : b.Holds (b.clamp p) :=
  ⟨Scalar.exact_clamp_mem hb.1 p.lon, Scalar.exact_clamp_mem hb.2 p.lat⟩

theorem isHere_iff (hb : b.low.lon ≤ b.high.lon) (hlow : |b.low.lon| ≤ 180)
    (hhigh : |b.high.lon| ≤ 180) (hp : |p.lon| ≤ 180) :
    (∀ lon ∈ Icc b.low.lon b.high.lon,
      cos (radians (lon - p.lon)) ≤ cos (radians ((b.clamp p).lon - p.lon))) ↔ b.IsHere p := by
  have hnear : ∀ lon ∈ Icc b.low.lon b.high.lon, |(b.clamp p).lon - p.lon| ≤ |lon - p.lon| :=
    fun lon hlon => abs_sub_left_of_mem_uIcc (Scalar.exact_clamp_mem_uIcc hlon)
  have hcircle : ∀ lon : ℝ, |lon| ≤ 180 → |lon - p.lon| ≤ 360 :=
    fun lon hlon => (abs_sub lon p.lon).trans (by linarith)
  unfold IsHere
  rcases lt_or_ge p.lon b.low.lon with hwest | hwest
  · have hc : (b.clamp p).lon = b.low.lon := if_pos hwest
    rw [hc] at hnear ⊢
    have hfar : ∀ lon ∈ Icc b.low.lon b.high.lon, |lon - p.lon| ≤ |b.high.lon - p.lon| := by
      rintro lon ⟨hl, hh⟩
      rw [abs_of_pos (by linarith), abs_of_pos (by linarith)]
      linarith
    rw [forall_cos_radians_le_iff hnear hfar ⟨hb, le_rfl⟩ (hcircle _ hhigh)]
    rw [abs_of_pos (by linarith), abs_of_pos (by linarith), sub_left_inj]
  rcases lt_or_ge b.high.lon p.lon with heast | heast
  · have hc : (b.clamp p).lon = b.high.lon := (if_neg hwest.not_gt).trans (if_pos heast)
    rw [hc] at hnear ⊢
    have hfar : ∀ lon ∈ Icc b.low.lon b.high.lon, |lon - p.lon| ≤ |b.low.lon - p.lon| := by
      rintro lon ⟨hl, hh⟩
      rw [abs_of_neg (by linarith), abs_of_neg (by linarith)]
      linarith
    rw [forall_cos_radians_le_iff hnear hfar ⟨le_rfl, hb⟩ (hcircle _ hlow)]
    rw [abs_of_neg (by linarith), abs_of_neg (by linarith), neg_inj, sub_left_inj, add_comm,
      eq_comm]
  · have hc : (b.clamp p).lon = p.lon := Scalar.exact_clamp_of_mem ⟨hwest, heast⟩
    rw [hc, sub_self, radians_zero, cos_zero, abs_of_nonpos (by linarith),
      abs_of_nonneg (by linarith)]
    have hspan := abs_le.1 hlow
    have hspan' := abs_le.1 hhigh
    exact iff_of_true (fun lon _ => cos_le_one _) (.inr (by linarith))

theorem alignment_le_of_shareMeridian (hp : |p.lat| ≤ 90) (hq : |q.lat| ≤ 90) (h : b.Holds q)
    (hshare : ShareMeridian p (b.clamp p)) : alignment p q ≤ alignment p (b.clamp p) := by
  rw [alignment_of_shareMeridian hshare]
  refine (alignment_le_cos hp hq).trans (cos_radians_le_of_abs_le ?_ ?_)
  · exact abs_sub_left_of_mem_uIcc (Scalar.exact_clamp_mem_uIcc h.2)
  · exact (abs_sub _ _).trans (by linarith)

theorem recedes_iff (hb : b.IsProper) (hlow : |b.low.lat| ≤ 90) (hhigh : |b.high.lat| ≤ 90) :
    (∀ lat ∈ Icc b.low.lat b.high.lat,
      alignment p ⟨(b.clamp p).lon, lat⟩ ≤ alignment p (b.clamp p)) ↔ b.Recedes p := by
  obtain ⟨-, hsouth, hnorth⟩ := holds_clamp hb p
  rw [abs_le] at hlow hhigh
  constructor
  · intro h
    constructor
    · intro hlt
      rw [distance_le_distance_iff, ← forall_north_iff hlt (by linarith)]
      exact fun lat hlat => h lat ⟨hsouth.trans hlat.1, hlat.2⟩
    · intro hlt
      rw [distance_le_distance_iff, ← forall_south_iff hlt (by linarith)]
      exact fun lat hlat => h lat ⟨hlat.1, hlat.2.trans hnorth⟩
  · rintro ⟨hup, hdown⟩ lat ⟨hl, hh⟩
    rcases lt_trichotomy lat (b.clamp p).lat with hlt | rfl | hlt
    · have hends := hdown (hl.trans_lt hlt)
      rw [distance_le_distance_iff, ← forall_south_iff (hl.trans_lt hlt) (by linarith)] at hends
      exact hends lat ⟨hl, hlt.le⟩
    · exact le_rfl
    · have hends := hup (hlt.trans_le hh)
      rw [distance_le_distance_iff, ← forall_north_iff (hlt.trans_le hh) (by linarith)] at hends
      exact hends lat ⟨hlt.le, hh⟩

theorem isNearest_iff (hb : b.IsProper) (hlow : b.low.IsValid) (hhigh : b.high.IsValid)
    (hp : p.IsValid) :
    (∀ q, b.Holds q → distance p (b.clamp p) ≤ distance p q) ↔ b.IsTrusted p := by
  have hvalid : ∀ q, b.Holds q → |q.lon| ≤ 180 ∧ |q.lat| ≤ 90 :=
    fun q hq => Point.isValid_iff.1 (hq.isValid hlow hhigh)
  rw [Point.isValid_iff] at hlow hhigh hp
  simp only [distance_le_distance_iff]
  unfold IsTrusted
  by_cases hshare : ShareMeridian p (b.clamp p)
  · exact iff_of_true
      (fun q hq => alignment_le_of_shareMeridian hp.2 (hvalid q hq).2 hq hshare) (.inl hshare)
  have hc := holds_clamp hb p
  rw [or_iff_right hshare, ← isHere_iff hb.1 hlow.1 hhigh.1 hp.1, ← recedes_iff hb hlow.2 hhigh.2]
  obtain ⟨-, hpole⟩ := not_or.1 hshare
  obtain ⟨hpole, hpole'⟩ := not_or.1 hpole
  constructor
  · intro h
    refine ⟨fun lon hlon => ?_, fun lat hlat => h ⟨(b.clamp p).lon, lat⟩ ⟨hc.1, hlat⟩⟩
    exact (alignment_le_alignment_iff (hp.2.lt_of_ne hpole) ((hvalid _ hc).2.lt_of_ne hpole')).1
      (h ⟨lon, (b.clamp p).lat⟩ ⟨hlon, hc.2⟩)
  · rintro ⟨hlon, hlat⟩ q hq
    exact (alignment_mono hp.2 (hvalid q hq).2 (hlon q.lon hq.1)).trans (hlat q.lat hq.2)

/-- Off the equator, bounds that a point lies beside are not to be trusted: the nearest point of a
meridian lies towards the pole. -/
theorem not_isTrusted_beside (hlow : |b.low.lat| ≤ 90) (hhigh : |b.high.lat| ≤ 90)
    (hlat : p.lat ∈ Ioo b.low.lat b.high.lat) (hequator : p.lat ≠ 0)
    (hbeside : (b.clamp p).lon ≠ p.lon) (hcircle : |(b.clamp p).lon - p.lon| < 360) :
    ¬ b.IsTrusted p := by
  obtain ⟨hsouth, hnorth⟩ := hlat
  have hc : (b.clamp p).lat = p.lat := Scalar.exact_clamp_of_mem ⟨hsouth.le, hnorth.le⟩
  have hinner : |p.lat| < 90 :=
    abs_lt.2 ⟨(abs_le.1 hlow).1.trans_lt hsouth, hnorth.trans_le (abs_le.1 hhigh).2⟩
  have hnone : northing p (b.clamp p) ≠ 0 := by
    have hplace : b.clamp p = ⟨(b.clamp p).lon, p.lat⟩ := congrArg (Point.mk _) hc
    rw [hplace]
    exact northing_parallel_ne_zero hinner hequator hbeside hcircle
  rintro (h | ⟨-, hup, hdown⟩)
  · rcases h with h | h | h
    · exact hbeside h
    · exact hinner.ne h
    · exact hinner.ne (hc ▸ h)
  · exact hnone ((hup (hc ▸ hnorth)).1.antisymm (hdown (hc ▸ hsouth)).1)

/-- On this side of the earth no point within the bounds is much nearer than the one that the
position is moved to. -/
theorem sinc_mul_distance_le (hb : b.IsProper) (hlow : b.low.IsValid) (hhigh : b.high.IsValid)
    (hp : p.IsValid) (hhere : b.IsHere p) (hside : |(b.clamp p).lon - p.lon| ≤ 90)
    (hq : b.Holds q) :
    sinc (radians ((b.clamp p).lon - p.lon)) * distance p (b.clamp p) ≤ distance p q := by
  have hqlat := (Point.isValid_iff.1 (hq.isValid hlow hhigh)).2
  rw [Point.isValid_iff] at hlow hhigh hp
  have hmeridian : distance p ⟨(b.clamp p).lon, q.lat⟩ ≤ distance p q := by
    rw [distance_le_distance_iff]
    exact alignment_mono hp.2 hqlat ((isHere_iff hb.1 hlow.1 hhigh.1 hp.1).2 hhere q.lon hq.1)
  have hclamp := Scalar.exact_clamp_mem_uIcc (a := p.lat) hq.2
  rcases alignment_le_or_le hp.2 hside hp.2 hqlat hclamp with h | h
  · rw [← distance_le_distance_iff] at h
    have hsinc := half_le_sinc (abs_radians_le hside)
    calc sinc (radians ((b.clamp p).lon - p.lon)) * distance p (b.clamp p)
        ≤ sinc (radians ((b.clamp p).lon - p.lon)) * distance p ⟨(b.clamp p).lon, p.lat⟩ :=
          mul_le_mul_of_nonneg_left h (by linarith)
      _ ≤ distance p ⟨(b.clamp p).lon, q.lat⟩ :=
          sinc_mul_distance_le_meridian (b := ⟨(b.clamp p).lon, q.lat⟩) hp.2 hside
      _ ≤ distance p q := hmeridian
  · rw [← distance_le_distance_iff] at h
    exact (mul_le_of_le_one_left (distance_nonneg _ _) (sinc_le_one _)).trans (h.trans hmeridian)

end Bounds

namespace Track

open Sphere

/-- On this side of the earth a line is within a radius if it comes a little nearer than that. -/
theorem isWithin_of_isNear {t : Track ℝ} {p : Point ℝ} {radius : ℝ}
    (ht : ∀ q ∈ t.line, q.IsValid) (hp : p.IsValid) (hhere : t.bounds.IsHere p)
    (hside : |(t.bounds.clamp p).lon - p.lon| ≤ 90)
    (h : t.IsNear p (sinc (radians ((t.bounds.clamp p).lon - p.lon)) * radius)) :
    t.isWithin p radius = true := by
  have hsinc := half_le_sinc (abs_radians_le hside)
  have hpos : 0 < sinc (radians ((t.bounds.clamp p).lon - p.lon)) := by linarith
  obtain ⟨hlow, hhigh⟩ := t.isValid_bounds ht
  obtain ⟨q, hq, hd⟩ := h.exists_holds
  have hmargin := Bounds.sinc_mul_distance_le t.isProper_bounds hlow hhigh hp hhere hside hq
  have hradius : 0 ≤ radius :=
    nonneg_of_mul_nonneg_right ((distance_nonneg p q).trans hd) hpos
  rw [isWithin_iff, not_lt]
  exact ⟨le_of_mul_le_mul_left (hmargin.trans hd) hpos,
    h.mono (mul_le_of_le_one_left hradius (sinc_le_one _))⟩

/-- A line taken to be within a radius is so. The lines with the same bounds are all turned down
rightly just if the bounds are to be trusted, and on this side of the earth those turned down
wrongly come hardly nearer than the radius. -/
theorem rejection_exact_iff {t : Track ℝ} {p : Point ℝ} (ht : ∀ q ∈ t.line, q.IsValid)
    (hp : p.IsValid) :
    (∀ radius, t.isWithin p radius = true → t.IsNear p radius)
      ∧ (t.bounds.RejectsRightly p ↔ t.bounds.IsTrusted p)
      ∧ (t.bounds.IsHere p → |(t.bounds.clamp p).lon - p.lon| ≤ 90 → ∀ radius,
        t.IsNear p (sinc (radians ((t.bounds.clamp p).lon - p.lon)) * radius) →
          t.isWithin p radius = true) := by
  obtain ⟨hlow, hhigh⟩ := t.isValid_bounds ht
  refine ⟨fun radius h => (isWithin_iff.1 h).2, ?_, fun hhere hside radius =>
    isWithin_of_isNear ht hp hhere hside⟩
  exact (Bounds.rejectsRightly_iff distance_nonneg hlow hhigh).trans
    (Bounds.isNearest_iff t.isProper_bounds hlow hhigh hp)

/-- On the equator the bounds of a line due east of a point are to be trusted. -/
theorem isTrusted_east : (⟨⟨1, -1⟩, [⟨2, 1⟩], 100⟩ : Track ℝ).bounds.IsTrusted ⟨0, 0⟩ := by
  have hbounds : (⟨⟨1, -1⟩, [⟨2, 1⟩], 100⟩ : Track ℝ).bounds = ⟨⟨1, -1⟩, ⟨2, 1⟩⟩ := by
    norm_num [bounds, Bounds.add, Scalar.exact_min, Scalar.exact_max]
  have hc : (⟨⟨1, -1⟩, ⟨2, 1⟩⟩ : Bounds ℝ).clamp ⟨0, 0⟩ = ⟨1, 0⟩ := by
    norm_num [Bounds.clamp, Scalar.clamp]
  have hn : northing ⟨0, 0⟩ ⟨1, 0⟩ = 0 := by simp [northing, radians_zero]
  have hside : ∀ lat : ℝ, |lat| = 1 → distance ⟨0, 0⟩ ⟨1, 0⟩ ≤ distance ⟨0, 0⟩ ⟨1, lat⟩ := by
    intro lat hlat
    rw [distance_le_distance_iff]
    have hone : 0 ≤ cos (radians (1 : ℝ)) := cos_radians_nonneg (by norm_num)
    simp only [alignment, radians_zero, sin_zero, cos_zero, zero_mul, zero_add, one_mul, sub_zero]
    exact mul_le_of_le_one_left hone (cos_le_one _)
  rw [hbounds]
  refine .inr ⟨.inr (by norm_num), ⟨fun _ => ?_, fun _ => ?_⟩⟩
  · rw [hc, hn]
    exact ⟨le_rfl, hside 1 (by norm_num)⟩
  · rw [hc, hn]
    exact ⟨le_rfl, hside (-1) (by norm_num)⟩

theorem rejection_exact_east :
    (⟨⟨1, -1⟩, [⟨2, 1⟩], 100⟩ : Track ℝ).bounds.RejectsRightly ⟨0, 0⟩ := by
  refine (rejection_exact_iff ?_ (Point.isValid_iff.2 (by norm_num))).2.1.2 isTrusted_east
  simp only [line, Point.isValid_iff]
  norm_num

/-- A line that comes to the antimeridian from the east and goes north along it. -/
noncomputable def seam : Track ℝ := ⟨⟨-179, 0⟩, [⟨-180, 0⟩, ⟨-180, 1⟩], 100⟩

theorem seam_isNear : seam.IsNear ⟨180, 0⟩ 25 := by
  refine isNear_of_mem_stretches (s := (⟨-180, 0⟩, ⟨-180, 1⟩)) (by simp [seam, line, stretches]) ?_
  -- the stretch runs north, and the point is level with its start
  have hfraction : (project (⟨180, 0⟩ : Point ℝ) ⟨-180, 0⟩ ⟨-180, 1⟩).fraction = 0 := by
    unfold project
    dsimp only
    rw [Scalar.exact_zero, Scalar.exact_one]
    split_ifs
    · simp [Offset.dot, Offset.between, Scalar.exact_clamp_of_mem]
    · rfl
  have hfoot := project_foot (⟨180, 0⟩ : Point ℝ) ⟨-180, 0⟩ ⟨-180, 1⟩
  rw [hfraction, Point.between_zero] at hfoot
  have hsame : distance (⟨180, 0⟩ : Point ℝ) ⟨-180, 0⟩ = 0 := by
    rw [distance_equator, show (-180 - 180 : ℝ) = 0 - 360 by norm_num, cos_radians_sub_circle,
      radians_zero, cos_zero, arccos_one, mul_zero]
  refine (project_distance _ _ _).trans_le ((congrArg (distance _) hfoot).trans_le ?_)
  rw [hsame]
  norm_num

/-- The corner that the point is moved to lies a degree away. -/
theorem lt_distance_seam : 25 < distance ⟨180, 0⟩ (seam.bounds.clamp ⟨180, 0⟩) := by
  have hc : seam.bounds.clamp ⟨180, 0⟩ = ⟨-179, 0⟩ := by
    norm_num [seam, bounds, Bounds.add, Bounds.clamp, Scalar.clamp, Scalar.exact_min,
      Scalar.exact_max]
  have hdegree : radians (1 : ℝ) = π / 180 := by rw [radians_exact, one_mul]
  have hpi := two_le_pi
  rw [hc, distance_equator, show (-179 - 180 : ℝ) = 1 - 360 by norm_num, cos_radians_sub_circle,
    hdegree, arccos_cos (by positivity) (by linarith)]
  linarith

/-- A point of the line, with its longitude given as that of the other side, is turned down. -/
theorem seam_rejected : (∀ q ∈ seam.line, q.IsValid) ∧ (⟨180, 0⟩ : Point ℝ).IsValid
    ∧ seam.IsNear ⟨180, 0⟩ 25 ∧ seam.isWithin ⟨180, 0⟩ 25 = false := by
  refine ⟨?_, Point.isValid_iff.2 (by norm_num), seam_isNear, if_pos lt_distance_seam⟩
  simp only [seam, line, Point.isValid_iff]
  norm_num

end Track

end Roadbook

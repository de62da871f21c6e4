import Roadbook.Proofs.Ground.Foot
import Roadbook.Proofs.Ground.Sphere

/-!
# Where longitude zero lies

Counting longitudes from another meridian changes no distance (`Sphere.distance_rotated`). The frame
of a stretch takes differences of longitudes as they are given, so the foot of a point stays the
same place just if the point and the stretch are not parted by the antimeridian, or the stretch runs
along a meridian on one side of it, or the foot is the same end before and after
(`Sphere.project_rotated_iff`).
-/

namespace Roadbook

/-- The longitudes as given are within a quarter of a round. -/
def Point.IsBeside {α : Type} [Scalar α] (p q : Point α) : Prop := Scalar.abs (q.lon - p.lon) ≤ 90

open Real Set

attribute [local instance] Scalar.exact Sphere.geodesy instOfNatAtLeastTwo

theorem Scalar.eq_or_eq_of_exact_clamp_eq {lo hi r s : ℝ} (hne : r ≠ s)
    (h : Scalar.clamp lo hi r = Scalar.clamp lo hi s) :
    Scalar.clamp lo hi r = lo ∨ Scalar.clamp lo hi r = hi := by
  unfold Scalar.clamp at h ⊢
  split_ifs at h ⊢ <;> simp_all

namespace Point

/-- The same place with longitudes counted from a meridian some angle further west, and in any
round. -/
structure IsRotated (angle : ℝ) (p q : Point ℝ) : Prop where
  lat : q.lat = p.lat
  lon : ∃ rounds : ℤ, q.lon = p.lon + angle + rounds * 360

theorem isBeside_iff {p q : Point ℝ} : p.IsBeside q ↔ |q.lon - p.lon| ≤ 90 := by
  unfold IsBeside
  rw [Scalar.exact_abs, Scalar.exact_numeral]

section Rounds

variable {p q p' q' : Point ℝ} {angle : ℝ} {i j : ℤ} (hp : p'.lon = p.lon + angle + i * 360)

include hp

theorem abs_rounds_sub_lt {n : ℤ} (hq : q'.lon = q.lon + angle + j * 360)
    (h : |q'.lon - p'.lon| + |q.lon - p.lon| < n * 360) : |j - i| < n := by
  have hturned : ((j - i : ℤ) : ℝ) * 360 = (q'.lon - p'.lon) - (q.lon - p.lon) := by
    rw [hp, hq]
    push_cast
    ring
  have hlt : |((j - i : ℤ) : ℝ)| * 360 < n * 360 := by
    calc |((j - i : ℤ) : ℝ)| * 360
        = |(q'.lon - p'.lon) - (q.lon - p.lon)| := by
          rw [← hturned, abs_mul, abs_of_pos (show (0 : ℝ) < 360 by norm_num)]
      _ ≤ |q'.lon - p'.lon| + |q.lon - p.lon| := abs_sub _ _
      _ < n * 360 := h
  exact_mod_cast lt_of_mul_lt_mul_right hlt (by norm_num)

/-- Points that are beside one another before and after a rotation are in the same round. -/
theorem IsBeside.rounds_eq (h : p.IsBeside q) (h' : p'.IsBeside q')
    (hq : q'.lon = q.lon + angle + j * 360) : j = i := by
  rw [isBeside_iff] at h h'
  have hlt := abs_rounds_sub_lt (n := 1) hp hq (by push_cast; linarith)
  rwa [Int.abs_lt_one_iff, sub_eq_zero] at hlt

/-- Points that are beside one another stay so when they are moved by the same rounds. -/
theorem IsBeside.of_rounds_eq (h : p.IsBeside q) (hq : q'.lon = q.lon + angle + i * 360) :
    p'.IsBeside q' := by
  have hsame : q'.lon - p'.lon = q.lon - p.lon := by
    rw [hp, hq]
    ring
  rw [isBeside_iff] at *
  rwa [hsame]

end Rounds

end Point

/-- A foot that is the same place, at the same distance and as far along the stretch. -/
structure Projection.IsRotated (angle : ℝ) (q q' : Projection ℝ) : Prop where
  fraction : q'.fraction = q.fraction
  distance : q'.distance = q.distance
  foot : q.foot.IsRotated angle q'.foot

namespace Sphere

theorem cos_radians_add_rounds (x : ℝ) (rounds : ℤ) :
    cos (radians (x + rounds * 360)) = cos (radians x) := by
  rw [radians_add, radians_exact (rounds * 360), mul_assoc, ← radians_exact 360, radians_circle,
    cos_add_int_mul_two_pi]

variable {angle : ℝ} {p a b p' a' b' : Point ℝ}

theorem distance_rotated (hp : p.IsRotated angle p') (ha : a.IsRotated angle a') :
    distance p' a' = distance p a := by
  obtain ⟨i, hi⟩ := hp.lon
  obtain ⟨j, hj⟩ := ha.lon
  have hlon : a'.lon - p'.lon = a.lon - p.lon + (j - i : ℤ) * 360 := by
    rw [hi, hj]
    push_cast
    ring
  rw [distance_eq, distance_eq, alignment, alignment, hp.lat, ha.lat, hlon,
    cos_radians_add_rounds]

section Congr

variable (ha : a'.lat = a.lat) (hb : b'.lat = b.lat)

include ha hb

theorem frameScale_congr : frameScale a' b' = frameScale a b := by
  unfold frameScale
  rw [ha, hb]

variable (hstretch : b'.lon - a'.lon = b.lon - a.lon)

include hstretch

theorem direction_congr : direction a' b' = direction a b := by
  unfold direction
  rw [frameScale_congr ha hb]
  simp only [Offset.between, hstretch, ha, hb]

theorem frameSquare_congr : frameSquare a' b' = frameSquare a b := by
  unfold frameSquare
  rw [direction_congr ha hb hstretch]

theorem isDirected_congr : IsDirected a' b' ↔ IsDirected a b := by
  unfold IsDirected
  rw [frameSquare_congr ha hb hstretch]

/-- How much further along its direction a stretch is abreast of the point when the point is moved
along its parallel. -/
theorem advance_sub (hp : p'.lat = p.lat) : advance p a b - advance p' a' b'
    = ((p.lon - a.lon) - (p'.lon - a'.lon)) * (b.lon - a.lon)
      * (Geodesy.degreeLength * frameScale a b) ^ 2 / frameSquare a b := by
  unfold advance
  rw [frameSquare_congr ha hb hstretch, frameScale_congr ha hb, direction_congr ha hb hstretch,
    ← sub_div]
  congr 1
  simp only [direction, Offset.between, Offset.dot_exact, ha, hp]
  ring

theorem fraction_congr (hp : p'.lat = p.lat)
    (hacross : ((p.lon - a.lon) - (p'.lon - a'.lon)) * (b.lon - a.lon) = 0) :
    (project p' a' b').fraction = (project p a b).fraction := by
  by_cases h : IsDirected a b
  · have hadvance := advance_sub ha hb hstretch hp
    rw [hacross, zero_mul, zero_div, sub_eq_zero] at hadvance
    rw [fraction_of_isDirected h,
      fraction_of_isDirected ((isDirected_congr ha hb hstretch).2 h), hadvance]
  · rw [project_of_not_isDirected h,
      project_of_not_isDirected (mt (isDirected_congr ha hb hstretch).1 h)]

end Congr

/-- A foot that is as far along the stretch is the same place unless the stretch is torn apart and
the foot is between its ends. -/
theorem isRotated_iff {i j : ℤ} (hp : p.IsRotated angle p') (ha : a'.lat = a.lat)
    (hb : b'.lat = b.lat) (hi : a'.lon = a.lon + angle + i * 360)
    (hj : b'.lon = b.lon + angle + j * 360) :
    (project p a b).IsRotated angle (project p' a' b')
      ↔ (project p' a' b').fraction = (project p a b).fraction
        ∧ ∃ n : ℤ, (project p a b).fraction * (j - i : ℤ) = n := by
  constructor
  · rintro ⟨hfraction, -, -, n, hn⟩
    refine ⟨hfraction, n - i, ?_⟩
    rw [project_foot, project_foot, hfraction, Point.between_exact, Point.between_exact, hi, hj]
      at hn
    push_cast
    dsimp only at hn
    linarith
  · rintro ⟨hfraction, n, hn⟩
    have hfoot : (project p a b).foot.IsRotated angle (project p' a' b').foot := by
      rw [project_foot, project_foot, hfraction, Point.between_exact, Point.between_exact]
      refine ⟨by rw [ha, hb], n + i, ?_⟩
      dsimp only
      rw [hi, hj]
      push_cast at hn ⊢
      linear_combination 360 * hn
    refine ⟨hfraction, ?_, hfoot⟩
    rw [project_distance, project_distance]
    exact distance_rotated hp hfoot

theorem frameScale_eq (a b : Point ℝ) : frameScale a b = cos (radians ((a.lat + b.lat) / 2)) := by
  unfold frameScale
  rw [Scalar.exact_numeral]
  rfl

theorem degreeLength_pos : 0 < (Geodesy.degreeLength : ℝ) := by
  rw [degreeLength_eq]
  positivity

/-- Where a stretch has a direction, its parallels have a length. -/
theorem frameScale_pos (ha : |a.lat| ≤ 90) (hb : |b.lat| ≤ 90) (h : IsDirected a b) :
    0 < frameScale a b := by
  have hmean : |(a.lat + b.lat) / 2| ≤ 90 := by
    rw [abs_le] at *
    constructor <;> linarith
  rcases hmean.lt_or_eq with hlt | hpole
  · rw [frameScale_eq]
    exact cos_radians_pos hlt
  · -- both ends are at the same pole
    have hsame : b.lat = a.lat := by
      rw [abs_le] at ha hb
      rcases abs_eq (by norm_num) |>.1 hpole with h | h <;> linarith
    have hscale : frameScale a b = 0 := (frameScale_eq a b).trans (cos_radians_eq_zero hpole)
    have hnone : frameSquare a b = 0 := by
      simp only [frameSquare, direction, Offset.between, Offset.dot_exact, hsame, hscale]
      ring
    exact absurd h.pos hnone.not_gt

theorem fraction_equator (x : ℝ) {y z : ℝ} (h : 1 / 1000 ≤ |z - y|) :
    (project ⟨x, 0⟩ ⟨y, 0⟩ ⟨z, 0⟩).fraction = Scalar.clamp 0 1 ((x - y) / (z - y)) := by
  have hscale : frameScale (⟨y, 0⟩ : Point ℝ) ⟨z, 0⟩ = 1 := by simp [frameScale_eq, radians_zero]
  have hsquare : frameSquare (⟨y, 0⟩ : Point ℝ) ⟨z, 0⟩ = ((z - y) * Geodesy.degreeLength) ^ 2 := by
    simp only [frameSquare, direction, Offset.between, Offset.dot_exact, hscale]
    ring
  have hdegree : (1 : ℝ) ≤ Geodesy.degreeLength := by
    rw [degreeLength_eq]
    linarith [two_le_pi]
  have hlong : 1 / 1000 ≤ |(z - y) * Geodesy.degreeLength| := by
    rw [abs_mul, abs_of_pos degreeLength_pos]
    exact h.trans (le_mul_of_one_le_right (abs_nonneg _) hdegree)
  have hdirected : IsDirected (⟨y, 0⟩ : Point ℝ) ⟨z, 0⟩ := by
    unfold IsDirected degenerateSquare
    rw [hsquare, ← sq_abs, Scalar.exact_one, Scalar.exact_numeral]
    refine lt_of_lt_of_le ?_ (pow_le_pow_left₀ (by norm_num) hlong 2)
    norm_num
  have hne : z - y ≠ 0 := abs_pos.1 (lt_of_lt_of_le (by norm_num) h)
  rw [fraction_of_isDirected hdirected]
  unfold advance
  rw [hsquare]
  simp only [direction, Offset.between, Offset.dot_exact, hscale]
  congr 1
  have hdegree_ne := degreeLength_pos.ne'
  field_simp
  ring

/-- A stretch that does not run along a meridian and does not follow the point to the other side of
the antimeridian has the foot as far along only where that is an end. -/
theorem fraction_eq_end (ha : |a.lat| ≤ 90) (hb : |b.lat| ≤ 90) (halat : a'.lat = a.lat)
    (hblat : b'.lat = b.lat) (hplat : p'.lat = p.lat) (hstretch : b'.lon - a'.lon = b.lon - a.lon)
    (hlon : b.lon ≠ a.lon) (hparted : p'.lon - a'.lon ≠ p.lon - a.lon)
    (heq : (project p' a' b').fraction = (project p a b).fraction) :
    (project p a b).fraction = 0 ∨ (project p a b).fraction = 1 := by
  by_cases h : IsDirected a b
  · have hne : advance p a b ≠ advance p' a' b' := by
      have hlength := mul_pos degreeLength_pos (frameScale_pos ha hb h)
      rw [← sub_ne_zero, advance_sub halat hblat hstretch hplat]
      exact div_ne_zero (mul_ne_zero
        (mul_ne_zero (sub_ne_zero.2 hparted.symm) (sub_ne_zero.2 hlon))
        (pow_pos hlength 2).ne') h.pos.ne'
    rw [fraction_of_isDirected h,
      fraction_of_isDirected ((isDirected_congr halat hblat hstretch).2 h)] at heq
    rw [fraction_of_isDirected h]
    exact Scalar.eq_or_eq_of_exact_clamp_eq hne heq.symm
  · left
    rw [project_of_not_isDirected h, Scalar.exact_zero]

/-- The point and the stretch stay together, or the stretch runs along a meridian and is not torn
apart, or the foot is the same end of it. -/
def KeepsFoot (p a b p' a' b' : Point ℝ) : Prop :=
  (p'.IsBeside a' ∧ p'.IsBeside b')
    ∨ (a'.IsBeside b' ∧ b.lon = a.lon)
    ∨ ((project p' a' b').fraction = (project p a b).fraction
      ∧ ((project p a b).fraction = 0 ∨ (project p a b).fraction = 1))

/-- A torn stretch keeps a foot only at an end: it is torn once. -/
theorem fraction_eq_end_of_torn {i j n : ℤ} (hij : j ≠ i) (hav' : |a'.lon| ≤ 180)
    (hbv' : |b'.lon| ≤ 180) (hi : a'.lon = a.lon + angle + i * 360)
    (hj : b'.lon = b.lon + angle + j * 360) (hab : a.IsBeside b)
    (hn : (project p a b).fraction * (j - i : ℤ) = n) :
    (project p a b).fraction = 0 ∨ (project p a b).fraction = 1 := by
  obtain ⟨hzero, hone⟩ := project_fraction_mem p a b
  have hwhole : ∀ m : ℤ, (project p a b).fraction = m →
      (project p a b).fraction = 0 ∨ (project p a b).fraction = 1 := by
    intro m hm
    rw [hm] at hzero hone ⊢
    norm_cast at hzero hone ⊢
    omega
  have hspan : |b'.lon - a'.lon| ≤ 360 := (abs_sub _ _).trans (by linarith)
  rw [Point.isBeside_iff] at hab
  have hlt := Point.abs_rounds_sub_lt (n := 2) hi hj (by push_cast; linarith)
  obtain hround | hround : j - i = 1 ∨ j - i = -1 := by
    rw [abs_lt] at hlt
    omega
  · rw [hround, Int.cast_one, mul_one] at hn
    exact hwhole n hn
  · rw [hround, Int.cast_neg, Int.cast_one, mul_neg_one, neg_eq_iff_eq_neg] at hn
    exact hwhole (-n) (by rw [hn, Int.cast_neg])

/-- The foot is the same place in the exact cases of `KeepsFoot`. -/
theorem project_rotated_iff (hp : p.IsRotated angle p') (ha : a.IsRotated angle a')
    (hb : b.IsRotated angle b') (hav : a.IsValid) (hbv : b.IsValid) (hav' : a'.IsValid)
    (hbv' : b'.IsValid) (hpa : p.IsBeside a) (hpb : p.IsBeside b) (hab : a.IsBeside b) :
    (project p a b).IsRotated angle (project p' a' b') ↔ KeepsFoot p a b p' a' b' := by
  obtain ⟨k, hk⟩ := hp.lon
  obtain ⟨i, hi⟩ := ha.lon
  obtain ⟨j, hj⟩ := hb.lon
  rw [isRotated_iff hp ha.lat hb.lat hi hj]
  rw [Point.isValid_iff] at hav hbv hav' hbv'
  have hstretch : j = i → b'.lon - a'.lon = b.lon - a.lon := by
    rintro rfl
    rw [hi, hj]
    ring
  constructor
  · rintro ⟨hfraction, n, hn⟩
    by_cases htorn : j = i
    · by_cases hparted : k = i
      · left
        rw [htorn] at hj
        rw [hparted] at hk
        exact ⟨hpa.of_rounds_eq hk hi, hpb.of_rounds_eq hk hj⟩
      · right
        by_cases hmeridian : b.lon = a.lon
        · left
          rw [htorn] at hj
          exact ⟨hab.of_rounds_eq hi hj, hmeridian⟩
        · right
          have hne : p'.lon - a'.lon ≠ p.lon - a.lon := by
            intro heq
            have hround : ((k - i : ℤ) : ℝ) = 0 := by
              push_cast
              linarith
            exact hparted (sub_eq_zero.1 (Int.cast_eq_zero.1 hround))
          exact ⟨hfraction, fraction_eq_end hav.2 hbv.2 ha.lat hb.lat hp.lat (hstretch htorn)
            hmeridian hne hfraction⟩
    · exact .inr (.inr ⟨hfraction, fraction_eq_end_of_torn htorn hav'.1 hbv'.1 hi hj hab hn⟩)
  · rintro (⟨hpa', hpb'⟩ | ⟨hab', hmeridian⟩ | ⟨hfraction, hend⟩)
    · have hik := hpa.rounds_eq hk hpa' hi
      have hjk := hpb.rounds_eq hk hpb' hj
      obtain rfl : j = i := hjk.trans hik.symm
      refine ⟨fraction_congr ha.lat hb.lat (hstretch rfl) hp.lat ?_, 0, by simp⟩
      rw [hk, hi, hik]
      ring
    · obtain rfl := hab.rounds_eq hi hab' hj
      refine ⟨fraction_congr ha.lat hb.lat (hstretch rfl) hp.lat ?_, 0, by simp⟩
      rw [hmeridian, sub_self, mul_zero]
    · refine ⟨hfraction, ?_⟩
      rcases hend with hend | hend
      · exact ⟨0, by rw [hend, zero_mul, Int.cast_zero]⟩
      · exact ⟨j - i, by rw [hend, one_mul]⟩

end Sphere

end Roadbook

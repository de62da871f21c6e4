import Mathlib.Algebra.BigOperators.Group.List.Basic
import Mathlib.Algebra.Order.Round
import Mathlib.Data.Rat.Floor
import Mathlib.Order.Interval.Set.UnorderedInterval
import Mathlib.Tactic.Linarith
import Roadbook.Ground.Point

/-!
# Exact numbers

An ordered field with integer parts has the operations of `Scalar` (`Scalar.exact`). Nothing is
rounded in it and every number is finite, and the operations that `Scalar` builds from these are
those that are known by their names (`Scalar.exact_min`, `Scalar.exact_max`, `Scalar.exact_abs`,
`Scalar.exact_sum`). The rational numbers are such a field in which whole runs can be computed; the
ground is flat for them, and one gets along it by meridians and parallels only, so along a meridian
distances and bearings are those of the spherical earth.
-/

namespace Roadbook

namespace Scalar

variable (K : Type) [Field K] [LinearOrder K] [FloorRing K]

@[reducible] def exact : Scalar K where
  ofInt n := n
  decLt := inferInstance
  decLe := inferInstance
  rem a b := a - b * (if 0 ≤ a / b then ⌊a / b⌋ else ⌈a / b⌉ : Int)
  isFinite _ := true
  nearest a := if 0 ≤ a then round a else -round (-a)
  tenths a :=
    let n := round (a * 10)
    if Int.fract (a * 10) = 1 / 2 ∧ n % 2 = 1 then n - 1 else n
  wrap t := t
  checked := true

end Scalar

instance : Scalar ℚ := Scalar.exact ℚ

instance : Geodesy ℚ where
  distance a b := (|b.lon - a.lon| + |b.lat - a.lat|) * 111195
  bearing a b :=
    if a.lat < b.lat then 0 else if b.lat < a.lat then 180 else if a.lon ≤ b.lon then 90 else 270
  degreeLength := 111195
  parallelScale _ := 1

theorem distance_rat_nonneg (a b : Point ℚ) : 0 ≤ Geodesy.distance a b := by
  show 0 ≤ (|b.lon - a.lon| + |b.lat - a.lat|) * 111195
  positivity

namespace Scalar

variable {K : Type} [Field K] [LinearOrder K] [FloorRing K]

-- the operations of the field come before those that are found through `Scalar`
attribute [local instance] exact

theorem exact_ofInt (n : Int) : (ofInt n : K) = n := rfl

theorem exact_wrap (time : Int) : wrap K time = time := rfl

theorem exact_ofNat (n : Nat) : @OfNat.ofNat K n (instOfNat n) = n := Int.cast_natCast n

theorem exact_numeral (n : Nat) [n.AtLeastTwo] :
    @OfNat.ofNat K n (instOfNat n) = @OfNat.ofNat K n instOfNatAtLeastTwo := exact_ofNat n

theorem exact_zero : @OfNat.ofNat K 0 (instOfNat 0) = 0 := Int.cast_zero

theorem exact_one : @OfNat.ofNat K 1 (instOfNat 1) = 1 := Int.cast_one

theorem exact_min (a b : K) : Scalar.min a b = Min.min a b := by
  unfold Scalar.min
  rw [min_def]
  simp only [le_refl, not_true_eq_false, or_false]

theorem exact_max (a b : K) : Scalar.max a b = Max.max a b := by
  unfold Scalar.max
  rw [max_comm, max_def]
  simp only [le_refl, not_true_eq_false, or_false]

theorem exact_abs [IsStrictOrderedRing K] (a : K) : Scalar.abs a = |a| := by
  unfold Scalar.abs
  rw [exact_zero]
  split_ifs with h
  · exact (abs_of_neg h).symm
  · exact (abs_of_nonneg (not_lt.1 h)).symm

theorem exact_sum (as : List K) : Scalar.sum as = as.sum := by
  have hfold : ∀ (as : List K) (a : K), as.foldl (· + ·) a = a + as.sum := by
    intro as
    induction as with
    | nil => simp
    | cons b as ih =>
      intro a
      rw [List.foldl_cons, ih, List.sum_cons, add_assoc]
  unfold Scalar.sum
  rw [exact_zero]
  exact (hfold as 0).trans (zero_add _)

theorem exact_clamp_mem {lo hi : K} (h : lo ≤ hi) (a : K) :
    Scalar.clamp lo hi a ∈ Set.Icc lo hi := by
  unfold Scalar.clamp
  split_ifs with hlo hhi
  · exact ⟨le_refl lo, h⟩
  · exact ⟨h, le_refl hi⟩
  · exact ⟨not_lt.1 hlo, not_lt.1 hhi⟩

theorem exact_clamp_of_mem {lo hi a : K} (h : a ∈ Set.Icc lo hi) : Scalar.clamp lo hi a = a := by
  unfold Scalar.clamp
  rw [if_neg h.1.not_gt, if_neg h.2.not_gt]

/-- A clamped number lies on the way to every number that it could have been clamped to. -/
theorem exact_clamp_mem_uIcc {lo hi a x : K} (hx : x ∈ Set.Icc lo hi) :
    Scalar.clamp lo hi a ∈ Set.uIcc a x := by
  rw [Set.mem_uIcc]
  unfold Scalar.clamp
  split_ifs with hlow hhigh
  · exact .inl ⟨hlow.le, hx.1⟩
  · exact .inr ⟨hx.2, hhigh.le⟩
  · exact (le_total a x).imp (fun h => ⟨le_rfl, h⟩) (fun h => ⟨h, le_rfl⟩)

end Scalar

end Roadbook

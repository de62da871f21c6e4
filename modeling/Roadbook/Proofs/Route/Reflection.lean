import Mathlib.Analysis.Real.Pi.Bounds
import Mathlib.Analysis.SpecialFunctions.Complex.Arg
import Roadbook.Proofs.Ground.Sphere
import Roadbook.Proofs.Route.Turns

/-!
# East and west exchanged

Where all longitudes change their sign, every distance is as before and a bearing is counted the
other way round (`Sphere.bearing_reflect`). A change of heading is then the one to the other side,
but for a half turn, which counts as one to the right either way (`headingChange_reflect`). So a
route leads through the same places along it, with each turn to the other side
(`Route.reflects_turns`).
-/

namespace Roadbook

open Real ComplexConjugate

/-- The point as far from the meridian of longitude zero on its other side. -/
def Point.reflect (p : Point ℝ) : Point ℝ := ⟨-p.lon, p.lat⟩

/-- The same turn to the other side. -/
def Turn.reflect : Turn → Turn
  | .slightLeft => .slightRight
  | .slightRight => .slightLeft
  | .left => .right
  | .right => .left
  | .sharpLeft => .sharpRight
  | .sharpRight => .sharpLeft
  | t => t

theorem stretches_map {β γ : Type} (f : β → γ) : ∀ bs : List β,
    stretches (bs.map f) = (stretches bs).map (Prod.map f f)
  | [] => rfl
  | [_] => rfl
  | _ :: c :: bs => congrArg _ (stretches_map f (c :: bs))

section Headings

variable {K : Type} [Field K] [LinearOrder K] [FloorRing K]

attribute [local instance] Scalar.exact

/-- The change of heading to the other side. A half turn is the same to both. -/
def reflectChange (change : K) : K := if change = 180 then 180 else -change

attribute [local instance] instOfNatAtLeastTwo

theorem reflectChange_eq (change : K) :
    reflectChange change = if change = 180 then 180 else -change := by
  rw [← Scalar.exact_numeral 180]
  rfl

theorem abs_reflectChange (change : K) : |reflectChange change| = |change| := by
  rw [reflectChange_eq]
  split_ifs with hhalf
  · rw [hhalf]
  · exact abs_neg change

theorem exists_headingChange (start finish : K) :
    ∃ n : ℤ, finish - start = headingChange start finish + n * 360 := by
  have hrem : ∃ n : ℤ, Scalar.rem (finish - start) (360 : K) = finish - start - 360 * n := ⟨_, rfl⟩
  obtain ⟨n, hn⟩ := hrem
  unfold headingChange
  simp only [Scalar.exact_numeral, hn]
  split_ifs
  · exact ⟨n + 1, by push_cast; ring⟩
  · exact ⟨n - 1, by push_cast; ring⟩
  · exact ⟨n, by ring⟩

variable [IsStrictOrderedRing K]

theorem headingChange_eq_iff {start finish d : K} : headingChange start finish = d
    ↔ d ∈ Set.Ioc (-180) 180 ∧ ∃ n : ℤ, finish - start = d + n * 360 := by
  constructor
  · rintro rfl
    exact ⟨headingChange_mem start finish, exists_headingChange start finish⟩
  · rintro ⟨hd, n, hn⟩
    have hmem := headingChange_mem start finish
    obtain ⟨k, hk⟩ := exists_headingChange start finish
    have hrounds : headingChange start finish - d = ((n - k : ℤ) : K) * 360 := by
      push_cast
      linarith
    have hlow : (-1 : K) < ((n - k : ℤ) : K) := by linarith [hmem.1, hd.2]
    have hhigh : ((n - k : ℤ) : K) < 1 := by linarith [hmem.2, hd.1]
    have hnone : n - k = 0 := by
      have hlow : -1 < n - k := by exact_mod_cast hlow
      have hhigh : n - k < 1 := by exact_mod_cast hhigh
      omega
    rw [hnone, Int.cast_zero, zero_mul] at hrounds
    exact sub_eq_zero.1 hrounds

theorem headingChange_reflect {a b a' b' : K} {i j : ℤ} (ha : a' = -a + i * 360)
    (hb : b' = -b + j * 360) : headingChange a' b' = reflectChange (headingChange a b) := by
  obtain ⟨⟨hlow, hhigh⟩, n, hn⟩ := headingChange_eq_iff.1 (Eq.refl (headingChange a b))
  rw [headingChange_eq_iff, reflectChange_eq]
  split_ifs with hhalf
  · refine ⟨⟨by norm_num, le_rfl⟩, j - i - n - 1, ?_⟩
    rw [hhalf] at hn
    push_cast
    linarith
  · refine ⟨⟨neg_lt_neg (hhigh.lt_of_ne hhalf), by linarith⟩, j - i - n, ?_⟩
    push_cast
    linarith

theorem Scalar.exact_modulo_mem (a : K) {b : K} (hb : 0 < b) :
    Scalar.modulo a b ∈ Set.Ico 0 b ∧ ∃ n : ℤ, Scalar.modulo a b = a + n * b := by
  have hrem : ∃ n : ℤ, Scalar.rem a b = a - b * n := ⟨_, rfl⟩
  obtain ⟨n, hn⟩ := hrem
  obtain ⟨hlow, hhigh⟩ := abs_lt.1 (Scalar.exact_abs_rem_lt a hb)
  unfold Scalar.modulo
  simp only [Scalar.exact_zero, Scalar.exact_abs, abs_of_pos hb]
  split_ifs with hneg
  · refine ⟨⟨by linarith, by linarith⟩, 1 - n, ?_⟩
    rw [hn]
    push_cast
    ring
  · refine ⟨⟨not_lt.1 hneg, hhigh⟩, -n, ?_⟩
    rw [hn]
    push_cast
    ring

theorem Turn.ofChange_reflect (change : K) :
    ofChange (reflectChange change) = (ofChange change).reflect := by
  have hsize : Scalar.abs (reflectChange change) = Scalar.abs change := by
    rw [Scalar.exact_abs, Scalar.exact_abs, abs_reflectChange]
  -- the side is asked for only between these sizes, which leave out the half turn
  have hsides : Scalar.abs change ≤ 150 → 25 < Scalar.abs change →
      (0 < reflectChange change ↔ ¬ 0 < change) := by
    rw [Scalar.exact_abs]
    intro hhigh hlow
    have hhalf : change ≠ 180 := by
      rintro rfl
      norm_num at hhigh
    have hmoves : change ≠ 0 := by
      rintro rfl
      norm_num at hlow
    rw [reflectChange_eq, if_neg hhalf, neg_pos, not_lt, hmoves.le_iff_lt]
  unfold ofChange
  simp only [hsize, Scalar.exact_numeral, Scalar.exact_zero]
  split_ifs <;> grind [Turn.reflect]

end Headings

attribute [local instance] Scalar.exact Sphere.geodesy instOfNatAtLeastTwo

theorem Point.isValid_reflect {p : Point ℝ} : p.reflect.IsValid ↔ p.IsValid := by
  rw [isValid_iff, isValid_iff, reflect, abs_neg]

namespace Sphere

theorem radians_lon_reflect (a b : Point ℝ) :
    radians (b.reflect.lon - a.reflect.lon) = -radians (b.lon - a.lon) := by
  rw [← radians_neg, neg_sub]
  congr 1
  exact neg_sub_neg ..

theorem distance_reflect (a b : Point ℝ) : distance a.reflect b.reflect = distance a b := by
  rw [distance_eq, distance_eq, alignment, radians_lon_reflect, cos_neg]
  rfl

/-- The direction from the first point to the second, to the north along the real axis and to the
east along the imaginary one. -/
noncomputable def outset (a b : Point ℝ) : ℂ :=
  ⟨cos (radians a.lat) * sin (radians b.lat)
      - sin (radians a.lat) * cos (radians b.lat) * cos (radians (b.lon - a.lon)),
    sin (radians (b.lon - a.lon)) * cos (radians b.lat)⟩

theorem outset_reflect (a b : Point ℝ) :
    outset a.reflect b.reflect = conj (outset a b) := by
  unfold outset
  rw [radians_lon_reflect, cos_neg, sin_neg, neg_mul]
  rfl

theorem degrees_exact (x : ℝ) : degrees x = x * (180 / π) := by
  rw [← Scalar.exact_numeral 180]
  rfl

theorem degrees_neg (x : ℝ) : degrees (-x) = -degrees x := by
  rw [degrees_exact, degrees_exact, neg_mul]

theorem degrees_pi : degrees π = 180 := by
  rw [degrees_exact, mul_div_cancel₀ _ pi_ne_zero]

theorem exists_bearing (a b : Point ℝ) :
    ∃ n : ℤ, bearing a b = degrees (Complex.arg (outset a b)) + n * 360 := by
  obtain ⟨⟨-, hlt⟩, hrounds⟩ :=
    Scalar.exact_modulo_mem (degrees (Complex.arg (outset a b))) (show (0 : ℝ) < 360 by norm_num)
  have hdef : bearing a b = Scalar.modulo (degrees (Complex.arg (outset a b))) 360 := by
    rw [← Scalar.exact_numeral 360] at hlt ⊢
    exact if_neg hlt.not_ge
  rwa [hdef]

theorem bearing_reflect (a b : Point ℝ) :
    ∃ n : ℤ, bearing a.reflect b.reflect = -bearing a b + n * 360 := by
  obtain ⟨i, hi⟩ := exists_bearing a b
  obtain ⟨j, hj⟩ := exists_bearing a.reflect b.reflect
  rw [outset_reflect, Complex.arg_conj] at hj
  -- due south is a half turn from north to either side
  split_ifs at hj with hsouth
  · rw [hsouth, degrees_pi] at hi
    rw [degrees_pi] at hj
    refine ⟨i + j + 1, ?_⟩
    push_cast
    linarith
  · rw [degrees_neg] at hj
    refine ⟨i + j, ?_⟩
    push_cast
    linarith

end Sphere

/-- The same leg on the other side of the meridian. -/
def Leg.reflect (l : Leg ℝ) : Leg ℝ :=
  { l with start := l.start.reflect, finish := l.finish.reflect }

/-- The same maneuver to the other side. -/
noncomputable def Maneuver.reflect (m : Maneuver ℝ) : Maneuver ℝ :=
  { m with turn := m.turn.reflect, change := reflectChange m.change }

namespace Leg

variable (rules : Config.Turns ℝ)

theorem chain_reflect : ∀ (points : List (Point ℝ)) (index : Nat) (along : ℝ),
    chain index along (points.map Point.reflect) = (chain index along points).map reflect
  | [], _, _ => rfl
  | [_], _, _ => rfl
  | a :: b :: points, index, along => by
    have hlength : Geodesy.distance a.reflect b.reflect = Geodesy.distance a b :=
      Sphere.distance_reflect a b
    have hrest := chain_reflect (b :: points) (index + 1) (along + Geodesy.distance a b)
    rw [List.map_cons] at hrest
    rw [List.map_cons, List.map_cons, chain, chain, List.map_cons, hlength, hrest]
    rfl

theorem change_reflect (inbound outbound : Leg ℝ) :
    inbound.reflect.change outbound.reflect = reflectChange (inbound.change outbound) := by
  obtain ⟨i, hi⟩ := Sphere.bearing_reflect inbound.start inbound.finish
  obtain ⟨j, hj⟩ := Sphere.bearing_reflect outbound.start outbound.finish
  exact headingChange_reflect hi hj

theorem maneuver_reflect (inbound outbound : Leg ℝ) :
    inbound.reflect.maneuver outbound.reflect = (inbound.maneuver outbound).reflect := by
  unfold maneuver Maneuver.reflect
  rw [change_reflect, Turn.ofChange_reflect]
  rfl

theorem isTurn_reflect_iff {inbound outbound : Leg ℝ} :
    inbound.reflect.IsTurn rules outbound.reflect ↔ inbound.IsTurn rules outbound := by
  have hsize : |inbound.reflect.change outbound.reflect| = |inbound.change outbound| := by
    rw [change_reflect, abs_reflectChange]
  constructor
  · rintro ⟨hinbound, houtbound, hsharp⟩
    exact ⟨hinbound, houtbound, hsize ▸ hsharp⟩
  · rintro ⟨hinbound, houtbound, hsharp⟩
    exact ⟨hinbound, houtbound, hsize.symm ▸ hsharp⟩

theorem turn?_reflect (inbound outbound : Leg ℝ) :
    turn? rules inbound.reflect outbound.reflect
      = (turn? rules inbound outbound).map Maneuver.reflect := by
  ext m
  rw [turn?_eq_some_iff, isTurn_reflect_iff, maneuver_reflect, Option.map_eq_some_iff]
  simp only [turn?_eq_some_iff]
  constructor
  · rintro ⟨hturn, rfl⟩
    exact ⟨_, ⟨hturn, rfl⟩, rfl⟩
  · rintro ⟨_, ⟨hturn, rfl⟩, rfl⟩
    exact ⟨hturn, rfl⟩

theorem turns_reflect : ∀ (pairs : List (Leg ℝ × Leg ℝ)) (last : ℝ),
    turns rules last (pairs.map (Prod.map reflect reflect))
      = (turns rules last pairs).map Maneuver.reflect
  | [], _ => rfl
  | (inbound, outbound) :: pairs, last => by
    rw [List.map_cons, Prod.map_apply, turns, turns, turn?_reflect]
    cases turn? rules inbound outbound with
    | none => exact turns_reflect pairs last
    | some m =>
      dsimp only [Option.map_some]
      rw [show m.reflect.along = m.along from rfl]
      split_ifs
      · exact turns_reflect pairs last
      · rw [List.map_cons, turns_reflect pairs m.along]

end Leg

namespace Route

variable {rules : Config.Turns ℝ} {points : List (Point ℝ)} {route : Route ℝ}

/-- The same route on the other side of the meridian. -/
noncomputable def reflect (route : Route ℝ) : Route ℝ :=
  ⟨route.first.reflect, route.rest.map Leg.reflect, route.maneuvers.map Maneuver.reflect⟩

theorem last_reflect (route : Route ℝ) : route.reflect.last = route.last.reflect :=
  List.getLastD_map ..

theorem total_reflect (route : Route ℝ) : route.reflect.total = route.total := by
  rw [total, last_reflect]
  rfl

theorem distances_reflect (route : Route ℝ) : route.reflect.distances = route.distances := by
  have hlegs : (route.legs.map Leg.reflect).map (·.along) = route.legs.map (·.along) :=
    List.map_map
  rw [distances, total_reflect, distances, ← hlegs]
  rfl

theorem maneuversOf_reflect (rules : Config.Turns ℝ) (first : Leg ℝ) (rest : List (Leg ℝ)) :
    maneuversOf rules first.reflect (rest.map Leg.reflect)
      = (maneuversOf rules first rest).map Maneuver.reflect := by
  have hend : ∀ (index : Nat) (along : ℝ) (t : Turn), t.reflect = t →
      (⟨index, along, t, 0⟩ : Maneuver ℝ).reflect = ⟨index, along, t, 0⟩ := by
    intro index along t ht
    have hstill : reflectChange (0 : ℝ) = 0 := by norm_num [reflectChange_eq]
    rw [Maneuver.reflect, ht, hstill]
  unfold maneuversOf
  rw [← List.map_cons, stretches_map, List.getLastD_map, Scalar.exact_zero]
  dsimp only
  rw [Leg.turns_reflect, List.map_append, List.map_cons, List.map_singleton, hend _ _ _ rfl,
    hend _ _ _ rfl]
  rfl

theorem ofPoints_reflect (h : ofPoints rules points = .ok route) :
    ofPoints rules (points.map Point.reflect) = .ok route.reflect := by
  obtain ⟨hchain, hvalid, hmaneuvers, hlong⟩ := ofPoints_eq_ok_iff.1 h
  refine ofPoints_eq_ok_iff.2 ⟨?_, ?_, ?_, ?_⟩
  · rw [Leg.chain_reflect, hchain]
    rfl
  · intro q hq
    obtain ⟨p, hp, rfl⟩ := List.mem_map.1 hq
    exact Point.isValid_reflect.2 (hvalid p hp)
  · exact (congrArg _ hmaneuvers).trans (maneuversOf_reflect rules _ _).symm
  · rwa [total_reflect]

end Route

namespace Trial

noncomputable def northward : Leg ℝ := ⟨0, ⟨0, -1⟩, ⟨0, 0⟩, 0, Geodesy.degreeLength⟩

noncomputable def eastward : Leg ℝ :=
  ⟨1, ⟨0, 0⟩, ⟨1, 0⟩, Geodesy.degreeLength, Geodesy.degreeLength⟩

/-- A road north to the equator and then east along it, a degree each. -/
noncomputable def bend : Route ℝ :=
  ⟨northward, [eastward], Route.maneuversOf .standard northward [eastward]⟩

theorem distance_bend : Sphere.distance northward.start northward.finish = Geodesy.degreeLength
    ∧ Sphere.distance eastward.start eastward.finish = Geodesy.degreeLength := by
  have hpi := pi_pos
  have hangle : arccos (cos (π / 180)) = π / 180 := arccos_cos (by positivity) (by linarith)
  have hmeridian : Sphere.ShareMeridian northward.start northward.finish := .inl rfl
  rw [Sphere.degreeLength_eq]
  constructor
  · rw [Sphere.distance_eq, Sphere.alignment_of_shareMeridian hmeridian]
    norm_num [northward, Sphere.radians_one, hangle]
  · rw [eastward, Sphere.distance_equator, sub_zero, Sphere.radians_one, hangle]

theorem change_bend : northward.change eastward = 90 := by
  have hpi := pi_pos
  have hsin : 0 < sin (π / 180) := sin_pos_of_pos_of_lt_pi (by positivity) (by linarith)
  have hnorth : Complex.arg (Sphere.outset northward.start northward.finish) = 0 := by
    rw [Complex.arg_eq_zero_iff]
    norm_num [Sphere.outset, northward, Sphere.radians_zero, Sphere.radians_neg,
      Sphere.radians_one, hsin.le]
  have heast : Complex.arg (Sphere.outset eastward.start eastward.finish) = π / 2 := by
    rw [Complex.arg_eq_pi_div_two_iff]
    norm_num [Sphere.outset, eastward, Sphere.radians_zero, Sphere.radians_one, hsin]
  have hright : Sphere.degrees (π / 2) = 90 := by
    rw [Sphere.degrees_exact]
    field_simp
    norm_num
  obtain ⟨i, hi⟩ := Sphere.exists_bearing northward.start northward.finish
  obtain ⟨j, hj⟩ := Sphere.exists_bearing eastward.start eastward.finish
  rw [hnorth, Sphere.degrees_exact, zero_mul] at hi
  rw [heast, hright] at hj
  refine headingChange_eq_iff.2 ⟨⟨by norm_num, by norm_num⟩, j - i, ?_⟩
  show Sphere.bearing _ _ - Sphere.bearing _ _ = _
  rw [hi, hj]
  push_cast
  ring

theorem degreeLength_gt : (100 : ℝ) < Geodesy.degreeLength := by
  rw [Sphere.degreeLength_eq]
  linarith [pi_gt_three]

theorem maneuvers_bend : bend.maneuvers = [⟨0, 0, .depart, 0⟩,
    ⟨1, Geodesy.degreeLength, .right, 90⟩,
    ⟨2, Geodesy.degreeLength + Geodesy.degreeLength, .arrive, 0⟩] := by
  have hlong := degreeLength_gt
  have hmaneuver : northward.maneuver eastward = ⟨1, Geodesy.degreeLength, .right, 90⟩ := by
    unfold Leg.maneuver
    rw [change_bend]
    simp only [Turn.ofChange, Scalar.exact_abs, Scalar.exact_numeral, Scalar.exact_zero]
    norm_num [eastward]
  have hstretch : Config.Turns.standard.minStretch ≤ (Geodesy.degreeLength : ℝ) := by
    norm_num [Config.Turns.standard, Scalar.exact_numeral]
    linarith
  have hsharp : Config.Turns.standard.minTurn ≤ |northward.change eastward| := by
    norm_num [Config.Turns.standard, change_bend, Scalar.exact_numeral]
  have htaken := Leg.turn?_eq_some_iff.2 ⟨⟨hstretch, hstretch, hsharp⟩, hmaneuver.symm⟩
  have hfar : ¬ Geodesy.degreeLength - 0 < (Config.Turns.standard.minSpacing : ℝ) := by
    norm_num [Config.Turns.standard, Scalar.exact_numeral]
    linarith
  simp only [bend, Route.maneuversOf, stretches, Leg.turns, htaken, Scalar.exact_zero, if_neg hfar]
  rfl

theorem ofPoints_bend : Route.ofPoints .standard bend.points = .ok bend := by
  have hchain : Leg.chain 0 0 bend.points = [northward, eastward] := by
    have hnorth : Geodesy.distance northward.start northward.finish = _ := distance_bend.1
    have heast : Geodesy.distance northward.finish eastward.finish = _ := distance_bend.2
    show Leg.chain 0 0 [northward.start, northward.finish, eastward.finish] = _
    simp only [Leg.chain, hnorth, heast, zero_add]
    rfl
  rw [Route.ofPoints_eq_ok_iff, Scalar.exact_zero]
  refine ⟨hchain, ?_, rfl, ?_⟩
  · norm_num [Route.points, Route.start, Route.legs, bend, northward, eastward,
      Point.isValid_iff]
  · show ¬ (Geodesy.degreeLength + Geodesy.degreeLength : ℝ) ≤ 0
    linarith [degreeLength_gt]

end Trial

namespace Route

variable {rules : Config.Turns ℝ} {points : List (Point ℝ)} {route : Route ℝ}

/-- Where the longitudes of a route change their sign, the maneuvers are at the same places along
it, each to the other side. -/
theorem reflects_turns (h : ofPoints rules points = .ok route) :
    ∃ other, ofPoints rules (points.map Point.reflect) = .ok other
      ∧ other.distances = route.distances
      ∧ other.maneuvers = route.maneuvers.map Maneuver.reflect :=
  ⟨route.reflect, ofPoints_reflect h, route.distances_reflect, rfl⟩

/-- A bend to the right becomes one to the left. -/
theorem reflects_turns_bend : ∃ other,
    ofPoints .standard (Trial.bend.points.map Point.reflect) = .ok other
      ∧ other.maneuvers = [⟨0, 0, .depart, 0⟩, ⟨1, Geodesy.degreeLength, .left, -90⟩,
        ⟨2, Geodesy.degreeLength + Geodesy.degreeLength, .arrive, 0⟩] := by
  obtain ⟨other, hother, -, hmaneuvers⟩ := reflects_turns Trial.ofPoints_bend
  refine ⟨other, hother, hmaneuvers.trans ?_⟩
  rw [Trial.maneuvers_bend]
  norm_num [Maneuver.reflect, Turn.reflect, reflectChange_eq]

end Route

end Roadbook

import Mathlib.Data.List.Forall2
import Roadbook.Proofs.Coverage.Bounds
import Roadbook.Proofs.Ground.Rotation
import Roadbook.Proofs.Route.Places

/-!
# Roads wherever longitude zero lies

Counting longitudes from another meridian changes no length along a road (`Leg.rotated_chain`).
Where the feet on all its stretches are kept, the road is as far away as before and the position is
found at the same place of the route (`Matcher.rotated_locate`). Where position and road stay
together, they and the bounds of the road are moved by one angle (`IsRotatedRoad.exists_shift`), and
coverage is the same as well (`Track.isWithin_shift`).
-/

namespace Roadbook

attribute [local instance] Scalar.exact Sphere.geodesy instOfNatAtLeastTwo

section Lists

variable {β γ : Type} {R : β → γ → Prop}

theorem forall₂_stretches : ∀ {as : List β} {bs : List γ}, List.Forall₂ R as bs →
    List.Forall₂ (fun s t => R s.1 t.1 ∧ R s.2 t.2) (stretches as) (stretches bs)
  | _, _, .nil => .nil
  | _, _, .cons _ .nil => .nil
  | _, _, .cons ha (.cons hb h) => .cons ⟨ha, hb⟩ (forall₂_stretches (.cons hb h))

theorem rel_getLastD : ∀ {bs : List β} {cs : List γ} {b : β} {c : γ}, R b c →
    List.Forall₂ R bs cs → R (bs.getLastD b) (cs.getLastD c)
  | _, _, _, _, h, .nil => h
  | _, _, _, _, _, .cons hd hrest => by
    rw [List.getLastD_cons, List.getLastD_cons]
    exact rel_getLastD hd hrest

/-- Of things that come before one another alike the same one is the first. -/
theorem Scalar.rel_firstBy? {before : β → β → Prop} {before' : γ → γ → Prop}
    [DecidableRel before] [DecidableRel before']
    (hbefore : ∀ {b c : β} {b' c' : γ}, R b b' → R c c' → (before b c ↔ before' b' c')) :
    ∀ {bs : List β} {bs' : List γ}, List.Forall₂ R bs bs' →
      Option.Rel R (firstBy? before bs) (firstBy? before' bs')
  | _, _, .nil => .none
  | _, _, .cons hb h => by
    refine .some (List.rel_foldl ?_ hb h)
    intro best best' hbest c c' hc
    simp only [hbefore hc hbest]
    split_ifs
    exacts [hc, hbest]

theorem rel_getD {b? : Option β} {c? : Option γ} {b : β} {c : γ} (h : Option.Rel R b? c?)
    (hdefault : R b c) : R (b?.getD b) (c?.getD c) := by
  cases h with
  | some h => exact h
  | none => exact hdefault

theorem rel_bind {δ ε : Type} {S : δ → ε → Prop} {b? : Option β} {c? : Option γ}
    {f : β → Option δ} {g : γ → Option ε} (h : Option.Rel R b? c?)
    (hnext : ∀ b c, R b c → Option.Rel S (f b) (g c)) : Option.Rel S (b?.bind f) (c?.bind g) := by
  cases h with
  | some h => exact hnext _ _ h
  | none => exact .none

end Lists

variable {angle : ℝ} {p p' : Point ℝ}

/-- The same leg with longitudes counted from another meridian. -/
structure Leg.IsRotated (angle : ℝ) (l l' : Leg ℝ) : Prop where
  index : l'.index = l.index
  start : l.start.IsRotated angle l'.start
  finish : l.finish.IsRotated angle l'.finish
  along : l'.along = l.along
  length : l'.length = l.length

/-- The same place on a route with longitudes counted from another meridian. -/
structure Match.IsRotated (angle : ℝ) (m m' : Match ℝ) : Prop where
  leg : m'.leg = m.leg
  distance : m'.distance = m.distance
  foot : m.foot.IsRotated angle m'.foot
  along : m'.along = m.along

namespace Leg

theorem rotated_chain : ∀ {line line' : List (Point ℝ)},
    List.Forall₂ (Point.IsRotated angle) line line' → ∀ (index : Nat) (along : ℝ),
      List.Forall₂ (IsRotated angle) (chain index along line) (chain index along line')
  | _, _, .nil, _, _ => .nil
  | _, _, .cons _ .nil, _, _ => .nil
  | a :: b :: _, a' :: b' :: _, .cons ha (.cons hb h), index, along => by
    have hlength : Geodesy.distance a' b' = Geodesy.distance a b := Sphere.distance_rotated ha hb
    simp only [chain, hlength]
    exact .cons ⟨rfl, ha, hb, rfl, rfl⟩ (rotated_chain (.cons hb h) _ _)

variable {l l' : Leg ℝ}

theorem IsRotated.alongEnd (h : l.IsRotated angle l') : l'.alongEnd = l.alongEnd := by
  unfold Leg.alongEnd
  rw [h.along, h.length]

theorem IsRotated.locate (h : l.IsRotated angle l')
    (hfoot : (project p l.start l.finish).IsRotated angle (project p' l'.start l'.finish)) :
    (l.locate p).IsRotated angle (l'.locate p') where
  leg := h.index
  distance := hfoot.distance
  foot := hfoot.foot
  along := by
    unfold Leg.locate
    dsimp only
    rw [h.along, h.length, hfoot.fraction]

end Leg

/-- The position is found alike on legs that correspond. -/
def LocatesAlike (angle : ℝ) (p p' : Point ℝ) (legs legs' : List (Leg ℝ)) : Prop :=
  List.Forall₂ (fun l l' => (l.locate p).IsRotated angle (l'.locate p')) legs legs'

theorem Match.rotated_best? {legs legs' : List (Leg ℝ)} (h : LocatesAlike angle p p' legs legs') :
    Option.Rel (IsRotated angle) (best? p legs) (best? p' legs') := by
  refine Scalar.rel_firstBy? (fun hb hc => ?_)
    (List.forall₂_map_left_iff.2 (List.forall₂_map_right_iff.2 h))
  rw [hb.distance, hc.distance]

namespace Matcher

variable {route route' : Route ℝ} (h : LocatesAlike angle p p' route.legs route'.legs)

include h

theorem rotated_nearby? (rules : Config.Matching ℝ) (m : Matcher) :
    Option.Rel (Match.IsRotated angle) (m.nearby? rules route p) (m.nearby? rules route' p') := by
  have hlength : route'.rest.length = route.rest.length := by
    have hlegs := h.length_eq
    simp only [Route.legs, List.length_cons] at hlegs
    omega
  unfold nearby?
  rcases m.cursor with _ | cursor
  · exact .none
  · have hwindow : LocatesAlike angle p p' (window rules route cursor)
        (window rules route' cursor) := by
      unfold window
      rw [hlength]
      exact List.forall₂_drop _ (List.forall₂_take _ h)
    simp only [Option.bind_eq_bind, Option.bind_some]
    refine rel_bind (Match.rotated_best? hwindow) fun found found' hfound => ?_
    rw [hfound.distance]
    split_ifs
    exacts [.some hfound, .none]

theorem rotated_locate (rules : Config.Matching ℝ) (m : Matcher) :
    (m.locate rules route p).1.IsRotated angle (m.locate rules route' p').1
      ∧ (m.locate rules route' p').2 = (m.locate rules route p).2 := by
  have hfirst : (route.first.locate p).IsRotated angle (route'.first.locate p') :=
    (List.forall₂_cons.1 h).1
  have hfound : (m.locate rules route p).1.IsRotated angle (m.locate rules route' p').1 :=
    rel_getD (rotated_nearby? h rules m) (rel_getD (Match.rotated_best? h) hfirst)
  exact ⟨hfound, congrArg (fun leg => (⟨some leg⟩ : Matcher)) hfound.leg⟩

end Matcher

theorem distanceToLine?_rotated {line line' : List (Point ℝ)}
    (hpoint : p.IsRotated angle p') (h : List.Forall₂ (Point.IsRotated angle) line line')
    (hfeet : List.Forall₂ (fun s s' => (project p s.1 s.2).IsRotated angle
      (project p' s'.1 s'.2)) (stretches line) (stretches line')) :
    distanceToLine? p' line' = distanceToLine? p line := by
  have hsame : List.Forall₂ (· = ·) ((stretches line').map (distanceToStretch p'))
      ((stretches line).map (distanceToStretch p)) := by
    rw [List.forall₂_map_left_iff, List.forall₂_map_right_iff]
    exact hfeet.flip.imp fun _ _ hfoot => hfoot.distance
  rw [List.forall₂_eq_eq_eq] at hsame
  match line, line', h with
  | _, _, .nil => rfl
  | _, _, .cons ha .nil => exact congrArg some (Sphere.distance_rotated hpoint ha)
  | _, _, .cons _ (.cons _ _) => rw [distanceToLine?_cons, distanceToLine?_cons, hsame]

section Shift

/-- The point moved east, in no particular round. -/
def Point.shift (x : ℝ) (p : Point ℝ) : Point ℝ := ⟨p.lon + x, p.lat⟩

def Bounds.shift (x : ℝ) (b : Bounds ℝ) : Bounds ℝ := ⟨b.low.shift x, b.high.shift x⟩

variable (x : ℝ)

theorem Scalar.clamp_add (lo hi a : ℝ) :
    Scalar.clamp (lo + x) (hi + x) (a + x) = Scalar.clamp lo hi a + x := by
  unfold Scalar.clamp
  simp only [add_lt_add_iff_right]
  split_ifs <;> rfl

theorem Bounds.add_shift (b : Bounds ℝ) (p : Point ℝ) :
    (b.shift x).add (p.shift x) = (b.add p).shift x := by
  simp only [add, shift, Point.shift, Scalar.exact_min, Scalar.exact_max, min_add_add_right,
    max_add_add_right]

theorem Bounds.foldl_add_shift : ∀ (rest : List (Point ℝ)) (b : Bounds ℝ),
    (rest.map (Point.shift x)).foldl add (b.shift x) = (rest.foldl add b).shift x
  | [], _ => rfl
  | p :: rest, b => by
    rw [List.map_cons, List.foldl_cons, add_shift]
    exact foldl_add_shift rest (b.add p)

theorem Bounds.clamp_shift (b : Bounds ℝ) (p : Point ℝ) :
    (b.shift x).clamp (p.shift x) = (b.clamp p).shift x := by
  simp only [clamp, shift, Point.shift, Scalar.clamp_add]

theorem Track.bounds_shift {t t' : Track ℝ} (h : t'.line = t.line.map (Point.shift x)) :
    t'.bounds = t.bounds.shift x := by
  unfold line at h
  rw [List.map_cons, List.cons.injEq] at h
  unfold bounds
  rw [h.1, h.2]
  exact Bounds.foldl_add_shift x t.rest ⟨t.first, t.first⟩

theorem Point.isRotated_shift (p : Point ℝ) : p.IsRotated x (p.shift x) :=
  ⟨rfl, 0, by simp [shift]⟩

theorem Track.isWithin_shift {t t' : Track ℝ} (h : t'.line = t.line.map (Point.shift x))
    (hdistance : distanceToLine? (p.shift x) t'.line = distanceToLine? p t.line) (radius : ℝ) :
    t'.isWithin (p.shift x) radius = t.isWithin p radius := by
  have hbounds : Geodesy.distance (p.shift x) (t'.bounds.clamp (p.shift x))
      = Geodesy.distance p (t.bounds.clamp p) := by
    rw [bounds_shift x h, Bounds.clamp_shift]
    exact Sphere.distance_rotated (p.isRotated_shift x) ((t.bounds.clamp p).isRotated_shift x)
  unfold isWithin
  rw [hbounds, hdistance]

end Shift

/-- A point and a line, given in two ways that differ by where longitude zero lies. Each stretch
of the line is beside the point, as first given. -/
structure IsRotatedRoad (angle : ℝ) (p p' : Point ℝ) (line line' : List (Point ℝ)) : Prop where
  point : p.IsRotated angle p'
  points : List.Forall₂ (Point.IsRotated angle) line line'
  valid : ∀ q ∈ line, q.IsValid
  valid' : ∀ q ∈ line', q.IsValid
  beside : ∀ q ∈ line, p.IsBeside q
  short : ∀ s ∈ stretches line, s.1.IsBeside s.2

/-- The foot on each stretch is kept. -/
def KeepsFeet (p p' : Point ℝ) (line line' : List (Point ℝ)) : Prop :=
  List.Forall₂ (fun s s' => Sphere.KeepsFoot p s.1 s.2 p' s'.1 s'.2) (stretches line)
    (stretches line')

namespace IsRotatedRoad

variable {line line' : List (Point ℝ)} (h : IsRotatedRoad angle p p' line line')

include h

theorem project_iff : List.Forall₂ (fun s s' =>
    (project p s.1 s.2).IsRotated angle (project p' s'.1 s'.2)
      ↔ Sphere.KeepsFoot p s.1 s.2 p' s'.1 s'.2) (stretches line) (stretches line') := by
  have hends := forall₂_stretches h.points
  refine List.forall₂_iff_zip.2 ⟨hends.length_eq, fun {s s'} hs => ?_⟩
  obtain ⟨ha, hb⟩ := List.forall₂_zip hends hs
  obtain ⟨hmem, hmem'⟩ := List.of_mem_zip hs
  obtain ⟨hstart, hfinish⟩ := mem_of_mem_stretches hmem
  obtain ⟨hstart', hfinish'⟩ := mem_of_mem_stretches hmem'
  exact Sphere.project_rotated_iff h.point ha hb (h.valid _ hstart) (h.valid _ hfinish)
    (h.valid' _ hstart') (h.valid' _ hfinish') (h.beside _ hstart) (h.beside _ hfinish)
    (h.short s hmem)

theorem rotated_project (hfeet : KeepsFeet p p' line line') : List.Forall₂ (fun s s' =>
    (project p s.1 s.2).IsRotated angle (project p' s'.1 s'.2)) (stretches line)
      (stretches line') :=
  hfeet.mp (fun _ _ hkeeps hiff => hiff.2 hkeeps) h.project_iff

/-- A road that is a route is one as before, of the same length leg by leg. -/
theorem exists_route {turns : Config.Turns ℝ} {route : Route ℝ}
    (hroute : Route.ofPoints turns line = .ok route) :
    ∃ route', Route.ofPoints turns line' = .ok route' ∧
      List.Forall₂ (Leg.IsRotated angle) route.legs route'.legs := by
  obtain ⟨hchain, -, -, hlong⟩ := Route.ofPoints_eq_ok_iff.1 hroute
  have hlegs := Leg.rotated_chain h.points 0 (Scalar.ofInt 0)
  rw [show Leg.chain 0 (Scalar.ofInt 0) line = route.first :: route.rest from hchain] at hlegs
  obtain ⟨first, rest, hfirst, hrest, hchain'⟩ := List.forall₂_cons_left_iff.1 hlegs
  refine ⟨⟨first, rest, Route.maneuversOf turns first rest⟩,
    Route.ofPoints_eq_ok_iff.2 ⟨hchain', h.valid', rfl, ?_⟩, .cons hfirst hrest⟩
  have htotal : (rest.getLastD first).alongEnd = route.total :=
    (rel_getLastD hfirst hrest).alongEnd
  show ¬ (rest.getLastD first).alongEnd ≤ _
  rwa [htotal]

/-- Where the feet are kept, the position is found on the legs as before. -/
theorem locatesAlike (hfeet : KeepsFeet p p' line line') {turns : Config.Turns ℝ}
    {route route' : Route ℝ} (hroute : Route.ofPoints turns line = .ok route)
    (hroute' : Route.ofPoints turns line' = .ok route')
    (hlegs : List.Forall₂ (Leg.IsRotated angle) route.legs route'.legs) :
    LocatesAlike angle p p' route.legs route'.legs := by
  have hfound := h.rotated_project hfeet
  rw [← Route.ends_legs hroute, ← Route.ends_legs hroute', List.forall₂_map_left_iff,
    List.forall₂_map_right_iff] at hfound
  exact hlegs.mp (fun _ _ hleg hfoot => hleg.locate hfoot) hfound

theorem keepsFeet (hbeside : ∀ q ∈ line', p'.IsBeside q) : KeepsFeet p p' line line' := by
  refine List.forall₂_iff_zip.2 ⟨(forall₂_stretches h.points).length_eq, fun {s s'} hs => ?_⟩
  obtain ⟨hstart, hfinish⟩ := mem_of_mem_stretches (List.of_mem_zip hs).2
  exact .inl ⟨hbeside _ hstart, hbeside _ hfinish⟩

/-- A road that stays beside the point is moved with it. -/
theorem exists_shift (hbeside : ∀ q ∈ line', p'.IsBeside q) :
    ∃ x, p' = p.shift x ∧ line' = line.map (Point.shift x) := by
  obtain ⟨i, hi⟩ := h.point.lon
  have hshift : ∀ {q q' : Point ℝ}, q'.lat = q.lat → q'.lon = q.lon + angle + i * 360 →
      q' = q.shift (angle + i * 360) := by
    intro q q' hlat hlon
    rw [add_assoc] at hlon
    exact congrArg₂ Point.mk hlon hlat
  refine ⟨angle + i * 360, hshift h.point.lat hi, ?_⟩
  have heq : List.Forall₂ (· = ·) line' (line.map (Point.shift (angle + i * 360))) := by
    rw [List.forall₂_map_right_iff]
    refine List.forall₂_iff_zip.2 ⟨h.points.length_eq.symm, fun {q' q} hmem => ?_⟩
    obtain ⟨hq', hq⟩ := List.of_mem_zip hmem
    obtain ⟨hlat, j, hj⟩ := List.forall₂_zip h.points.flip hmem
    have hround := (h.beside q hq).rounds_eq hi (hbeside q' hq') hj
    exact hshift hlat (hround ▸ hj)
  rwa [List.forall₂_eq_eq_eq] at heq

end IsRotatedRoad

/-- No distance to a point of the road and no length of the road depends on where longitude zero
lies. The foot on a stretch is the same place just in the cases of `Sphere.KeepsFoot`. Where it is
on each stretch, the road is as far away and the position is found at the same place of the route.
That is so where the position stays beside the whole road, and there coverage is the same too. -/
theorem matching_rotated_iff {line line' : List (Point ℝ)}
    (h : IsRotatedRoad angle p p' line line') :
    List.Forall₂ (fun q q' => Geodesy.distance p' q' = Geodesy.distance p q) line line'
      ∧ List.Forall₂ (fun s s' => (project p s.1 s.2).IsRotated angle (project p' s'.1 s'.2)
          ↔ Sphere.KeepsFoot p s.1 s.2 p' s'.1 s'.2) (stretches line) (stretches line')
      ∧ (∀ turns route, Route.ofPoints turns line = .ok route → ∃ route',
          Route.ofPoints turns line' = .ok route'
            ∧ List.Forall₂ (Leg.IsRotated angle) route.legs route'.legs
            ∧ (KeepsFeet p p' line line' → ∀ rules (m : Matcher),
              (m.locate rules route p).1.IsRotated angle (m.locate rules route' p').1
                ∧ (m.locate rules route' p').2 = (m.locate rules route p).2))
      ∧ (KeepsFeet p p' line line' → distanceToLine? p' line' = distanceToLine? p line)
      ∧ ((∀ q ∈ line', p'.IsBeside q) → KeepsFeet p p' line line'
          ∧ ∀ t t' : Track ℝ, t.line = line → t'.line = line' → ∀ radius,
            t'.isWithin p' radius = t.isWithin p radius) := by
  have hline : KeepsFeet p p' line line' → distanceToLine? p' line' = distanceToLine? p line :=
    fun hfeet => distanceToLine?_rotated h.point h.points (h.rotated_project hfeet)
  refine ⟨h.points.imp fun _ _ hq => Sphere.distance_rotated h.point hq, h.project_iff,
    fun turns route hroute => ?_, hline, fun hbeside => ⟨h.keepsFeet hbeside, ?_⟩⟩
  · obtain ⟨route', hroute', hlegs⟩ := h.exists_route hroute
    exact ⟨route', hroute', hlegs, fun hfeet rules m =>
      Matcher.rotated_locate (h.locatesAlike hfeet hroute hroute' hlegs) rules m⟩
  · rintro t t' rfl rfl radius
    have hsame := hline (h.keepsFeet hbeside)
    obtain ⟨x, rfl, hx⟩ := h.exists_shift hbeside
    exact Track.isWithin_shift x hx hsame radius

namespace Trial

/-- A street along the equator, of a thousandth of a degree. -/
noncomputable def street (lon : ℝ) : Track ℝ := ⟨⟨lon - 1 / 2000, 0⟩, [⟨lon + 1 / 2000, 0⟩], 0⟩

/-- The street across the antimeridian, with the longitudes that it has there. -/
noncomputable def crossing : Track ℝ := ⟨⟨359999 / 2000, 0⟩, [⟨-359999 / 2000, 0⟩], 0⟩

end Trial

open Trial

theorem isRotatedRoad_street :
    IsRotatedRoad 200 ⟨0, 0⟩ ⟨-160, 0⟩ (street 0).line (street (-160)).line where
  point := ⟨rfl, -1, by norm_num⟩
  points := .cons ⟨rfl, -1, by norm_num [street]⟩ (.cons ⟨rfl, -1, by norm_num⟩ .nil)
  valid := by norm_num [street, Track.line, Point.isValid_iff, abs_le]
  valid' := by norm_num [street, Track.line, Point.isValid_iff, abs_le]
  beside := by norm_num [street, Track.line, Point.isBeside_iff, abs_le]
  short := by norm_num [street, Track.line, stretches, Point.isBeside_iff, abs_le]

theorem matching_rotated_iff_street : IsRotatedRoad 200 ⟨0, 0⟩ ⟨-160, 0⟩ (street 0).line
      (street (-160)).line
    ∧ distanceToLine? ⟨-160, 0⟩ (street (-160)).line = distanceToLine? ⟨0, 0⟩ (street 0).line
    ∧ (street (-160)).isWithin ⟨-160, 0⟩ 25 = (street 0).isWithin ⟨0, 0⟩ 25 := by
  have hbeside : ∀ q ∈ (street (-160)).line, (⟨-160, 0⟩ : Point ℝ).IsBeside q := by
    norm_num [street, Track.line, Point.isBeside_iff, abs_le]
  obtain ⟨-, -, -, hline, hstays⟩ := matching_rotated_iff isRotatedRoad_street
  obtain ⟨hfeet, hcoverage⟩ := hstays hbeside
  exact ⟨isRotatedRoad_street, hline hfeet, hcoverage _ _ rfl rfl 25⟩

theorem isRotatedRoad_crossing :
    IsRotatedRoad 180 ⟨0, 0⟩ ⟨180, 0⟩ (street 0).line crossing.line where
  point := ⟨rfl, 0, by norm_num⟩
  points := .cons ⟨rfl, 0, by norm_num [street, crossing]⟩ (.cons ⟨rfl, -1, by norm_num⟩ .nil)
  valid := by norm_num [street, Track.line, Point.isValid_iff, abs_le]
  valid' := by norm_num [crossing, Track.line, Point.isValid_iff, abs_le]
  beside := by norm_num [street, Track.line, Point.isBeside_iff, abs_le]
  short := by norm_num [street, Track.line, stretches, Point.isBeside_iff, abs_le]

/-- The middle of a street is not found on it where the street crosses the antimeridian. -/
theorem crossing_lost : IsRotatedRoad 180 ⟨0, 0⟩ ⟨180, 0⟩ (street 0).line crossing.line
    ∧ (⟨0, 0⟩ : Point ℝ).IsValid ∧ (⟨180, 0⟩ : Point ℝ).IsValid
    ∧ distanceToLine? ⟨0, 0⟩ (street 0).line = some 0
    ∧ ∃ d, distanceToLine? ⟨180, 0⟩ crossing.line = some d ∧ 25 < d := by
  have hline : ∀ p a b : Point ℝ, distanceToLine? p [a, b]
      = some (Sphere.distance p (a.between b (project p a b).fraction)) := by
    intro p a b
    rw [distanceToLine?_cons, ← project_foot]
    exact congrArg some (project_distance p a b)
  have hmiddle : (project (⟨0, 0⟩ : Point ℝ) ⟨0 - 1 / 2000, 0⟩ ⟨0 + 1 / 2000, 0⟩).fraction
      = 1 / 2 := by
    rw [Sphere.fraction_equator 0 (by norm_num)]
    norm_num [Scalar.clamp]
  -- the stretch is taken to lead round the earth, away from the point
  have hstart : (project (⟨180, 0⟩ : Point ℝ) ⟨359999 / 2000, 0⟩ ⟨-359999 / 2000, 0⟩).fraction
      = 0 := by
    rw [Sphere.fraction_equator 180 (by norm_num)]
    norm_num [Scalar.clamp]
  refine ⟨isRotatedRoad_crossing, Point.isValid_iff.2 (by norm_num),
    Point.isValid_iff.2 (by norm_num), (hline _ _ _).trans (congrArg some ?_), _, hline _ _ _, ?_⟩
  · have hmean : (0 : ℝ) - 1 / 2000 + 1 / 2 * (0 + 1 / 2000 - (0 - 1 / 2000)) = 0 := by norm_num
    dsimp only [street]
    rw [hmiddle, Point.between_exact]
    dsimp only
    rw [hmean, sub_self, mul_zero, add_zero, Sphere.distance_equator, sub_self,
      Sphere.radians_zero, Real.cos_zero, Real.arccos_one, mul_zero]
  · have hoff : Real.cos (Sphere.radians (359999 / 2000 - 180)) = Real.cos (Real.pi / 360000) := by
      rw [← Real.cos_neg, ← Sphere.radians_neg, Sphere.radians_exact]
      congr 1
      ring
    have hpi := Real.two_le_pi
    dsimp only [crossing]
    rw [hstart, Point.between_zero, Sphere.distance_equator, hoff,
      Real.arccos_cos (by positivity) (by linarith)]
    linarith

end Roadbook

import Roadbook.Proofs.Route.Tables

/-!
# The nearest place on a route

A position is looked for among the legs around the last one found, and among all legs when nothing
there is near enough (`Matcher.locate_cases`). What is found is the first of the nearest places on
the whole route whenever it is far off or nothing was found before, and it is near whenever some
place on the route is (`Matcher.finds_locate`). The same is found by the numbers of legs in the
tables of the route, and every entry that this asks for exists (`Route.lookUp?_eq`).
-/

namespace Roadbook

variable {α : Type} [Scalar α] [Geodesy α]

/-- How far a position is from each leg. -/
def Route.offsets (route : Route α) (p : Point α) : List α :=
  route.legs.map fun leg => (leg.locate p).distance

/-- No place on the route is nearer, and no leg before has one as near. -/
structure Route.IsNearest (route : Route α) (p : Point α) (m : Match α) : Prop where
  located : ∃ leg, route.legs[m.leg]? = some leg ∧ m = leg.locate p
  least : ∀ leg ∈ route.legs, m.distance ≤ (leg.locate p).distance
  first : ∀ leg ∈ route.legs, leg.index < m.leg → m.distance < (leg.locate p).distance

namespace Matcher

/-- The leg with a number is one of those around a cursor, which counts as the last leg when it is
beyond it. -/
def Covers (rules : Config.Matching α) (route : Route α) (cursor i : Nat) : Prop :=
  min cursor route.rest.length ≤ i + rules.lookBehind
    ∧ i ≤ min cursor route.rest.length + rules.lookAhead

/-- What a match that a matcher finds is good for. -/
structure Finds (m : Matcher) (rules : Config.Matching α) (route : Route α) (p : Point α)
    (found : Match α) : Prop where
  located : ∃ leg, route.legs[found.leg]? = some leg ∧ found = leg.locate p
  around : ∀ cursor, m.cursor = some cursor → ∀ leg ∈ route.legs,
    Covers rules route cursor leg.index → found.distance ≤ (leg.locate p).distance
  far : m.cursor = none ∨ ¬ found.distance ≤ rules.fullScanDistance → route.IsNearest p found
  near : (∃ d ∈ route.offsets p, d ≤ rules.fullScanDistance) →
    found.distance ≤ rules.fullScanDistance
  whole : ∀ cursor, m.cursor = some cursor →
    (∀ leg ∈ route.legs, Covers rules route cursor leg.index) →
      found = (fresh.locate rules route p).1

inductive Move (α : Type) where
  | locate (p : Point α)
  | reset
  | reseed (leg : Nat)

def move (rules : Config.Matching α) (route : Route α) (m : Matcher) : Move α → Matcher
  | .locate p => (m.locate rules route p).2
  | .reset => fresh
  | .reseed leg => ⟨some leg⟩

/-- A matcher after some moves. -/
def after (rules : Config.Matching α) (route : Route α) (m : Matcher) (moves : List (Move α)) :
    Matcher :=
  moves.foldl (move rules route) m

end Matcher

namespace Route

/-- The match on the leg with a number, read from the tables of the route. -/
def matchAt? (route : Route α) (p : Point α) (i : Nat) : Option (Match α) := do
  let start ← route.points[i]?
  let finish ← route.points[i + 1]?
  let along ← route.distances[i]?
  let length ← route.lengths[i]?
  let q := project p start finish
  some ⟨i, q.distance, q.foot, along + q.fraction * length⟩

/-- The best match on the legs from one number up to another, of which there may be none. -/
def scan? (route : Route α) (p : Point α) (start stop : Nat) : Option (Option (Match α)) :=
  ((List.range' start (stop - start)).mapM (route.matchAt? p)).map
    (Scalar.firstBy? fun m n => m.distance < n.distance)

/-- What a matcher finds by the numbers of legs. There is no answer if a table lacks an entry that
is asked for. -/
def lookUp? (rules : Config.Matching α) (route : Route α) (p : Point α) (m : Matcher) :
    Option (Match α × Matcher) := do
  let count := route.lengths.length
  let near ← match m.cursor with
    | none => some none
    | some cursor =>
      let cursor := min cursor (count - 1)
      route.scan? p (cursor - rules.lookBehind) (min (cursor + rules.lookAhead + 1) count)
  let found ← match near.filter fun m => m.distance ≤ rules.fullScanDistance with
    | some found => some found
    | none => do
      match ← route.scan? p 0 count with
      | some found => some found
      | none => route.matchAt? p 0
  some (found, ⟨some found.leg⟩)

end Route

variable {rules : Config.Matching α} {route : Route α} {p : Point α}

theorem Route.mem_offsets {leg : Leg α} (hleg : leg ∈ route.legs) :
    (leg.locate p).distance ∈ route.offsets p :=
  List.mem_map_of_mem hleg

namespace Matcher

omit [Scalar α] [Geodesy α] in
theorem mem_window (h : route.IsNumbered) {cursor : Nat} {leg : Leg α} (hleg : leg ∈ route.legs) :
    leg ∈ window rules route cursor ↔ Covers rules route cursor leg.index := by
  obtain ⟨i, hi⟩ := List.mem_iff_getElem?.1 hleg
  rw [h i leg hi, window, List.mem_iff_getElem?]
  simp only [List.getElem?_drop, List.getElem?_take]
  unfold Covers
  constructor
  · rintro ⟨j, hj⟩
    split_ifs at hj with hlt
    have hsame := h _ _ hj
    rw [h i leg hi] at hsame
    omega
  · rintro ⟨hbehind, hahead⟩
    refine ⟨i - (min cursor route.rest.length - rules.lookBehind), ?_⟩
    have hback : min cursor route.rest.length - rules.lookBehind
        + (i - (min cursor route.rest.length - rules.lookBehind)) = i := by omega
    rw [hback, if_pos (by omega)]
    exact hi

omit [Scalar α] [Geodesy α] in
theorem window_sublist (rules : Config.Matching α) (route : Route α) (cursor : Nat) :
    (window rules route cursor).Sublist route.legs :=
  (List.drop_sublist _ _).trans (List.take_sublist _ _)

omit [Scalar α] [Geodesy α] in
theorem window_of_covers (h : route.IsNumbered) {cursor : Nat}
    (hall : ∀ leg ∈ route.legs, Covers rules route cursor leg.index) :
    window rules route cursor = route.legs := by
  have hcovers : ∀ i < route.legs.length, Covers rules route cursor i := by
    intro i hi
    rw [← h i _ (List.getElem?_eq_getElem hi)]
    exact hall _ (List.getElem_mem hi)
  have hlength : route.legs.length = route.rest.length + 1 := rfl
  have hfirst := hcovers 0 (by omega)
  have hlast := hcovers route.rest.length (by omega)
  unfold Covers at hfirst hlast
  have hstart : min cursor route.rest.length - rules.lookBehind = 0 := by omega
  unfold window
  dsimp only
  rw [hstart, List.drop_zero, List.take_of_length_le (by omega)]

/-- What is found is the best match around the cursor, where that is near enough, and else the best
match of all. -/
theorem locate_cases (m : Matcher) (rules : Config.Matching α) (route : Route α) (p : Point α) :
    (∃ cursor, m.cursor = some cursor
        ∧ Match.best? p (window rules route cursor) = some (m.locate rules route p).1
        ∧ (m.locate rules route p).1.distance ≤ rules.fullScanDistance)
      ∨ (∀ cursor found, m.cursor = some cursor →
          Match.best? p (window rules route cursor) = some found →
            ¬ found.distance ≤ rules.fullScanDistance)
        ∧ Match.best? p route.legs = some (m.locate rules route p).1 := by
  unfold locate
  dsimp only
  rcases hnear : m.nearby? rules route p with _ | found
  · refine .inr ⟨fun cursor found hcursor hfound hle => ?_, rfl⟩
    simp [nearby?, hcursor, hfound, hle] at hnear
  · simp only [nearby?, Option.bind_eq_bind, Option.bind_eq_some_iff] at hnear
    obtain ⟨cursor, hcursor, found', hfound, hif⟩ := hnear
    split_ifs at hif with hle
    obtain rfl := Option.some.inj hif
    exact .inl ⟨cursor, hcursor, hfound, hle⟩

section Ordered

variable (hnumbered : route.IsNumbered) (hordered : Scalar.IsOrdered {d | d ∈ route.offsets p})

include hnumbered hordered

theorem isFirst_best? {legs : List (Leg α)} (hlegs : legs.Sublist route.legs) {m : Match α}
    (hm : Match.best? p legs = some m) :
    Scalar.IsFirst (fun m n : Match α => m.distance < n.distance) (·.leg)
      (legs.map (·.locate p)) m := by
  refine (Scalar.firstBy?_eq_some_iff ?_ (hordered.ranks fun n hn => ?_)).1 hm
  · exact (hnumbered.pairwise_locate p).sublist (hlegs.map _)
  · obtain ⟨leg, hleg, rfl⟩ := List.mem_map.1 hn
    exact Route.mem_offsets (hlegs.subset hleg)

/-- The best match on some legs is on one of them, and no other of them has a nearer one. -/
theorem least_best? {legs : List (Leg α)} (hlegs : legs.Sublist route.legs) {m : Match α}
    (hm : Match.best? p legs = some m) :
    (∃ leg, route.legs[m.leg]? = some leg ∧ m = leg.locate p)
      ∧ ∀ leg ∈ legs, m.distance ≤ (leg.locate p).distance := by
  obtain ⟨hmem, hleast, -⟩ := isFirst_best? hnumbered hordered hlegs hm
  obtain ⟨here, hhere, rfl⟩ := List.mem_map.1 hmem
  refine ⟨⟨here, ?_, rfl⟩, fun leg hleg => ?_⟩
  · obtain ⟨i, hi⟩ := List.mem_iff_getElem?.1 (hlegs.subset hhere)
    rwa [← hnumbered i here hi] at hi
  · exact hordered.le_of_not_lt (Route.mem_offsets (hlegs.subset hhere))
      (Route.mem_offsets (hlegs.subset hleg)) (hleast _ (List.mem_map_of_mem hleg))

theorem isNearest_of_best? {m : Match α} (hm : Match.best? p route.legs = some m) :
    route.IsNearest p m := by
  obtain ⟨hlocated, hleast⟩ := least_best? hnumbered hordered (List.Sublist.refl _) hm
  have hfirst := (isFirst_best? hnumbered hordered (List.Sublist.refl _) hm).first
  exact ⟨hlocated, hleast, fun leg hleg => hfirst _ (List.mem_map_of_mem hleg)⟩

theorem finds_locate (m : Matcher) : m.Finds rules route p (m.locate rules route p).1 := by
  have hfresh : Match.best? p route.legs = some (fresh.locate rules route p).1 := rfl
  rcases m.locate_cases rules route p with ⟨cursor, hcursor, hbest, hnear⟩ | ⟨hnone, hbest⟩
  · have hsame : ∀ c, m.cursor = some c → c = cursor := by simp [hcursor]
    obtain ⟨hlocated, hleast⟩ :=
      least_best? hnumbered hordered (window_sublist rules route cursor) hbest
    refine ⟨hlocated, fun c hc leg hleg hcovers => ?_, fun hfar => ?_, fun _ => hnear,
      fun c hc hcovers => ?_⟩
    · rw [hsame c hc] at hcovers
      exact hleast leg ((mem_window hnumbered hleg).2 hcovers)
    · rcases hfar with hfar | hfar
      · simp [hcursor] at hfar
      · exact absurd hnear hfar
    · rw [hsame c hc] at hcovers
      rw [window_of_covers hnumbered hcovers, hfresh] at hbest
      exact (Option.some.inj hbest).symm
  · have hnearest := isNearest_of_best? hnumbered hordered hbest
    refine ⟨hnearest.located, fun _ _ leg hleg _ => hnearest.least leg hleg, fun _ => hnearest,
      fun hsome => ?_, fun _ _ _ => Option.some.inj (hbest.symm.trans hfresh)⟩
    obtain ⟨d, hd, hle⟩ := hsome
    obtain ⟨leg, hleg, rfl⟩ := List.mem_map.1 hd
    obtain ⟨here, hhere, hfound⟩ := hnearest.located
    have hmem : (m.locate rules route p).1.distance ∈ route.offsets p := by
      rw [hfound]
      exact Route.mem_offsets (List.mem_of_getElem? hhere)
    exact hordered.trans _ hmem _ hd _ (hnearest.least leg hleg) hle

end Ordered

end Matcher

namespace Route

variable (hlaid : route.IsLaid) (hjoined : route.IsJoined)

include hlaid hjoined

theorem matchAt?_eq {i : Nat} {leg : Leg α} (hleg : route.legs[i]? = some leg) :
    route.matchAt? p i = some (leg.locate p) := by
  rw [matchAt?, hjoined.points_getElem? hleg, points_succ hleg, IsLaid.distances_getElem? hleg,
    lengths_getElem? hleg]
  obtain rfl := hlaid.numbered i leg hleg
  rfl

theorem scan?_eq {start stop : Nat} (hstop : stop ≤ route.legs.length) :
    route.scan? p start stop = some (Match.best? p ((route.legs.take stop).drop start)) := by
  have hread : ∀ n start, start + n ≤ route.legs.length →
      (List.range' start n).mapM (route.matchAt? p)
        = some (((route.legs.drop start).take n).map (·.locate p)) := by
    intro n
    induction n with
    | zero => intro start _; simp
    | succ n ih =>
      intro start hn
      have hlt : start < route.legs.length := by omega
      have hhead := matchAt?_eq (p := p) hlaid hjoined (List.getElem?_eq_getElem hlt)
      rw [List.range'_succ, List.mapM_cons, hhead, ih (start + 1) (by omega),
        List.drop_eq_getElem_cons hlt, List.take_succ_cons, List.map_cons]
      rfl
  by_cases hle : start ≤ stop
  · rw [scan?, hread (stop - start) start (by omega), List.drop_take]
    rfl
  · have hnone : stop - start = 0 := by omega
    rw [scan?, List.drop_take, hnone]
    rfl

theorem lookUp?_eq (m : Matcher) : route.lookUp? rules p m = some (m.locate rules route p) := by
  have hcount : route.lengths.length = route.rest.length + 1 := by simp [lengths, legs]
  have hlegs : route.legs.length = route.rest.length + 1 := rfl
  have hfull : route.scan? p 0 (route.rest.length + 1) = some (Match.best? p route.legs) := by
    rw [scan?_eq hlaid hjoined hlegs.ge, ← hlegs, List.take_length]
    rfl
  have hwindow : ∀ cursor, route.scan? p (min cursor route.rest.length - rules.lookBehind)
        (min (min cursor route.rest.length + rules.lookAhead + 1) (route.rest.length + 1))
      = some (Match.best? p (Matcher.window rules route cursor)) := by
    intro cursor
    rw [scan?_eq hlaid hjoined (by omega), ← hlegs, ← List.take_take, List.take_length]
    rfl
  have hpair : m.locate rules route p
      = ((m.locate rules route p).1, ⟨some (m.locate rules route p).1.leg⟩) := rfl
  rw [lookUp?, hcount, Nat.add_sub_cancel, hpair]
  rcases m.locate_cases rules route p with ⟨cursor, hcursor, hbest, hnear⟩ | ⟨hnone, hbest⟩
  · simp only [hcursor, hwindow cursor, hbest]
    simp [hnear, Option.filter]
  · rcases hcursor : m.cursor with _ | cursor
    · simp [hfull, hbest]
    · simp only [hwindow cursor]
      rcases hfound : Match.best? p (Matcher.window rules route cursor) with _ | found
      · simp [hfull, hbest]
      · have hfar := hnone cursor found hcursor hfound
        simp [hfar, hfull, hbest, Option.filter]

end Route

/-- After any moves a position that lies at distances in order of size from the legs is found on a
leg of the route, without asking its tables for an entry that they lack, and the leg is where to
look next. No leg around the last one found is nearer; far off, or with no leg found before, no leg
at all is, and the first of the nearest is taken. -/
theorem Matcher.finds_nearest {turns : Config.Turns α} {points : List (Point α)}
    (h : Route.ofPoints turns points = .ok route) (rules : Config.Matching α)
    (moves : List (Move α)) (hordered : Scalar.IsOrdered {d | d ∈ route.offsets p}) :
    ∃ found, (fresh.after rules route moves).locate rules route p = (found, ⟨some found.leg⟩)
      ∧ route.lookUp? rules p (fresh.after rules route moves) = some (found, ⟨some found.leg⟩)
      ∧ fresh.after rules route (moves ++ [.locate p]) = ⟨some found.leg⟩
      ∧ found.leg < route.legs.length
      ∧ (fresh.after rules route moves).Finds rules route p found := by
  have hlaid := Route.isLaid_ofPoints h
  have hjoined := Route.isJoined_ofPoints h
  have hfinds : (fresh.after rules route moves).Finds rules route p
      ((fresh.after rules route moves).locate rules route p).1 :=
    finds_locate hlaid.numbered hordered _
  obtain ⟨leg, hleg, -⟩ := hfinds.located
  refine ⟨_, rfl, Route.lookUp?_eq hlaid hjoined _, ?_, (List.getElem?_eq_some_iff.1 hleg).1,
    hfinds⟩
  rw [after, List.foldl_append]
  rfl

namespace Trial

/-- Nothing but the last leg found is searched at first, and not further than 50 meters away. -/
def narrow : Config.Matching ℚ := ⟨0, 0, 50⟩

/-- Eleven meters off the last leg of the road with bends. -/
def beside : Point ℚ := ⟨11 / 10000, 1 / 2000⟩

end Trial

/-- Looked for on the first leg of the road alone, the position is found on the last one. -/
theorem Matcher.finds_nearest_beside : ∃ found,
    (fresh.after Trial.narrow Trial.bent [.reseed 0]).locate Trial.narrow Trial.bent Trial.beside
        = (found, ⟨some 3⟩)
      ∧ Trial.bent.lookUp? Trial.narrow Trial.beside
          (fresh.after Trial.narrow Trial.bent [.reseed 0]) = some (found, ⟨some 3⟩)
      ∧ (fresh.after Trial.narrow Trial.bent [.reseed 0]).Finds Trial.narrow Trial.bent
          Trial.beside found
      ∧ found.distance ≤ Trial.narrow.fullScanDistance := by
  obtain ⟨found, hlocate, hread, -, -, hfinds⟩ := finds_nearest Trial.ofPoints_bends Trial.narrow
    [.reseed 0] (Scalar.isOrdered_exact {d | d ∈ Trial.bent.offsets Trial.beside})
  have hleg : ((fresh.after Trial.narrow Trial.bent [.reseed 0]).locate Trial.narrow Trial.bent
      Trial.beside).1.leg = 3 := by decide +kernel
  have hthree : found.leg = 3 := by rwa [hlocate] at hleg
  rw [hthree] at hlocate hread
  have hnear : ∃ d ∈ Trial.bent.offsets Trial.beside, d ≤ Trial.narrow.fullScanDistance := by
    decide +kernel
  exact ⟨found, hlocate, hread, hfinds, hfinds.near hnear⟩

end Roadbook

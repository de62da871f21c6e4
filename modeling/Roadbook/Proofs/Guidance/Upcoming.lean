import Roadbook.Proofs.Route.Turns
import Roadbook.Guidance.Announcement

/-!
# The maneuver ahead

The maneuvers of a route come in the order of their places and the last of them is its end, so the
first one found beyond the dead band is the nearest (`Route.IsNext`), and there is one as long as
the end is beyond it. As progress goes on the maneuver ahead stays the same or is a later one
(`Route.announces_nearest`).
-/

namespace Roadbook

variable {K : Type} [Field K] [LinearOrder K] [FloorRing K]

attribute [local instance] Scalar.exact instOfNatAtLeastTwo

/-- Where things are in ascending order, the first one beyond a length is the nearest one. -/
theorem find?_beyond_iff {β : Type} {key : β → K} {d : K} {b : β} : ∀ {bs : List β},
    bs.Pairwise (key · < key ·) → (bs.find? (fun c => decide (d < key c)) = some b
      ↔ b ∈ bs ∧ d < key b ∧ ∀ c ∈ bs, d < key c → key b ≤ key c)
  | [], _ => by simp
  | c :: bs, h => by
    obtain ⟨hfirst, hbs⟩ := List.pairwise_cons.1 h
    by_cases hc : d < key c
    · rw [List.find?_cons_of_pos (by simpa using hc), Option.some.injEq]
      constructor
      · rintro rfl
        refine ⟨List.mem_cons_self, hc, fun a ha _ => ?_⟩
        rcases List.mem_cons.1 ha with rfl | ha
        · exact le_rfl
        · exact (hfirst a ha).le
      · rintro ⟨hb, -, hleast⟩
        rcases List.mem_cons.1 hb with rfl | hb
        · rfl
        · exact absurd (hleast c List.mem_cons_self hc) (hfirst b hb).not_ge
    · rw [List.find?_cons_of_neg (by simpa using hc), find?_beyond_iff hbs]
      constructor
      · rintro ⟨hb, hbeyond, hleast⟩
        exact ⟨List.mem_cons_of_mem c hb, hbeyond, by simpa [hc] using hleast⟩
      · rintro ⟨hb, hbeyond, hleast⟩
        have hne : b ≠ c := fun heq => hc (heq ▸ hbeyond)
        exact ⟨(List.mem_cons.1 hb).resolve_left hne, hbeyond,
          fun a ha => hleast a (List.mem_cons_of_mem c ha)⟩

namespace Route

/-- The nearest of the maneuvers beyond a distance along the route. -/
structure IsNext (route : Route K) (d : K) (m : Maneuver K) : Prop where
  mem : m ∈ route.maneuvers
  beyond : d < m.along
  nearest : ∀ n ∈ route.maneuvers, d < n.along → m.along ≤ n.along

variable [Geodesy K] {rules : Config.Turns K} {points : List (Point K)} {route : Route K}

namespace IsGuide

variable {ms : List (Maneuver K)} (h : route.IsGuide rules ms) {m n : Maneuver K}

include h

theorem arrival_mem : route.arrival ∈ ms := List.mem_of_getLast? h.arrives

theorem along_le (hm : m ∈ ms) : m.along ≤ route.total := by
  obtain ⟨before, hms⟩ := List.getLast?_eq_some_iff.1 h.arrives
  have hasc := h.ascending
  rw [hms] at hm hasc
  rcases List.mem_append.1 hm with hm | hm
  · exact ((List.pairwise_append.1 hasc).2.2 m hm _ (List.mem_singleton_self _)).2.le
  · rw [List.mem_singleton.1 hm]

theorem index_le (hm : m ∈ ms) (hn : n ∈ ms) (hle : m.along ≤ n.along) : m.index ≤ n.index := by
  obtain ⟨i, hi, rfl⟩ := List.mem_iff_getElem.1 hm
  obtain ⟨j, hj, rfl⟩ := List.mem_iff_getElem.1 hn
  have hpairs := List.pairwise_iff_getElem.1 h.ascending
  rcases lt_trichotomy i j with hij | rfl | hij
  · exact (hpairs i j hi hj hij).1.le
  · exact le_rfl
  · exact absurd hle (hpairs j i hj hi hij).2.not_ge

end IsGuide

variable (h : route.IsGuide rules route.maneuvers) {progress deadBand : K}

include h

theorem isSome_nextManeuver? :
    (route.nextManeuver? progress deadBand).isSome ↔ progress + deadBand < route.total := by
  simp only [nextManeuver?, List.find?_isSome, decide_eq_true_eq]
  constructor
  · rintro ⟨m, hm, hbeyond⟩
    exact hbeyond.trans_le (h.along_le hm)
  · intro hbeyond
    exact ⟨_, h.arrival_mem, hbeyond⟩

theorem nextManeuver?_eq_some_iff {m : Maneuver K} :
    route.nextManeuver? progress deadBand = some m ↔ route.IsNext (progress + deadBand) m := by
  have hasc := h.ascending.imp And.right
  rw [nextManeuver?, find?_beyond_iff hasc]
  exact ⟨fun ⟨hm, hbeyond, hnearest⟩ => ⟨hm, hbeyond, hnearest⟩,
    fun ⟨hm, hbeyond, hnearest⟩ => ⟨hm, hbeyond, hnearest⟩⟩

variable [IsStrictOrderedRing K]

theorem exists_nextManeuver?_le {p q : K} {n : Maneuver K} (hpq : p ≤ q)
    (hn : route.nextManeuver? q deadBand = some n) :
    ∃ m, route.nextManeuver? p deadBand = some m ∧ m.index ≤ n.index := by
  have hnext := (nextManeuver?_eq_some_iff h).1 hn
  have hbeyond : p + deadBand < n.along := (add_le_add_left hpq deadBand).trans_lt hnext.beyond
  have hsome := (isSome_nextManeuver? h).2 (hbeyond.trans_le (h.along_le hnext.mem))
  obtain ⟨m, hm⟩ := Option.isSome_iff_exists.1 hsome
  have hfirst := (nextManeuver?_eq_some_iff h).1 hm
  exact ⟨m, hm, h.index_le hfirst.mem hnext.mem (hfirst.nearest n hnext.mem hbeyond)⟩

end Route

namespace Route

variable [IsStrictOrderedRing K] [Geodesy K] {rules : Config.Turns K} {points : List (Point K)}
  {route : Route K}

/-- On a ground without negative distances, and with a spacing and a least length of the legs at a
turn, there is a maneuver ahead as long as the end of the route is beyond the dead band. It is the
nearest of those beyond the dead band, and further progress leads to no earlier one. A driver who
waits for the signal is told of nothing else, and while guidance runs along the route any other one
is told of this maneuver. -/
theorem announces_nearest (h : ofPoints rules points = .ok route)
    (hground : ∀ a b : Point K, 0 ≤ Geodesy.distance a b) (hspacing : 0 < rules.minSpacing)
    (hstretch : 0 < rules.minStretch) {deadBand : K} (hband : 0 ≤ deadBand) :
    (∀ progress, (route.nextManeuver? progress deadBand).isSome
        ↔ progress + deadBand < route.total)
      ∧ (∀ progress m, route.nextManeuver? progress deadBand = some m
        ↔ route.IsNext (progress + deadBand) m)
      ∧ (∀ p q n, p ≤ q → route.nextManeuver? q deadBand = some n →
        ∃ m, route.nextManeuver? p deadBand = some m ∧ m.index ≤ n.index)
      ∧ (∀ s : Situation K, s.waiting = true →
        Announcement.make route s = .plain "Waiting for GPS signal" "")
      ∧ ∀ s : Situation K, s.phase = .active → s.deadBand = deadBand →
        ∀ m, route.nextManeuver? s.progress deadBand = some m →
          (s.waiting = false → Announcement.make route s
              = ⟨m.turn.instruction, distanceLabel (m.along - s.progress), m.turn.icon⟩)
            ∧ 0 < m.along - s.progress ∧ deadBand < m.along - s.progress := by
  have hlaid := isLaid_ofPoints h
  have hlong : 0 < route.total := by
    have hpositive := (ofPoints_eq_ok_iff.1 h).2.2.2
    rwa [Scalar.exact_zero, not_le] at hpositive
  have hguide : route.IsGuide rules route.maneuvers := by
    rw [maneuvers_eq h]
    exact hlaid.isGuide_turns hground hstretch hlong hspacing
  refine ⟨fun _ => isSome_nextManeuver? hguide, fun _ _ => nextManeuver?_eq_some_iff hguide,
    fun _ _ _ => exists_nextManeuver?_le hguide, fun s hwaiting => if_pos hwaiting, ?_⟩
  rintro s hphase rfl m hm
  have hbeyond := ((nextManeuver?_eq_some_iff hguide).1 hm).beyond
  have hahead : s.deadBand < m.along - s.progress := by linarith
  refine ⟨fun hwaiting => ?_, hband.trans_lt hahead, hahead⟩
  unfold Announcement.make
  rw [hphase, if_neg (by simp [hwaiting])]
  simp only [hm]
  rfl

/-- Short of the second bend the driver is told of it, and within the dead band before it of the end
of the road. -/
theorem announces_nearest_bends :
    Announcement.make Trial.bent ⟨.active, 200, none, false, 5⟩ = ⟨"Turn right", "20 m", 90⟩
      ∧ Trial.bent.IsNext (220 + 5) ⟨4, 66717 / 200, .arrive, 0⟩
      ∧ ¬ (Trial.bent.nextManeuver? 329 5).isSome := by
  have hspacing : (0 : ℚ) < Config.Turns.standard.minSpacing := by decide +kernel
  have hstretch : (0 : ℚ) < Config.Turns.standard.minStretch := by decide +kernel
  obtain ⟨hsome, hnext, -, -, htold⟩ := announces_nearest Trial.ofPoints_bends distance_rat_nonneg
    hspacing hstretch (show (0 : ℚ) ≤ 5 by norm_num)
  have hbend : Trial.bent.nextManeuver? 200 5 = some ⟨3, 22239 / 100, .right, 90⟩ := by
    decide +kernel
  have hend : Trial.bent.nextManeuver? 220 5 = some ⟨4, 66717 / 200, .arrive, 0⟩ := by
    decide +kernel
  refine ⟨?_, (hnext 220 _).1 hend, mt (hsome 329).1 (by decide +kernel)⟩
  rw [(htold ⟨.active, 200, none, false, 5⟩ rfl rfl _ hbend).1 rfl]
  decide +kernel

/-- Short of the second bend again, but with the signal lost, nothing is said of it. -/
theorem bend_untold : ¬ ∀ (points : List (Point ℚ)) (route : Route ℚ) (s : Situation ℚ)
    (m : Maneuver ℚ), ofPoints .standard points = .ok route → 0 ≤ s.deadBand →
      s.phase = .active → route.nextManeuver? s.progress s.deadBand = some m →
        Announcement.make route s
          = ⟨m.turn.instruction, distanceLabel (m.along - s.progress), m.turn.icon⟩ := by
  intro htold
  have hbend : Trial.bent.nextManeuver? 200 5 = some ⟨3, 22239 / 100, .right, 90⟩ := by
    decide +kernel
  have hsaid := htold Trial.bends Trial.bent ⟨.active, 200, none, true, 5⟩ _ Trial.ofPoints_bends
    (by decide +kernel) rfl hbend
  revert hsaid
  decide +kernel

end Route

end Roadbook

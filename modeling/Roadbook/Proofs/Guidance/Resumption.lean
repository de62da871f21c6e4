import Roadbook.Proofs.Guidance.Progress
import Roadbook.Proofs.Route.Interpolation

/-!
# Resuming

What is on offer is found on a leg of the route (`Session.OffersPlace`), so the point at its
distance is its foot. An offer that is accepted is shown as the place of the driver, with the part
of the route up to there (`Dispatch.accept_effects`), which therefore ends at the point that was on
offer (`Route.leads_back`).
-/

namespace Roadbook

variable {α : Type} [Scalar α] [Geodesy α] {config : Config α} {now : Int}

/-- What is on offer is where a position was found on a leg of the route. -/
structure Session.OffersPlace (s : Session α) : Prop where
  laid : s.route.IsLaid
  joined : s.route.IsJoined
  offered : ∀ m, s.offer = some m → ∃ leg ∈ s.route.legs, ∃ p, m = leg.locate p

theorem Session.OffersPlace.congr {s t : Session α} (h : t.OffersPlace) (hs : s.SameCourse t) :
    s.OffersPlace := by
  obtain ⟨hlaid, hjoined, hoffered⟩ := h
  rw [← hs.route] at hlaid hjoined hoffered
  exact ⟨hlaid, hjoined, fun m hm => hoffered m (hs.offer.symm.trans hm)⟩

namespace Dispatch

variable {d : Dispatch α}

theorem offersPlace_transition (h : d.session.OffersPlace) (phase : Phase) :
    (d.transition config now phase).session.OffersPlace := by
  obtain ⟨hlaid, hjoined, hoffered⟩ := h
  have hroute : (d.transition config now phase).session.route = d.session.route :=
    d.transition_route phase
  rw [← hroute] at hlaid hjoined hoffered
  exact ⟨hlaid, hjoined, fun m hm => hoffered m (offer_of_transition hm)⟩

theorem offersPlace_moveOn (h : d.session.OffersPlace) (phase : Phase) :
    (d.moveOn config now phase).session.OffersPlace := by
  have hmoved : (d.transition config now phase).session.OffersPlace :=
    offersPlace_transition h phase
  unfold moveOn
  dsimp only
  split_ifs
  · exact offersPlace_transition hmoved .offRoute
  · exact hmoved

/-- An offer that is accepted is shown as the place of the driver, and nothing else is but what is
announced. -/
theorem accept_effects (config : Config α) (now : Int) {m : Match α} {p : Point α}
    (hm : d.session.offer = some m) (hphase : d.session.phase = .resume)
    (hp : d.session.position = some p) :
    ∃ told, (∀ e ∈ told, ∃ a, e = .instruction a)
      ∧ (d.accept config now).effects = d.effects ++ .phaseChanged .resume .active ::
          .position p d.session.heading m.along (d.session.route.between 0 m.along) :: told := by
  unfold accept
  rw [hm]
  dsimp -zeta only
  rw [if_pos hphase, transition_resumeAt config now m hphase]
  extract_lets resumed shown
  have hshown : shown.effects = d.effects ++ [.phaseChanged .resume .active,
      .position p d.session.heading m.along (d.session.route.between 0 m.along)] := by
    have hposition : resumed.session.position = some p := hp
    unfold shown
    rw [hposition]
    exact List.append_assoc _ _ _
  rcases announce_cases config shown with heq | ⟨a, heq⟩ <;> rw [heq]
  · exact ⟨[], by simp, hshown⟩
  · refine ⟨[.instruction a], by simp, ?_⟩
    show shown.effects ++ [.instruction a] = _
    rw [hshown, List.append_assoc]
    rfl

/-- With nothing shown before, the place on offer is shown, and no other. -/
theorem accept_position (config : Config α) (now : Int) {m : Match α} {p : Point α}
    (hm : d.session.offer = some m) (hphase : d.session.phase = .resume)
    (hp : d.session.position = some p) (hbeside : ∀ e ∈ d.effects, e.IsBeside) :
    .position p d.session.heading m.along (d.session.route.between 0 m.along)
        ∈ (d.accept config now).effects
      ∧ ∀ q heading progress travelled,
        .position q heading progress travelled ∈ (d.accept config now).effects →
          travelled = d.session.route.between 0 m.along := by
  obtain ⟨told, htold, heffects⟩ := accept_effects config now hm hphase hp
  rw [heffects]
  refine ⟨by simp, fun q heading progress travelled hshown => ?_⟩
  rcases List.mem_append.1 hshown with hbefore | hshown
  · exact (hbeside _ hbefore).elim
  rcases List.mem_cons.1 hshown with hchanged | hshown
  · cases hchanged
  rcases List.mem_cons.1 hshown with hplace | hannounced
  · cases hplace
    rfl
  · obtain ⟨a, ha⟩ := htold _ hannounced
    cases ha

end Dispatch

theorem Session.isGuided_offersPlace (config : Config α) :
    IsGuided config (OffersPlace (α := α)) where
  congr hs h := h.congr hs
  start area hroute := ⟨Route.isLaid_ofPoints hroute, Route.isJoined_ofPoints hroute, nofun⟩
  begin phase _ h := Dispatch.offersPlace_transition h phase
  resume {_ d m} _ h := by
    have hresumed : (d.session.resumeAt m).OffersPlace := ⟨h.laid, h.joined, nofun⟩
    exact Dispatch.offersPlace_transition hresumed .active
  decline {_ d} h := by
    have hdeclined : { d.session with dismissed := true, offer := none }.OffersPlace :=
      ⟨h.laid, h.joined, nofun⟩
    exact Dispatch.offersPlace_transition hdeclined .offRoute
  advance {_ d} p time h := by
    refine Dispatch.offersPlace_moveOn ?_ _
    by_cases hguiding : d.session.phase.IsGuiding
    · rw [Dispatch.advance_of_guiding hguiding]
      refine ⟨h.laid, h.joined, fun m hm => ?_⟩
      simp only [Dispatch.withSession, track, seekOffer] at hm
      split_ifs at hm
      obtain ⟨leg, hleg, rfl, -⟩ := Route.resume?_eq_some hm
      exact ⟨leg, hleg, p, rfl⟩
    · rw [Dispatch.advance_of_not_guiding hguiding]
      exact h.congr (d.sameCourse_askForStart p)

/-- When an offer is accepted, one place of the driver is shown: that on offer. -/
theorem Navigator.Reachable.accepted {n : Navigator α} (h : Reachable config n) {s : Session α}
    (hs : n.session = some s) (hphase : s.phase = .resume) (now : Int) :
    ∃ m p, s.offer = some m
      ∧ .position p s.heading m.along (s.route.between 0 m.along)
        ∈ (n.answer config now .acceptOffer).effects
      ∧ ∀ q heading progress travelled,
        .position q heading progress travelled ∈ (n.answer config now .acceptOffer).effects →
          travelled = s.route.between 0 m.along := by
  have hwell := h.offersWell hs
  obtain ⟨m, hm⟩ := Option.isSome_iff_exists.1 (hwell.offered.2 hphase)
  obtain ⟨p, hp, -⟩ := (hwell.sound m hm).distance
  have hdue : (⟨n, []⟩ : Outcome α).LeavesSession (n.due config now) :=
    leavesSession_due hs (by simp [hphase])
  have hanswer : (n.answer config now .acceptOffer).effects
      = (((n.due config now).dispatch s).accept config now).effects := by
    show ((n.due config now).inSession (·.accept config now)).effects = _
    rw [Outcome.inSession_some (hdue.session.trans hs)]
    rfl
  have hbeside : ∀ e ∈ (n.due config now).effects, e.IsBeside := by
    obtain ⟨new, hnew, hbeside⟩ := hdue.effects
    rw [hnew]
    exact hbeside
  rw [hanswer]
  exact ⟨m, p, hm,
    Dispatch.accept_position config now (d := (n.due config now).dispatch s) hm hphase hp hbeside⟩

section Exact

variable {K : Type} [Field K] [LinearOrder K] [FloorRing K] [IsStrictOrderedRing K] [Geodesy K]

attribute [local instance] Scalar.exact

/-- On a ground without negative distances, and on a route whose legs without length lead nowhere,
the point at a place found is its foot, and the point at the distance of a point of the route is
that point. So when an offer on the route is accepted, the part travelled that is shown ends at the
point that was on offer. -/
theorem Route.leads_back {turns : Config.Turns K} {points : List (Point K)} {route : Route K}
    (h : ofPoints turns points = .ok route)
    (hground : ∀ a b : Point K, 0 ≤ Geodesy.distance a b) (htaut : route.IsTaut) :
    (∀ leg ∈ route.legs, ∀ p, route.pointAt (leg.locate p).along = (leg.locate p).foot)
      ∧ (∀ (m : Matcher) (rules : Config.Matching K) (p : Point K),
          route.pointAt (m.locate rules route p).1.along = (m.locate rules route p).1.foot)
      ∧ (∀ (p : Point K) (progress radius : K) (m : Match K),
          route.resume? p progress radius = some m → route.pointAt m.along = m.foot)
      ∧ (∀ (i : Nat) (q : Point K), points[i]? = some q →
          ∃ d, route.distances[i]? = some d ∧ route.pointAt d = q)
      ∧ ∀ (config : Config K) (n : Navigator K), Navigator.Reachable config n →
          ∀ s, n.session = some s → s.route = route → s.phase = .resume → ∀ now,
          ∃ m p, s.offer = some m
            ∧ (∃ travelled, .position p s.heading m.along travelled
              ∈ (n.answer config now .acceptOffer).effects)
            ∧ ∀ q heading progress travelled,
              .position q heading progress travelled
                  ∈ (n.answer config now .acceptOffer).effects →
                travelled.getLast? = some m.foot := by
  have hlaid := isLaid_ofPoints h
  have hjoined := isJoined_ofPoints h
  have hfoot : ∀ leg ∈ route.legs, ∀ p, route.pointAt (leg.locate p).along = (leg.locate p).foot :=
    fun leg hleg => hlaid.pointAt_locate hjoined htaut hground hleg
  refine ⟨hfoot, fun m rules p => ?_, fun p progress radius m hm => ?_, fun i q hq => ?_,
    fun config n hn s hs hroute hphase now => ?_⟩
  · obtain ⟨leg, hleg, hfound⟩ := m.exists_locate rules route p
    rw [hfound]
    exact hfoot leg hleg p
  · obtain ⟨leg, hleg, rfl, -⟩ := resume?_eq_some hm
    exact hfoot leg hleg p
  · rw [← points_ofPoints h] at hq
    have hlength : route.points.length = route.distances.length := by simp [Route.points, distances]
    have hi : i < route.distances.length := hlength ▸ (List.getElem?_eq_some_iff.1 hq).1
    have hd := List.getElem?_eq_getElem hi
    exact ⟨_, hd, hlaid.pointAt_distances hjoined htaut hground hq hd⟩
  · obtain ⟨m, p, hm, hshown, honly⟩ := hn.accepted hs hphase now
    refine ⟨m, p, hm, ⟨_, hshown⟩, fun q heading progress travelled hmem => ?_⟩
    have hplace := (Session.isGuided_offersPlace config).isInvariant.reachable hn s hs
    obtain ⟨leg, hleg, p', rfl⟩ := hplace.offered m hm
    rw [hroute] at hleg
    have hwithin := hlaid.along_mem hground (hlaid.spans_locate hground hleg p')
    rw [honly q heading progress travelled hmem, hroute, Scalar.exact_zero,
      getLast?_between_zero hwithin, hfoot leg hleg p']

end Exact

namespace Trial

/-- Being 50 meters ahead of progress already counts as being far ahead. -/
def eager : Config ℚ :=
  { Config.standard with guidance := { Config.Guidance.standard with resumeAhead := 50 } }

/-- A driver at the start of the road with bends is next seen beside its last leg. -/
def cutting : Navigator ℚ :=
  Navigator.fresh.run eager
    [(0, .areaLoaded ⟨"bends", bends, [], 0⟩), (0, seen 0 0), (0, .begin), (1000, seen 0 1000),
      (2000, .fix (.ofPoint ⟨11 / 10000, 1 / 2000⟩ 2000))]

theorem reachable_cutting : Navigator.Reachable eager cutting := .run .fresh _

end Trial

/-- The part travelled then ends in the middle of the last leg. The point at the distance at which
the road bends first is the point that is given twice. -/
theorem Route.leads_back_cutting : Trial.bent.pointAt (22239 / 200) = ⟨0, 1 / 1000⟩
    ∧ Trial.bent.pointAt (Trial.bent.last.locate ⟨11 / 10000, 1 / 2000⟩).along
      = ⟨1 / 1000, 1 / 2000⟩
    ∧ ∃ s m p travelled, Trial.cutting.session = some s ∧ s.offer = some m
      ∧ .position p s.heading m.along travelled
        ∈ (Trial.cutting.answer Trial.eager 2500 .acceptOffer).effects
      ∧ travelled.getLast? = some ⟨1 / 1000, 1 / 2000⟩ := by
  have htaut : Trial.bent.IsTaut := by
    unfold IsTaut
    decide +kernel
  obtain ⟨hfoot, -, -, hpoints, haccepted⟩ :=
    leads_back Trial.ofPoints_bends distance_rat_nonneg htaut
  have hlast : Trial.bent.last ∈ Trial.bent.legs := by decide +kernel
  refine ⟨?_, ?_, ?_⟩
  · obtain ⟨d, hd, hbend⟩ := hpoints 2 ⟨0, 1 / 1000⟩ (by decide +kernel)
    have hd' : Trial.bent.distances[2]? = some (22239 / 200) := by decide +kernel
    rwa [Option.some.inj (hd.symm.trans hd')] at hbend
  · rw [hfoot _ hlast]
    decide +kernel
  · have hcut : Trial.cutting.session.map (fun s => (s.phase, s.route, s.offer.map (·.foot)))
        = some (.resume, Trial.bent, some ⟨1 / 1000, 1 / 2000⟩) := by decide +kernel
    obtain ⟨s, hs, heq⟩ := Option.map_eq_some_iff.1 hcut
    simp only [Prod.mk.injEq] at heq
    obtain ⟨hphase, hroute, hfound⟩ := heq
    obtain ⟨m, p, hm, ⟨travelled, hshown⟩, hends⟩ :=
      haccepted Trial.eager _ Trial.reachable_cutting s hs hroute hphase 2500
    have hend := hends _ _ _ _ hshown
    rw [hm, Option.map_some] at hfound
    exact ⟨s, m, p, travelled, hs, hm, hshown, hend.trans hfound⟩

end Roadbook

import Roadbook.Proofs.Guidance.Sessions
import Roadbook.Proofs.Route.Places

/-!
# Offers to resume

There is a point on offer just while the session is in the phase for it, and it lies on a leg of the
route, ahead of progress and near the driver (`Session.OffersWell`). So an offer that is there can
be accepted, which takes progress to the point on offer, and without one accepting and declining
come to nothing (`Navigator.Reachable.offers`).
-/

namespace Roadbook

variable {α : Type} [Scalar α] [Geodesy α] {config : Config α} {now : Int}

omit [Geodesy α] in
/-- While guiding, a fix with which something can be resumed at only when far off leaves the phase
as it is just if it can in the phase of an offer, and cannot in the others. -/
theorem Phase.canResume_iff_of_next {rules : Config.Guidance α} {reading : Reading α} {p : Phase}
    (hguiding : p.IsGuiding) (hnext : p.next rules reading = p)
    (hfar : reading.canResume = true → rules.IsFar reading.offset reading.rejoined) :
    reading.canResume = true ↔ p = .resume := by
  rcases hguiding with rfl | rfl | rfl <;> simp only [Phase.next] at hnext
  · split_ifs at hnext with harrived hresume
    simpa using fun hsome => hresume (hfar hsome)
  · split_ifs at hnext with harrived hback hresume
    simpa using fun hsome => hresume ⟨hfar hsome, hsome⟩
  · split_ifs at hnext with harrived hback hsome
    simpa using hsome

namespace Session

/-- A place on the route at which the driver may resume. -/
structure CanResumeAt (config : Config α) (s : Session α) (m : Match α) : Prop where
  leg : m.leg < s.route.legs.length
  ahead : s.progress < m.along
  near : m.distance ≤ config.guidance.resumeRadius
  distance : ∃ p, s.position = some p ∧ m.distance = Geodesy.distance p m.foot

/-- A place to resume at is on offer just in the phase for that. -/
structure OffersWell (config : Config α) (s : Session α) : Prop where
  numbered : s.route.IsNumbered
  offered : s.offer.isSome = true ↔ s.phase = .resume
  sound : ∀ m, s.offer = some m → s.CanResumeAt config m

/-- Alike in what an offer is about. -/
structure SameOffer (s t : Session α) : Prop where
  route : s.route = t.route
  phase : s.phase = t.phase
  offer : s.offer = t.offer
  position : s.position = t.position
  progress : s.progress = t.progress

/-- Ready to move to a phase, or to stay in it. -/
structure MayEnter (config : Config α) (s : Session α) (phase : Phase) : Prop where
  numbered : s.route.IsNumbered
  sound : ∀ m, s.offer = some m → s.CanResumeAt config m
  stays : s.phase = phase → (s.offer.isSome = true ↔ s.phase = .resume)

variable {s t : Session α}

theorem CanResumeAt.congr {m : Match α} (h : t.CanResumeAt config m) (hs : s.SameOffer t) :
    s.CanResumeAt config m := by
  obtain ⟨hleg, hahead, hnear, hdistance⟩ := h
  refine ⟨?_, ?_, hnear, ?_⟩
  · rwa [hs.route]
  · rwa [hs.progress]
  · rwa [hs.position]

theorem OffersWell.congr (h : t.OffersWell config) (hs : s.SameOffer t) : s.OffersWell config := by
  refine ⟨?_, ?_, fun m hm => ?_⟩
  · rw [hs.route]
    exact h.numbered
  · rw [hs.offer, hs.phase]
    exact h.offered
  · rw [hs.offer] at hm
    exact (h.sound m hm).congr hs

theorem OffersWell.of_none (hroute : s.route.IsNumbered) (hnone : s.offer = none)
    (hphase : s.phase ≠ .resume) : s.OffersWell config :=
  ⟨hroute, by simp [hnone, hphase], by simp [hnone]⟩

theorem OffersWell.offer_eq_none (h : s.OffersWell config) (hphase : s.phase ≠ .resume) :
    s.offer = none := by
  have hnone := h.offered.not.2 hphase
  simpa using hnone

/-- What is on offer after a search is a place to resume at. -/
theorem canResumeAt_seekOffer {p : Point α} {offset : α} {m : Match α} (h : s.route.IsNumbered)
    (hp : s.position = some p) (hm : (s.seekOffer config p offset).offer = some m) :
    (s.seekOffer config p offset).CanResumeAt config m := by
  simp only [seekOffer] at hm
  split_ifs at hm
  obtain ⟨leg, hleg, rfl, hahead, hnear⟩ := Route.resume?_eq_some hm
  obtain ⟨i, hi⟩ := List.mem_iff_getElem?.1 hleg
  refine ⟨?_, hahead, hnear, p, hp, project_distance p leg.start leg.finish⟩
  show leg.index < s.route.legs.length
  rw [h i leg hi]
  exact (List.getElem?_eq_some_iff.1 hi).1

theorem isFar_of_seekOffer {p : Point α} {offset : α}
    (h : (s.seekOffer config p offset).offer.isSome = true) :
    config.guidance.IsFar offset s.rejoined := by
  simp only [seekOffer] at h
  split_ifs at h with hfar
  · exact hfar.1
  · simp at h

/-- A search that leaves the driver in the same phase has found something just if that is the phase
of an offer. -/
theorem isSome_offer_track {p : Point α} {time : Int} (hguiding : s.phase.IsGuiding)
    (hphase : s.phase = (s.track config p time).1) :
    (s.track config p time).2.offer.isSome = true ↔ s.phase = .resume :=
  Phase.canResume_iff_of_next hguiding hphase.symm isFar_of_seekOffer

theorem mayEnter_track {p : Point α} (time : Int) (hroute : s.route.IsNumbered)
    (hp : s.position = some p) (hguiding : s.phase.IsGuiding) :
    (s.track config p time).2.MayEnter config (s.track config p time).1 := by
  have hfollowed : (s.follow config p time).2.route.IsNumbered := hroute
  refine ⟨hroute, fun m hm => ?_, fun hphase => isSome_offer_track hguiding hphase⟩
  exact canResumeAt_seekOffer hfollowed hp hm

end Session

namespace Dispatch

open Session

variable {d : Dispatch α}

omit [Geodesy α] in
theorem arrange_offer (config : Config α) (now : Int) (before : Phase) (d : Dispatch α) :
    (d.arrange config now before).session.offer = d.session.offer := by
  unfold arrange
  split
  · split <;> rfl
  · rfl
  · split_ifs <;> rfl
  · split <;> rfl
  · rfl

omit [Geodesy α] in
theorem transition_offer {phase : Phase} (hne : d.session.phase ≠ phase) :
    (d.transition config now phase).session.offer
      = if phase = .resume then d.session.offer else none := by
  rw [transition_of_ne hne, arrange_offer]
  rfl

omit [Geodesy α] in
/-- Nothing that an offer is about is changed on the way into its phase. -/
theorem sameOffer_transition_resume (config : Config α) (now : Int)
    (hne : d.session.phase ≠ .resume) :
    (d.transition config now .resume).session.SameOffer (d.session.enter .resume) := by
  rw [transition_of_ne hne]
  have hphase : (d.entering .resume).session.phase = .resume := rfl
  unfold arrange
  rw [hphase]
  dsimp only
  split <;> exact ⟨rfl, rfl, rfl, rfl, rfl⟩

theorem sameOffer_announce (config : Config α) (d : Dispatch α) :
    (d.announce config).session.SameOffer d.session := by
  rcases announce_cases config d with heq | ⟨a, heq⟩ <;> rw [heq] <;>
    exact ⟨rfl, rfl, rfl, rfl, rfl⟩

/-- In any phase but that of an offer there is none. -/
theorem offersWell_transition (hroute : d.session.route.IsNumbered) {phase : Phase}
    (hne : d.session.phase ≠ phase) (hphase : phase ≠ .resume) :
    (d.transition config now phase).session.OffersWell config := by
  refine .of_none ?_ ?_ ?_
  · rwa [transition_route]
  · rw [transition_offer hne, if_neg hphase]
  · rwa [transition_phase]

/-- With a position at hand, a fix has a session either stay in its phase, with a place to resume at
on offer just if that is the phase for it, or move on with what it has found. -/
theorem mayEnter_advance {p : Point α} (time : Int) (hroute : d.session.route.IsNumbered)
    (hp : d.session.position = some p)
    (hnone : ¬ d.session.phase.IsGuiding → d.session.offer = none) :
    (d.advance config p time).2.session.MayEnter config (d.advance config p time).1 := by
  unfold advance
  dsimp only
  split_ifs with hguiding
  · exact mayEnter_track time hroute hp hguiding
  · have hasked : (d.askForStart p).session.SameOffer d.session := by
      rcases askForStart_cases d p with heq | ⟨b, -, heq⟩ <;> rw [heq] <;>
        exact ⟨rfl, rfl, rfl, rfl, rfl⟩
    have hoffer : (d.askForStart p).session.offer = none := hasked.offer.trans (hnone hguiding)
    refine ⟨?_, by simp [hoffer], fun _ => ?_⟩
    · rwa [hasked.route]
    · rw [hasked.phase, hoffer]
      simpa using fun hresume => hguiding (.inr (.inr hresume))

/-- Far off without anything on offer, the driver is taken to be off the route. -/
theorem offersWell_moveOn {phase : Phase} (h : d.session.MayEnter config phase) :
    (d.moveOn config now phase).session.OffersWell config := by
  unfold moveOn
  dsimp only
  have hphase : (d.transition config now phase).session.phase = phase := transition_phase d phase
  have hroute : (d.transition config now phase).session.route.IsNumbered := by
    rw [transition_route]
    exact h.numbered
  by_cases hstay : d.session.phase = phase
  · have hwell := h.stays hstay
    subst hstay
    rw [transition_self, if_neg]
    · exact ⟨h.numbered, hwell, h.sound⟩
    · rintro ⟨hresume, hnone⟩
      have hsome := hwell.2 hresume
      rw [Option.isNone_iff_eq_none.1 hnone] at hsome
      cases hsome
  by_cases hresume : phase = .resume
  · subst hresume
    have hsame := sameOffer_transition_resume config now hstay
    rcases hoffer : d.session.offer with _ | m
    · -- nothing was found ahead, so the driver passes through the phase of an offer at once
      have hnone : (d.transition config now .resume).session.offer = none := by
        rw [hsame.offer]
        simp [enter, hoffer]
      rw [if_pos ⟨hphase, by rw [hnone]; rfl⟩]
      exact offersWell_transition hroute (by rw [hphase]; simp) (by simp)
    · have hsome : (d.session.enter .resume).offer = some m := by simp [enter, hoffer]
      have hsound := h.sound m hoffer
      have hwell : (d.session.enter .resume).OffersWell config := by
        refine ⟨h.numbered, by simp [enter, hoffer], fun m' hm' => ?_⟩
        obtain rfl := Option.some.inj (hsome.symm.trans hm')
        exact ⟨hsound.leg, hsound.ahead, hsound.near, hsound.distance⟩
      rw [if_neg]
      · exact hwell.congr hsame
      · rw [hsame.offer, hsome]
        rintro ⟨-, ⟨⟩⟩
  · rw [if_neg fun hcase => hresume (hphase.symm.trans hcase.1)]
    exact offersWell_transition h.numbered hstay hresume

theorem offersWell_applyFix {fix : Fix α} (h : d.session.OffersWell config) :
    (d.applyFix config now fix).session.OffersWell config := by
  have hready : ((d.receive now fix).advance config fix.point fix.time).2.session.MayEnter config
      ((d.receive now fix).advance config fix.point fix.time).1 := by
    refine mayEnter_advance fix.time ?_ ?_ fun hguiding => ?_ <;> rw [receive_session] at *
    · exact h.numbered
    · rfl
    · exact h.offer_eq_none fun hresume => hguiding (.inr (.inr hresume))
  exact (offersWell_moveOn hready).congr (sameOffer_announce config _)

theorem offersWell_begin (h : d.session.OffersWell config) :
    (d.begin config now).session.OffersWell config := by
  unfold begin
  by_cases hphase : d.session.phase = .preview
  · rw [if_pos hphase]
    extract_lets phase
    have hphases : d.session.phase ≠ phase ∧ phase ≠ .resume := by
      rw [hphase]
      unfold phase
      split_ifs <;> simp
    have hbegun : ((d.withSession { d.session with lastSignal := some now }).transition config now
        phase).session.OffersWell config := by
      refine offersWell_transition ?_ hphases.1 hphases.2
      exact h.numbered
    exact hbegun.congr (sameOffer_announce config _)
  · rwa [if_neg hphase]

theorem offersWell_settle (h : d.session.OffersWell config) :
    (d.settle config now).session.OffersWell config := by
  unfold settle
  split_ifs with hphase
  · exact (offersWell_transition h.numbered (by simp [hphase]) (by simp)).congr
      (sameOffer_announce config _)
  · exact h

omit [Geodesy α] in
/-- Resuming leads back to guidance along the route, and nothing else is arranged. -/
theorem transition_resumeAt (config : Config α) (now : Int) (m : Match α)
    (hphase : d.session.phase = .resume) :
    (d.withSession (d.session.resumeAt m)).transition config now .active
      = ⟨(d.session.resumeAt m).enter .active, d.timers,
          d.effects ++ [.phaseChanged .resume .active]⟩ := by
  have hne : (d.withSession (d.session.resumeAt m)).session.phase ≠ .active := by
    simp [withSession, resumeAt, hphase]
  rw [transition_of_ne hne]
  simp [arrange, entering, withSession, resumeAt, enter, hphase, Phase.IsGuiding]

/-- Accepting takes progress to the point on offer. -/
theorem accept_cases (config : Config α) (now : Int) {m : Match α} (hm : d.session.offer = some m)
    (hphase : d.session.phase = .resume) :
    (d.accept config now).session.phase = .active ∧ (d.accept config now).session.progress = m.along
      ∧ (d.accept config now).session.route = d.session.route
      ∧ (d.accept config now).session.offer = none := by
  unfold accept
  rw [hm]
  dsimp -zeta only
  rw [if_pos hphase, transition_resumeAt config now m hphase]
  extract_lets resumed shown
  have hshown : shown.session = (d.session.resumeAt m).enter .active := by
    unfold shown
    split <;> rfl
  have hsame := sameOffer_announce config shown
  rw [hshown] at hsame
  refine ⟨hsame.phase, hsame.progress, hsame.route, hsame.offer.trans ?_⟩
  simp [enter]

theorem accept_of_ne (config : Config α) (now : Int) (d : Dispatch α)
    (hphase : d.session.phase ≠ .resume) : d.accept config now = d := by
  unfold accept
  split
  · rw [if_neg hphase]
  · rfl

theorem dismiss_of_ne (config : Config α) (now : Int) (d : Dispatch α)
    (hphase : d.session.phase ≠ .resume) : d.dismiss config now = d :=
  if_neg hphase

theorem offersWell_accept (h : d.session.OffersWell config) :
    (d.accept config now).session.OffersWell config := by
  by_cases hphase : d.session.phase = .resume
  · obtain ⟨m, hm⟩ := Option.isSome_iff_exists.1 (h.offered.2 hphase)
    obtain ⟨hactive, -, hroute, hnone⟩ := accept_cases config now hm hphase
    refine .of_none ?_ hnone (by simp [hactive])
    rw [hroute]
    exact h.numbered
  · rwa [accept_of_ne config now d hphase]

theorem offersWell_dismiss (h : d.session.OffersWell config) :
    (d.dismiss config now).session.OffersWell config := by
  unfold dismiss
  split_ifs with hphase
  · have hne : d.session.phase ≠ .offRoute := by simp [hphase]
    have hdeclined : ((d.withSession { d.session with dismissed := true, offer := none }).transition
        config now .offRoute).session.OffersWell config := by
      refine offersWell_transition ?_ hne (by simp)
      exact h.numbered
    exact hdeclined.congr (sameOffer_announce config _)
  · exact h

theorem offersWell_loseSignal (h : d.session.OffersWell config) :
    (d.loseSignal config).session.OffersWell config := by
  unfold loseSignal
  split_ifs
  · have hwaiting : { d.session with waiting := true }.OffersWell config :=
      h.congr ⟨rfl, rfl, rfl, rfl, rfl⟩
    exact hwaiting.congr (sameOffer_announce config _)
  · exact h

omit [Scalar α] [Geodesy α] in
theorem sameOffer_resolve (id : Nat) (found : Option (List (Point α))) (d : Dispatch α) :
    (d.resolve id found).session.SameOffer d.session := by
  rcases d.resolve_cases id found with heq | ⟨r, -, -, -, heq⟩ <;> rw [heq] <;>
    exact ⟨rfl, rfl, rfl, rfl, rfl⟩

end Dispatch

theorem Session.isInvariant_offersWell (config : Config α) :
    IsInvariant config (OffersWell config) where
  start area hroute _ := .of_none (Route.isLaid_ofPoints hroute).numbered rfl (by simp [ofRoute])
  applyFix d _ h := Dispatch.offersWell_applyFix h
  begin now d h := Dispatch.offersWell_begin h
  settle now d h := Dispatch.offersWell_settle h
  accept now d h := Dispatch.offersWell_accept h
  dismiss now d h := Dispatch.offersWell_dismiss h
  resolve id found d h := h.congr (Dispatch.sameOffer_resolve id found d)
  loseSignal d h := Dispatch.offersWell_loseSignal h

namespace Navigator

open Session Outcome

theorem Reachable.offersWell {n : Navigator α} (h : Reachable config n) {s : Session α}
    (hs : n.session = some s) : s.OffersWell config :=
  (isInvariant_offersWell config).reachable h s hs

/-- An offer is accepted whenever there is one. -/
theorem handle_acceptOffer (config : Config α) (now : Int) {n : Navigator α} {s : Session α}
    (hs : n.session = some s) (hphase : s.phase = .resume) {m : Match α} (hm : s.offer = some m) :
    ∃ effects n' s', n.handle config now .acceptOffer = (.ok effects, n') ∧ n'.session = some s'
      ∧ s'.phase = .active ∧ s'.progress = m.along := by
  have hdue : (n.due config now).navigator.session = some s := session_due hs (by simp [hphase])
  have hoffer : ((n.due config now).dispatch s).session.offer = some m := hm
  obtain ⟨hactive, hprogress, -, -⟩ := Dispatch.accept_cases config now hoffer hphase
  refine ⟨_, _, (((n.due config now).dispatch s).accept config now).session, rfl, ?_, hactive,
    hprogress⟩
  rw [inSession_some hdue]
  rfl

theorem phase_due (config : Config α) (now : Int) {n : Navigator α} (hphase : n.phase ≠ .resume) :
    (n.due config now).navigator.Has fun s => s.phase ≠ .resume := by
  refine n.has_due (fun d hd => ?_) fun s hs => ?_
  · rcases d.settle_cases config now with heq | ⟨-, s, told, hs, -, heq⟩ <;> rw [heq]
    · exact hd
    · rw [hs.phase]
      exact nofun
  · simpa only [phase, hs] using hphase

omit [Scalar α] [Geodesy α] in
/-- What leaves every session alone that has no offer comes to nothing without one. -/
theorem inSession_of_has {o : Outcome α} (h : o.navigator.Has fun s => s.phase ≠ .resume)
    {operation : Dispatch α → Dispatch α}
    (hop : ∀ d : Dispatch α, d.session.phase ≠ .resume → operation d = d) :
    o.inSession operation = o := by
  rcases hs : o.navigator.session with _ | s
  · exact inSession_none hs operation
  · rw [inSession_some hs, hop (o.dispatch s) (h s hs), withDispatch_dispatch hs]

/-- A point is on offer just in the phase for that. It is then on the route ahead of progress and
near the driver, and accepting takes progress to it. In every other phase accepting and declining
come to no more than the tasks that are due. -/
theorem Reachable.offers {n : Navigator α} (h : Reachable config n) :
    (∀ s, n.session = some s → (s.offer.isSome = true ↔ s.phase = .resume)
        ∧ ∀ m, s.offer = some m → s.CanResumeAt config m)
      ∧ (∀ s, n.session = some s → s.phase = .resume → ∀ now, ∃ m effects n' s',
          s.offer = some m ∧ n.handle config now .acceptOffer = (.ok effects, n')
            ∧ n'.session = some s' ∧ s'.phase = .active ∧ s'.progress = m.along
            ∧ s.progress < s'.progress)
      ∧ (n.phase ≠ .resume → ∀ now,
          n.handle config now .acceptOffer
              = (.ok (n.due config now).effects, (n.due config now).navigator)
            ∧ n.handle config now .dismissOffer
              = (.ok (n.due config now).effects, (n.due config now).navigator)) := by
  refine ⟨fun s hs => ?_, fun s hs hphase now => ?_, fun hphase now => ?_⟩
  · have hwell := h.offersWell hs
    exact ⟨hwell.offered, hwell.sound⟩
  · have hwell := h.offersWell hs
    obtain ⟨m, hm⟩ := Option.isSome_iff_exists.1 (hwell.offered.2 hphase)
    obtain ⟨effects, n', s', hok, hs', hactive, hprogress⟩ :=
      handle_acceptOffer config now hs hphase hm
    refine ⟨m, effects, n', s', hm, hok, hs', hactive, hprogress, ?_⟩
    rw [hprogress]
    exact (hwell.sound m hm).ahead
  · have hdue := phase_due config now hphase
    have haccept := inSession_of_has hdue fun d => d.accept_of_ne config now
    have hdismiss := inSession_of_has hdue fun d => d.dismiss_of_ne config now
    simp only [Navigator.handle, respond, haccept, hdismiss, and_self]

end Navigator

namespace Trial

/-- A driver at the start of the road is next seen at its end, too soon to have driven there. -/
def rejoining : Navigator ℚ :=
  Navigator.fresh.run .standard
    [(0, .areaLoaded (area "north")), (0, seen 0 0), (0, .begin), (1000, seen 0 1000),
      (2000, seen 10 2000)]

theorem reachable_rejoining : Navigator.Reachable .standard rejoining := .run .fresh _

end Trial

namespace Navigator

/-- The end of the road is then on offer, and can be accepted. -/
theorem offers_rejoining : ∃ s m effects n' s', Trial.rejoining.session = some s
    ∧ s.offer = some m ∧ s.CanResumeAt .standard m
    ∧ Trial.rejoining.handle .standard 2500 .acceptOffer = (.ok effects, n')
    ∧ n'.session = some s' ∧ s'.phase = .active ∧ s.progress < s'.progress := by
  have hphase : Trial.rejoining.session.map (·.phase) = some .resume := by decide +kernel
  obtain ⟨s, hs, hphase⟩ := Option.map_eq_some_iff.1 hphase
  obtain ⟨hoffer, haccept, -⟩ := Reachable.offers Trial.reachable_rejoining
  obtain ⟨m, effects, n', s', hm, hok, hs', hactive, -, hahead⟩ := haccept s hs hphase 2500
  exact ⟨s, m, effects, n', s', hs, hm, (hoffer s hs).2 m hm, hok, hs', hactive, hahead⟩

end Navigator

end Roadbook

import Roadbook.Proofs.Progress.Smoother
import Roadbook.Proofs.Guidance.Offer

/-!
# Progress along the route

Progress starts at 0 whenever the driver comes under guidance (`Dispatch.carries_transition`). From
then on it is moved by good fixes and by accepting an offer, and by nothing else
(`Outcome.moves_respond`). In exact numbers, and with no leg shorter than nothing, every place that
is found lies within its leg and progress between the ends of the route, as do the samples that it
is made of (`Session.IsOnRoute`).
-/

namespace Roadbook

variable {α : Type} [Scalar α]

/-- A fix leads to guidance from nowhere but guidance. -/
theorem Phase.next_ne_active {p : Phase} (hno : ¬ p.IsGuiding) (rules : Config.Guidance α)
    (reading : Reading α) : p.next rules reading ≠ .active := by
  intro hnext
  cases p <;> simp only [next, reduceCtorEq] at hnext
  · split_ifs at hnext
  all_goals exact hno (by simp [IsGuiding])

namespace Session

/-- Progress is 0 where the driver has come under guidance, and what it was where not. -/
def Carries (s t : Session α) : Prop :=
  t.progress = if t.phase = .active ∧ ¬ s.phase.IsGuiding then 0 else s.progress

/-- Progress is 0 where the driver has come under guidance, and it changes there, at good fixes
while guiding and where an offer is accepted. -/
structure Moves (config : Config α) (now : Int) (event : Event α) (s t : Session α) : Prop where
  starts : t.phase = .active → ¬ s.phase.IsGuiding → t.progress = 0
  changes : t.progress ≠ s.progress → (t.phase = .active ∧ ¬ s.phase.IsGuiding)
    ∨ (∃ fix, event = .fix fix ∧ s.phase.IsGuiding
      ∧ fix.check now config.guidance.maxAge config.guidance.maxAccuracy = none)
    ∨ (event = .acceptOffer ∧ ∃ m, s.offer = some m ∧ t.progress = m.along)

variable {config : Config α} {now : Int} {s s' t t' : Session α}

theorem Carries.stays (hprogress : t.progress = s.progress)
    (hactive : t.phase = .active → s.phase.IsGuiding) : s.Carries t := by
  unfold Carries
  rw [if_neg fun hstart => hstart.2 (hactive hstart.1), hprogress]

theorem Carries.refl (s : Session α) : s.Carries s := .stays rfl .inl

theorem Carries.congr (h : s.Carries t) (hphase : s'.phase = s.phase)
    (hprogress : s'.progress = s.progress) (ht : t'.SameCourse t) : s'.Carries t' := by
  have hsame : t'.progress = t.progress := congrArg Smoother.progress ht.smoother
  unfold Carries
  rw [hsame, hphase, hprogress, ht.phase]
  exact h

theorem Carries.moves (h : s.Carries t) (event : Event α) : s.Moves config now event t := by
  unfold Carries at h
  split_ifs at h with hstart
  · exact ⟨fun _ _ => h, fun _ => .inl hstart⟩
  · exact ⟨fun hactive hno => absurd ⟨hactive, hno⟩ hstart, fun hchanged => absurd h hchanged⟩

end Session

namespace Dispatch

open Session

variable {config : Config α} {now : Int} {d : Dispatch α}

theorem arrange_smoother (before : Phase) (d : Dispatch α) :
    (d.arrange config now before).session.smoother =
      if d.session.phase = .active ∧ ¬ before.IsGuiding then .fresh else d.session.smoother := by
  unfold arrange
  split
  · rename_i hphase
    rw [if_neg (by simp [hphase])]
    split <;> rfl
  · rename_i hphase
    rw [if_neg (by simp [hphase])]
  · rename_i hphase
    by_cases hbefore : before.IsGuiding
    · rw [if_pos hbefore, if_neg fun hstart => hstart.2 hbefore]
    · rw [if_neg hbefore, if_pos ⟨hphase, hbefore⟩]
      rfl
  · rename_i hphase
    rw [if_neg (by simp [hphase])]
    split <;> rfl
  · rename_i hactive _
    rw [if_neg fun hstart => hactive hstart.1]

theorem transition_smoother (d : Dispatch α) (phase : Phase) :
    (d.transition config now phase).session.smoother =
      if phase = .active ∧ ¬ d.session.phase.IsGuiding then .fresh else d.session.smoother := by
  by_cases hne : d.session.phase = phase
  · rw [← hne, transition_self, if_neg fun hstart => hstart.2 (.inl hstart.1)]
  · rw [transition_of_ne hne, arrange_smoother]
    rfl

/-- Nothing comes to be on offer on the way into a phase. -/
theorem offer_of_transition {phase : Phase} {m : Match α}
    (hm : (d.transition config now phase).session.offer = some m) : d.session.offer = some m := by
  by_cases hne : d.session.phase = phase
  · rwa [← hne, transition_self] at hm
  · rw [transition_offer hne] at hm
    split_ifs at hm
    exact hm

theorem carries_transition (d : Dispatch α) (phase : Phase) :
    d.session.Carries (d.transition config now phase).session := by
  unfold Carries Session.progress
  rw [transition_phase, transition_smoother]
  split_ifs <;> rfl

theorem moveOn_smoother {phase : Phase} (hphase : phase ≠ .active) :
    (d.moveOn config now phase).session.smoother = d.session.smoother := by
  have hmoved : (d.transition config now phase).session.smoother = d.session.smoother := by
    rw [transition_smoother, if_neg fun hstart => hphase hstart.1]
  unfold moveOn
  dsimp only
  split_ifs
  · rw [transition_smoother, if_neg (by simp), hmoved]
  · exact hmoved

theorem moveOn_phase {phase : Phase} (hphase : phase ≠ .active) :
    (d.moveOn config now phase).session.phase ≠ .active := by
  unfold moveOn
  dsimp only
  split_ifs <;> rw [transition_phase]
  · simp
  · exact hphase

variable [Geodesy α]

theorem carries_begin (d : Dispatch α) : d.session.Carries (d.begin config now).session := by
  unfold begin
  by_cases hphase : d.session.phase = .preview
  · rw [if_pos hphase]
    exact (carries_transition (d.withSession { d.session with lastSignal := some now }) _).congr
      rfl rfl (sameCourse_announce config _)
  · rw [if_neg hphase]
    exact .refl _

theorem carries_settle (d : Dispatch α) : d.session.Carries (d.settle config now).session := by
  unfold settle
  split_ifs
  · exact (carries_transition d .active).congr rfl rfl (sameCourse_announce config _)
  · exact .refl _

theorem settle_phase (config : Config α) (now : Int) (hphase : d.session.phase = .atStart) :
    (d.settle config now).session.phase = .active := by
  unfold settle
  rw [if_pos hphase, (sameCourse_announce config _).phase, transition_phase]

theorem carries_dismiss (d : Dispatch α) : d.session.Carries (d.dismiss config now).session := by
  unfold dismiss
  split_ifs
  · exact (carries_transition (d.withSession { d.session with dismissed := true, offer := none })
      _).congr rfl rfl (sameCourse_announce config _)
  · exact .refl _

theorem carries_checkSignal (d : Dispatch α) :
    d.session.Carries (d.checkSignal config now).session := by
  rcases d.checkSignal_cases config now with heq | heq <;> rw [heq]
  · exact (Carries.refl _).congr rfl rfl (sameCourse_loseSignal config d)
  · exact .refl _

theorem carries_applyFix (fix : Fix α) (hno : ¬ d.session.phase.IsGuiding) :
    d.session.Carries (d.applyFix config now fix).session := by
  have hreceived : (d.receive now fix).session.phase = d.session.phase
      ∧ (d.receive now fix).session.smoother = d.session.smoother := by
    rw [receive_session]
    exact ⟨rfl, rfl⟩
  have hasked := sameCourse_askForStart fix.point (d.receive now fix)
  rw [applyFix_eq, advance_of_not_guiding (by rwa [hreceived.1]), hreceived.1]
  dsimp only
  have hphase := Phase.next_ne_active hno config.guidance ((d.receive now fix).session.reading
    fix.point ((d.receive now fix).session.distanceToStart fix.point))
  refine Carries.congr (.stays ?_ fun hactive => absurd hactive (moveOn_phase hphase)) rfl rfl
    (sameCourse_announce config _)
  show (moveOn config now _ _).session.smoother.progress = _
  rw [moveOn_smoother hphase, hasked.smoother, hreceived.2]
  rfl

theorem moves_applyFix {fix : Fix α}
    (hgood : fix.check now config.guidance.maxAge config.guidance.maxAccuracy = none) :
    d.session.Moves config now (.fix fix) (d.applyFix config now fix).session := by
  by_cases hguiding : d.session.phase.IsGuiding
  · exact ⟨fun _ hno => absurd hguiding hno, fun _ => .inr (.inl ⟨fix, rfl, hguiding, hgood⟩)⟩
  · exact (carries_applyFix fix hguiding).moves _

theorem moves_accept (d : Dispatch α) :
    d.session.Moves config now .acceptOffer (d.accept config now).session := by
  by_cases hphase : d.session.phase = .resume
  · rcases hm : d.session.offer with _ | m
    · have hsame : d.accept config now = d := by
        unfold accept
        rw [hm]
      rw [hsame]
      exact (Carries.refl _).moves _
    · obtain ⟨-, hprogress, -, -⟩ := accept_cases config now hm hphase
      exact ⟨fun _ hno => absurd (.inr (.inr hphase)) hno,
        fun _ => .inr (.inr ⟨rfl, m, hm, hprogress⟩)⟩
  · rw [accept_of_ne config now d hphase]
    exact (Carries.refl _).moves _

theorem moves_does {event : Event α} {operation : Dispatch α → Dispatch α}
    (h : Does config now event operation) (d : Dispatch α) :
    d.session.Moves config now event (operation d).session := by
  cases h with
  | fix hgood => exact moves_applyFix hgood
  | ignore => exact ((Carries.refl _).congr rfl rfl (d.sameCourse_loseSignal config)).moves _
  | begin => exact d.carries_begin.moves _
  | accept => exact d.moves_accept
  | dismiss => exact d.carries_dismiss.moves _
  | resolve id found =>
    exact ((Carries.refl _).congr rfl rfl (d.sameCourse_resolve id found)).moves _
  | flushed | view => exact (Carries.refl _).moves _
  | tick => exact d.carries_checkSignal.moves _

end Dispatch

/-- Nothing but the end of the settle delay can have happened while the tasks that are due ran. -/
def Session.Settles (s t : Session α) : Prop :=
  (t.phase = s.phase ∧ t.progress = s.progress)
    ∨ s.phase = .atStart ∧ t.phase = .active ∧ t.progress = 0

theorem Session.Settles.carries {s t : Session α} (h : s.Settles t) : s.Carries t := by
  rcases h with ⟨hphase, hprogress⟩ | ⟨hbefore, hphase, hprogress⟩
  · exact .stays hprogress fun hactive => .inl (hphase.symm.trans hactive)
  · unfold Carries
    rw [if_pos ⟨hphase, by simp [hbefore, Phase.IsGuiding]⟩, hprogress]

variable [Geodesy α] {config : Config α} {now : Int}

theorem Session.waits_settles (config : Config α) (s : Session α) :
    Waits config fun t _ => s.Settles t where
  beside _ h := h
  settle now d h := by
    by_cases hphase : d.session.phase = .atStart
    · rcases h with ⟨hsame, -⟩ | ⟨-, hactive, -⟩
      · have hcarried : d.session.Carries (d.settle config now).session := d.carries_settle
        have hactive := d.settle_phase config now hphase
        unfold Carries at hcarried
        rw [if_pos ⟨hactive, by simp [hphase, Phase.IsGuiding]⟩] at hcarried
        exact .inr ⟨hsame.symm.trans hphase, hactive, hcarried⟩
      · rw [hactive] at hphase
        cases hphase
    · have hsame : d.settle config now = d := if_neg hphase
      rwa [hsame]

namespace Outcome

open Session

variable {o o' : Outcome α}

/-- An event that leaves the area loaded moves progress as events may. -/
theorem moves_respond {s : Session α} (hs : o.navigator.session = some s) {event : Event α}
    (hkeeps : ¬ event.Unloads) (hok : Navigator.respond config now o event = .ok o') :
    ∃ t, o'.navigator.session = some t ∧ s.Moves config now event t := by
  obtain ⟨operation, hdoes, hleaves⟩ := respond_does hkeeps hok
  rw [hleaves.session, inSession_some hs]
  exact ⟨_, rfl, Dispatch.moves_does hdoes (o.dispatch s)⟩

/-- A session that takes the place of another one starts with no progress. -/
theorem progress_of_unloads {t : Session α} {event : Event α} (hunloads : event.Unloads)
    (hok : Navigator.respond config now o event = .ok o') (ht : o'.navigator.session = some t) :
    t.progress = 0 := by
  cases event with
  | areaLoaded area =>
    obtain ⟨route, smoother, -, hsmoother, rfl⟩ := respond_areaLoaded_iff.1 hok
    obtain rfl := Smoother.start?_eq_some hsmoother
    cases ht
    rfl
  | finish =>
    cases hok
    have hnone : (o.unload config now).navigator.session = none := drain_session _
    rw [hnone] at ht
    cases ht
  | _ => exact hunloads.elim

end Outcome

section Exact

variable {K : Type} [Field K] [LinearOrder K] [FloorRing K] [Geodesy K]

attribute [local instance] Scalar.exact

/-- Progress, and all that it may become of what is known, lies between the ends of the route. -/
structure Session.IsOnRoute (s : Session K) : Prop where
  laid : s.route.IsLaid
  within : s.smoother.IsWithin 0 s.route.total
  offered : ∀ m, s.offer = some m → s.route.Spans m

theorem Session.IsOnRoute.congr {s t : Session K} (h : t.IsOnRoute) (hs : s.SameCourse t) :
    s.IsOnRoute := by
  refine ⟨?_, ?_, fun m hm => ?_⟩
  · rw [hs.route]
    exact h.laid
  · rw [hs.smoother, hs.route]
    exact h.within
  · rw [hs.route]
    exact h.offered m (hs.offer.symm.trans hm)

variable {config : Config K} {now : Int} {d : Dispatch K}

theorem Dispatch.isOnRoute_transition (h : d.session.IsOnRoute) (phase : Phase) :
    (d.transition config now phase).session.IsOnRoute := by
  refine ⟨?_, ?_, fun m hm => ?_⟩
  · rw [transition_route]
    exact h.laid
  · rw [transition_smoother, transition_route]
    split_ifs
    · exact .fresh (h.within.progress.1.trans h.within.progress.2)
    · exact h.within
  · rw [transition_route]
    exact h.offered m (offer_of_transition hm)

theorem Dispatch.isOnRoute_moveOn (h : d.session.IsOnRoute) (phase : Phase) :
    (d.moveOn config now phase).session.IsOnRoute := by
  have hmoved : (d.transition config now phase).session.IsOnRoute := isOnRoute_transition h phase
  unfold moveOn
  dsimp only
  split_ifs
  · exact isOnRoute_transition hmoved .offRoute
  · exact hmoved

variable [IsStrictOrderedRing K] (hground : ∀ a b : Point K, 0 ≤ Geodesy.distance a b)
  (hweight : config.smoothing.rawWeight ∈ Set.Icc 0 1) (hspeed : 0 ≤ config.smoothing.maxSpeed)

include hground hweight hspeed

/-- Progress follows to where the position is found, and what is on offer is found on the route. -/
theorem Session.isOnRoute_track {s : Session K} (h : s.IsOnRoute) (p : Point K) (time : Int) :
    (s.track config p time).2.IsOnRoute := by
  have hspans := h.laid.spans_matched hground s.matcher config.matching p
  have hsample := h.laid.along_mem hground hspans
  refine ⟨h.laid, h.within.update hweight hspeed hsample time, fun m hm => ?_⟩
  simp only [track, seekOffer] at hm
  split_ifs at hm
  exact h.laid.spans_resume? hground hm

theorem Session.isGuided_isOnRoute : IsGuided config (IsOnRoute (K := K)) where
  congr hs h := h.congr hs
  start area hroute := by
    have hlaid := Route.isLaid_ofPoints hroute
    exact ⟨hlaid, .fresh (hlaid.total_nonneg hground), nofun⟩
  begin phase _ h := Dispatch.isOnRoute_transition h phase
  resume {_ d m} hm h := by
    have hplace := h.laid.along_mem hground (h.offered m hm)
    have hresumed : (d.session.resumeAt m).IsOnRoute := ⟨h.laid, .force _ hplace, nofun⟩
    exact Dispatch.isOnRoute_transition hresumed .active
  decline {_ d} h := by
    have hdeclined : { d.session with dismissed := true, offer := none }.IsOnRoute :=
      ⟨h.laid, h.within, nofun⟩
    exact Dispatch.isOnRoute_transition hdeclined .offRoute
  advance {_ d} p time h := by
    refine Dispatch.isOnRoute_moveOn ?_ _
    by_cases hguiding : d.session.phase.IsGuiding
    · rw [Dispatch.advance_of_guiding hguiding]
      exact isOnRoute_track hground hweight hspeed h p time
    · rw [Dispatch.advance_of_not_guiding hguiding]
      exact h.congr (d.sameCourse_askForStart p)

open Session Outcome in
/-- On a ground without negative distances, where the weight of a sample is a part of the whole and
no vehicle drives backwards, progress lies between the ends of the route, and what is found on the
route within its leg. Progress changes when the driver comes under guidance, where it is 0, with a
good fix while guiding and with an offer that is accepted, and starts at 0 with a new area. -/
theorem Navigator.Reachable.keeps_to_route {n : Navigator K} (h : Reachable config n)
    {s : Session K} (hs : n.session = some s) :
    (s.progress ∈ Set.Icc 0 s.route.total ∧ s.remaining = s.route.total - s.progress)
      ∧ (∀ (m : Matcher) (p : Point K), s.route.Spans (m.locate config.matching s.route p).1)
      ∧ (∀ (p : Point K) (progress radius : K) (m : Match K),
          s.route.resume? p progress radius = some m → s.route.Spans m)
      ∧ (∀ m, s.offer = some m → s.route.Spans m)
      ∧ ∀ now, ∃ s₁, (n.due config now).navigator.session = some s₁ ∧ s.Carries s₁
        ∧ ∀ event, ((n.answer config now event).Unloads →
              ∀ t, (n.answer config now event).navigator.session = some t → t.progress = 0)
            ∧ (¬ (n.answer config now event).Unloads →
              ∃ t, (n.answer config now event).navigator.session = some t
                ∧ s₁.Moves config now event t) := by
  obtain ⟨hlaid, hwithin, hoffered⟩ :=
    (isGuided_isOnRoute hground hweight hspeed).isInvariant.reachable h s hs
  refine ⟨⟨hwithin.progress, Route.remaining_of_le hwithin.progress.2⟩,
    fun m p => hlaid.spans_matched hground m config.matching p,
    fun p progress radius m => hlaid.spans_resume? hground, hoffered, fun now => ?_⟩
  have hwaited : (n.due config now).Shows fun t _ => s.Settles t :=
    (waits_settles config s).due hs (.inl ⟨rfl, rfl⟩)
  obtain ⟨s₁, hs₁, hsettled⟩ := hwaited
  refine ⟨s₁, hs₁, hsettled.carries, fun event => ?_⟩
  simp only [answer, Answer.Unloads]
  rcases handle_cases config n now event with ⟨o, hok, heq⟩ | ⟨refusal, -, heq⟩ <;> rw [heq]
  · refine ⟨fun hunloads t ht => ?_, fun hkeeps => ?_⟩
    · rw [progress_of_unloads hunloads.1 hok ht]
      exact Scalar.exact_zero
    · exact moves_respond hs₁ (fun hunloads => hkeeps ⟨hunloads, rfl⟩) hok
  · exact ⟨fun hunloads => absurd hunloads.2 (by simp [Except.isOk, Except.toBool]),
      fun _ => ⟨s₁, hs₁, (Carries.refl s₁).moves event⟩⟩

end Exact

/-- The driver to whom the end of the road is offered is on the road, and goes on there. -/
theorem Navigator.keeps_to_route_rejoining : ∃ s m s₁ t, Trial.rejoining.session = some s
    ∧ s.progress ∈ Set.Icc 0 s.route.total ∧ s.remaining = s.route.total - s.progress
    ∧ s.offer = some m ∧ s.route.Spans m
    ∧ (Trial.rejoining.due .standard 2500).navigator.session = some s₁ ∧ s.Carries s₁
    ∧ (Trial.rejoining.answer .standard 2500 .acceptOffer).navigator.session = some t
    ∧ s₁.Moves .standard 2500 .acceptOffer t := by
  have hoffer : (Trial.rejoining.session.bind (·.offer)).isSome = true := by decide +kernel
  obtain ⟨m, hm⟩ := Option.isSome_iff_exists.1 hoffer
  obtain ⟨s, hs, hm⟩ := Option.bind_eq_some_iff.1 hm
  obtain ⟨⟨hprogress, hremaining⟩, -, -, hspans, hmoves⟩ := Reachable.keeps_to_route
    distance_rat_nonneg ⟨by decide +kernel, by decide +kernel⟩ (by decide +kernel)
    Trial.reachable_rejoining hs
  obtain ⟨s₁, hs₁, hcarries, hanswers⟩ := hmoves 2500
  obtain ⟨t, ht, hmoved⟩ := (hanswers .acceptOffer).2 (by decide)
  exact ⟨s, m, s₁, t, hs, hprogress, hremaining, hm, hspans m hm, hs₁, hcarries, ht, hmoved⟩

end Roadbook

import Mathlib.Data.List.Chain
import Roadbook.Proofs.Guidance.Offer
import Roadbook.Proofs.Guidance.Reckoning
import Roadbook.Proofs.Guidance.Walk
import Roadbook.Proofs.Progress.Samples

/-!
# Staying on the route

A driver under guidance who is found near the route at every fix, and never further along it than a
vehicle gets from one fix to the next, is not taken to be off it, however far progress lags behind
the places found (`Navigator.Reachable.stays_active`). It matters that the place of a fix is
compared with the place before it and not with progress, and that nobody is under guidance who is
still taken to be ahead of progress (`Session.IsSteady`). It matters as well that the time from one
fix to the next fits: else it may count as no time at all (`Navigator.strays_on_route`).
-/

namespace Roadbook

/-- Where a fix has found the driver on the route. -/
structure Sighting (α : Type) where
  place : Match α
  time : Int

def Sighting.sample {α : Type} (seen : Sighting α) : Sample α := ⟨seen.place.along, seen.time⟩

variable {α : Type}

/-- The newest sample of the area that is loaded, if there is any. -/
def Navigator.newest? (n : Navigator α) : Option (Sample α) :=
  n.session.bind fun s => s.smoother.newest?

/-- Samples bear their times, and nobody under guidance is taken to be ahead of progress. -/
structure Session.IsSteady (s : Session α) : Prop where
  timed : s.smoother.IsTimed
  onRoute : s.phase = .active → s.rejoined = false

theorem Session.IsSteady.congr {s t : Session α} (h : t.IsSteady) (hphase : s.phase = t.phase)
    (hsmoother : s.smoother = t.smoother) (hrejoined : s.rejoined = t.rejoined) : s.IsSteady := by
  obtain ⟨htimed, honRoute⟩ := h
  refine ⟨?_, ?_⟩
  · rwa [hsmoother]
  · rwa [hphase, hrejoined]

variable [Scalar α]

/-- Found near enough to be on the route. -/
def Sighting.IsNear (rules : Config.Guidance α) (seen : Sighting α) : Prop :=
  ¬ rules.offRoute < seen.place.distance ∧ ¬ rules.resumeAhead < seen.place.distance

instance (rules : Config.Guidance α) (seen : Sighting α) : Decidable (seen.IsNear rules) :=
  inferInstanceAs (Decidable (_ ∧ _))

theorem Phase.next_of_near {rules : Config.Guidance α} {reading : Reading α}
    (hrejoined : reading.rejoined = false) (hon : ¬ rules.offRoute < reading.offset)
    (hahead : ¬ rules.resumeAhead < reading.offset) :
    Phase.active.next rules reading = .active ∨ Phase.active.next rules reading = .arrived := by
  have hfar : ¬ rules.IsFar reading.offset reading.rejoined := by
    rw [hrejoined]
    exact not_or.2 ⟨hahead, by simp⟩
  have hoff : ¬ rules.IsOff reading.offset reading.rejoined := by
    rw [hrejoined]
    exact not_or.2 ⟨hon, by simp⟩
  simp only [Phase.next, if_neg hfar, if_neg hoff]
  split_ifs <;> simp

/-- A position that leads to guidance while guided is not taken to be ahead of progress. -/
theorem Phase.rejoined_of_next {rules : Config.Guidance α} {reading : Reading α} {p : Phase}
    (hguiding : p.IsGuiding) (hnext : p.next rules reading = .active) :
    reading.rejoined = false := by
  rcases hguiding with rfl | rfl | rfl <;> simp only [Phase.next] at hnext
  · split_ifs at hnext with harrived hfar hoff
    simpa using fun hrejoined => hoff (.inr hrejoined)
  · split_ifs at hnext with harrived hoff
    · simpa using fun hrejoined => hoff (.inr hrejoined)
  · split_ifs at hnext with harrived hoff
    · simpa using fun hrejoined => hoff (.inr hrejoined)

namespace Dispatch

variable {config : Config α} {now : Int} {d : Dispatch α}

/-- Whoever comes under guidance is not taken to be ahead of progress, unless that was so while
being guided before. -/
theorem isSteady_transition {phase : Phase} (ht : d.session.smoother.IsTimed)
    (hguided : phase = .active → d.session.phase.IsGuiding → d.session.rejoined = false) :
    (d.transition config now phase).session.IsSteady := by
  by_cases hne : d.session.phase = phase
  · rw [← hne, transition_self]
    exact ⟨ht, fun hactive => hguided (hne.symm.trans hactive) (.inl hactive)⟩
  rw [transition_of_ne hne]
  have hphase : (d.entering phase).session.phase = phase := rfl
  have hother : phase ≠ .active → (d.entering phase).session.IsSteady :=
    fun hother => ⟨ht, fun hactive => absurd (hphase.symm.trans hactive) hother⟩
  unfold arrange
  rw [hphase]
  split
  · split
    · exact (hother (by simp)).congr rfl rfl rfl
    · exact hother (by simp)
  · exact (hother (by simp)).congr rfl rfl rfl
  · split_ifs with hbefore
    · exact ⟨ht, fun _ => hguided rfl hbefore⟩
    · exact ⟨fun _ => rfl, fun _ => rfl⟩
  · split
    · exact (hother (by simp)).congr rfl rfl rfl
    · exact hother (by simp)
  · rename_i hactive _
    exact hother (by simpa using hactive)

theorem isSteady_moveOn {phase : Phase} (ht : d.session.smoother.IsTimed)
    (hguided : phase = .active → d.session.phase.IsGuiding → d.session.rejoined = false) :
    (d.moveOn config now phase).session.IsSteady := by
  have hmoved : (d.transition config now phase).session.IsSteady := isSteady_transition ht hguided
  unfold moveOn
  dsimp only
  split_ifs
  · exact isSteady_transition hmoved.timed nofun
  · exact hmoved

end Dispatch

theorem Session.isGuided_isSteady [Geodesy α] (config : Config α) :
    IsGuided config (IsSteady (α := α)) where
  congr hs h := h.congr hs.phase hs.smoother hs.rejoined
  start _ _ := ⟨fun _ => rfl, nofun⟩
  begin phase hphase h := by
    refine Dispatch.isSteady_transition h.timed fun _ hguiding => ?_
    rcases hphase with hphase | hphase <;> simp [Phase.IsGuiding, hphase] at hguiding
  resume _ _ := Dispatch.isSteady_transition (fun _ => rfl) fun _ _ => rfl
  decline h := Dispatch.isSteady_transition h.timed nofun
  advance {_ d} p time h := by
    by_cases hguiding : d.session.phase.IsGuiding
    · rw [Dispatch.advance_of_guiding hguiding]
      exact Dispatch.isSteady_moveOn (Smoother.isTimed_update _ _ _ _)
        fun hnext _ => Phase.rejoined_of_next hguiding hnext
    · have hasked := d.sameCourse_askForStart p
      rw [Dispatch.advance_of_not_guiding hguiding]
      refine Dispatch.isSteady_moveOn ?_ fun _ hno => absurd (hasked.phase ▸ hno) hguiding
      rw [hasked.smoother]
      exact h.timed

open Effect

/-- A session is in a phase with a newest sample, and some changes of phase have been told. -/
structure Dispatch.IsAt (phase : Phase) (newest : Option (Sample α)) (told : List (Phase × Phase))
    (d : Dispatch α) : Prop where
  phase : d.session.phase = phase
  newest : d.session.smoother.newest? = newest
  told : changes d.effects = told

namespace Dispatch

variable {config : Config α} {now : Int} {d : Dispatch α} {phase : Phase}
  {newest : Option (Sample α)} {told : List (Phase × Phase)}

omit [Scalar α] in
theorem IsAt.withSession (h : d.IsAt phase newest told) {s : Session α}
    (hphase : s.phase = d.session.phase) (hsmoother : s.smoother = d.session.smoother) :
    (d.withSession s).IsAt phase newest told :=
  ⟨hphase.trans h.phase, (congrArg _ hsmoother).trans h.newest, h.told⟩

omit [Scalar α] in
theorem IsAt.emit (h : d.IsAt phase newest told) {e : Effect α} (he : e.change? = none) :
    (d.emit e).IsAt phase newest told := by
  refine ⟨h.phase, h.newest, ?_⟩
  rw [Dispatch.emit, changes_append, changes_singleton_of_none he, List.append_nil, h.told]

omit [Scalar α] in
theorem IsAt.resolve (h : d.IsAt phase newest told) (id : Nat)
    (found : Option (List (Point α))) : (d.resolve id found).IsAt phase newest told := by
  rcases d.resolve_cases id found with heq | ⟨r, -, -, -, heq⟩ <;> rw [heq]
  · exact h
  · have hanswered : (d.withSession { d.session with pending := none }).IsAt phase newest told :=
      h.withSession rfl rfl
    exact hanswered.emit rfl

theorem IsAt.stay (h : d.IsAt phase newest told) :
    (d.transition config now phase).IsAt phase newest told := by
  obtain rfl := h.phase
  rwa [transition_self]

theorem IsAt.arrive (h : d.IsAt .active newest told) :
    (d.transition config now .arrived).IsAt .arrived newest (told ++ [(.active, .arrived)]) := by
  have hne : d.session.phase ≠ .arrived := by simp [h.phase]
  rw [transition_of_ne hne]
  refine ⟨rfl, h.newest, ?_⟩
  show changes (d.effects ++ [.phaseChanged d.session.phase .arrived]) = _
  rw [changes_append, h.told, h.phase]
  rfl

variable [Geodesy α]

theorem IsAt.announce (h : d.IsAt phase newest told) :
    (d.announce config).IsAt phase newest told := by
  rcases announce_cases config d with heq | ⟨a, heq⟩ <;> rw [heq]
  · exact h
  · have hannounced : (d.withSession { d.session with announced := some a }).IsAt phase newest
        told := h.withSession rfl rfl
    exact hannounced.emit rfl

theorem IsAt.loseSignal (h : d.IsAt phase newest told) :
    (d.loseSignal config).IsAt phase newest told := by
  unfold Dispatch.loseSignal
  split_ifs
  · have hwaiting : (d.withSession { d.session with waiting := true }).IsAt phase newest told :=
      h.withSession rfl rfl
    exact (hwaiting.emit rfl).announce
  · exact h

theorem IsAt.checkSignal (h : d.IsAt phase newest told) :
    (d.checkSignal config now).IsAt phase newest told := by
  rcases d.checkSignal_cases config now with heq | heq <;> rw [heq]
  · exact h.loseSignal
  · exact h

end Dispatch

section Follow

variable [Geodesy α] {config : Config α} {now : Int} {s : Session α} {fix : Fix α}

/-- Where a fix finds the driver. -/
def Session.sighting (config : Config α) (s : Session α) (fix : Fix α) : Sighting α :=
  ⟨(s.matcher.locate config.matching s.route fix.point).1, fix.time⟩

/-- A driver under guidance who is found near the route, and not too far ahead of where the driver
was, is on it or at its end. -/
theorem Session.track_of_near (hphase : s.phase = .active) (hrejoined : s.rejoined = false)
    (hnear : (s.sighting config fix).IsNear config.guidance)
    (houtran : s.smoother.outruns config.smoothing (s.sighting config fix).place.along fix.time
      = false) :
    (s.track config fix.point fix.time).1 = .active
      ∨ (s.track config fix.point fix.time).1 = .arrived := by
  have hkept : (s.follow config fix.point fix.time).2.rejoined = false := by
    have hsample : (s.smoother.update config.smoothing (s.sighting config fix).place.along
        fix.time).outran = false := houtran
    simp only [follow, rejoinedAfter, hrejoined]
    split_ifs
    · rfl
    · exact hsample
  have hstays : ((s.follow config fix.point fix.time).2.seekOffer config fix.point
      (s.follow config fix.point fix.time).1.distance).phase = .active := hphase
  unfold track
  dsimp only
  rw [hstays]
  exact Phase.next_of_near hkept hnear.1 hnear.2

end Follow

namespace Dispatch

variable [Geodesy α] {config : Config α} {now : Int} {d : Dispatch α} {phase : Phase}
  {newest : Option (Sample α)} {told : List (Phase × Phase)} {fix : Fix α}

/-- A fix leads to where its position does, unless that is the phase of an offer. -/
theorem isAt_applyFix (hreceived : ∀ r : Dispatch α, r.session = d.session.withFix fix now →
    changes r.effects = changes d.effects → (r.advance config fix.point fix.time).1 ≠ .resume
      ∧ ((r.advance config fix.point fix.time).2.transition config now
        (r.advance config fix.point fix.time).1).IsAt phase newest told) :
    (d.applyFix config now fix).IsAt phase newest told := by
  have htold : changes (d.receive now fix).effects = changes d.effects := by
    unfold receive
    dsimp only
    split_ifs
    · rw [emit, changes_append, changes_singleton_of_none rfl, List.append_nil]
      rfl
    · rfl
  obtain ⟨hoffer, hmoved⟩ := hreceived _ (d.receive_session now fix) htold
  have hmoves : ((d.receive now fix).advance config fix.point fix.time).2.moveOn config now
        ((d.receive now fix).advance config fix.point fix.time).1
      = ((d.receive now fix).advance config fix.point fix.time).2.transition config now
        ((d.receive now fix).advance config fix.point fix.time).1 :=
    if_neg fun hresume => hoffer ((transition_phase _ _).symm.trans hresume.1)
  rw [← hmoves] at hmoved
  exact (hmoved.emit rfl).announce

/-- Under guidance, a fix that finds the driver near the route and within reach of the last one
changes nothing but that the driver may have arrived. -/
theorem IsAt.applyFix (h : d.IsAt .active newest told) (hsteady : d.session.IsSteady)
    (hnear : (d.session.sighting config fix).IsNear config.guidance)
    (hreach : ∀ sample, newest = some sample →
      sample.LeadsTo config.smoothing (d.session.sighting config fix).sample) :
    (d.applyFix config now fix).IsAt .active (some (d.session.sighting config fix).sample) told
      ∨ (d.applyFix config now fix).IsAt .arrived (some (d.session.sighting config fix).sample)
        (told ++ [(.active, .arrived)]) := by
  have houtran : d.session.smoother.outruns config.smoothing
      (d.session.sighting config fix).place.along fix.time = false := by
    refine Smoother.outruns_of_leadsTo hsteady.timed fun sample hsample => ?_
    exact hreach sample (h.newest.symm.trans hsample)
  have hnext := Session.track_of_near (s := d.session.withFix fix now) h.phase
    (hsteady.onRoute h.phase) hnear houtran
  have htracked : ∀ r : Dispatch α, r.session = d.session.withFix fix now →
      changes r.effects = changes d.effects →
      r.advance config fix.point fix.time
          = ((r.session.track config fix.point fix.time).1,
            r.withSession (r.session.track config fix.point fix.time).2)
        ∧ (r.withSession (r.session.track config fix.point fix.time).2).IsAt .active
          (some (d.session.sighting config fix).sample) told := by
    intro r hr htold
    have hphase : r.session.phase = .active := by rw [hr]; exact h.phase
    refine ⟨advance_of_guiding (.inl hphase) _ _, hphase, ?_, htold.trans h.told⟩
    rw [hr]
    exact Smoother.newest?_update _ _ _ _
  rcases hnext with hactive | harrived
  · refine .inl (isAt_applyFix fun r hr htold => ?_)
    obtain ⟨hadvance, hat⟩ := htracked r hr htold
    rw [hadvance, hr, hactive]
    rw [hr] at hat
    exact ⟨by simp, hat.stay⟩
  · refine .inr (isAt_applyFix fun r hr htold => ?_)
    obtain ⟨hadvance, hat⟩ := htracked r hr htold
    rw [hadvance, hr, harrived]
    rw [hr] at hat
    exact ⟨by simp, hat.arrive⟩

/-- Once the driver has arrived, a fix changes neither the phase nor what is kept. -/
theorem IsAt.applyFix_arrived (h : d.IsAt .arrived newest told) :
    (d.applyFix config now fix).IsAt .arrived newest told := by
  refine isAt_applyFix fun r hr htold => ?_
  have hat : r.IsAt .arrived newest told := by
    refine ⟨?_, ?_, htold.trans h.told⟩ <;> rw [hr]
    · exact h.phase
    · exact h.newest
  have hadvance : r.advance config fix.point fix.time = (.arrived, r) := by
    simp [advance, askForStart, hat.phase, Phase.IsGuiding, Phase.next]
  rw [hadvance]
  exact ⟨by simp, hat.stay⟩

end Dispatch

namespace Outcome

variable {config : Config α} {now : Int} {o o' : Outcome α} {phase : Phase}
  {newest : Option (Sample α)} {told : List (Phase × Phase)}

omit [Scalar α] in
/-- The session that is loaded is in a phase with a newest sample, and some changes of phase have
been told. -/
def IsAt (phase : Phase) (newest : Option (Sample α)) (told : List (Phase × Phase))
    (o : Outcome α) : Prop :=
  ∃ s, o.navigator.session = some s ∧ (o.dispatch s).IsAt phase newest told

omit [Scalar α] in
theorem IsAt.congr (h : o.IsAt phase newest told)
    (hs : o'.navigator.session = o.navigator.session)
    (htold : changes o'.effects = changes o.effects) : o'.IsAt phase newest told := by
  obtain ⟨s, hsession, hphase, hnewest, hchanges⟩ := h
  exact ⟨s, hs.trans hsession, hphase, hnewest, htold.trans hchanges⟩

omit [Scalar α] in
theorem IsAt.inSession (h : o.IsAt phase newest told) {operation : Dispatch α → Dispatch α}
    {phase' : Phase} {newest' : Option (Sample α)} {told' : List (Phase × Phase)}
    (hop : ∀ d : Dispatch α, d.IsAt phase newest told → (operation d).IsAt phase' newest' told') :
    (o.inSession operation).IsAt phase' newest' told' := by
  obtain ⟨s, hs, hat⟩ := h
  rw [inSession_some hs]
  exact ⟨_, rfl, hop _ hat⟩

omit [Scalar α] in
/-- What a session has no part in changes neither its phase nor what is told of that. -/
theorem IsAt.leaves (h : o.IsAt phase newest told) (hleaves : o.LeavesSession o') :
    o'.IsAt phase newest told :=
  h.congr hleaves.session hleaves.changes_eq

variable [Geodesy α]

theorem isAt_runTasks (hphase : phase ≠ .atStart) : ∀ (tasks : List Task) {o : Outcome α},
    o.IsAt phase newest told → (tasks.foldl (runTask config now) o).IsAt phase newest told
  | [], _, h => h
  | .settle :: tasks, o, h => by
    have hsettled : (o.inSession (·.settle config now)).IsAt phase newest told := by
      refine h.inSession fun d hd => ?_
      have hsame : d.settle config now = d :=
        if_neg fun hstart => hphase (hd.phase.symm.trans hstart)
      rwa [hsame]
    exact isAt_runTasks hphase tasks hsettled
  | .flush area :: tasks, o, h =>
    isAt_runTasks hphase tasks (h.leaves (leavesSession_flush config now o area))

/-- What a good fix brings about besides what it does to the session. -/
theorem isAt_covered {fix : Fix α}
    (h : (o.inSession (·.applyFix config now fix)).IsAt phase newest told)
    (hgood : fix.check now config.guidance.maxAge config.guidance.maxAccuracy = none)
    (hok : o.onFix config now fix = .ok o') : o'.IsAt phase newest told := by
  unfold onFix at hok
  rw [hgood] at hok
  exact h.leaves ((leavesSession_aim _ fix).trans (leavesSession_cover hok))

/-- Under guidance, or after it, nothing but a good fix seen under guidance makes a difference. -/
theorem isAt_respond {event : Event α} (h : o.IsAt phase newest told)
    (hphase : phase = .active ∨ phase = .arrived) (hkeeps : ¬ event.Unloads)
    (hunseen : ∀ fix, event = .fix fix →
      fix.check now config.guidance.maxAge config.guidance.maxAccuracy = none → phase = .arrived)
    (hok : Navigator.respond config now o event = .ok o') : o'.IsAt phase newest told := by
  obtain ⟨operation, hdoes, hleaves⟩ := respond_does hkeeps hok
  refine IsAt.leaves (h.inSession fun d hd => ?_) hleaves
  have hno : d.session.phase ≠ .preview ∧ d.session.phase ≠ .resume := by
    rcases hphase with rfl | rfl <;> simp [hd.phase]
  cases hdoes with
  | fix hgood =>
    obtain rfl := hunseen _ rfl hgood
    exact hd.applyFix_arrived
  | ignore => exact hd.loseSignal
  | begin =>
    have hsame : d.begin config now = d := if_neg hno.1
    simpa only [hsame] using hd
  | accept => simpa only [d.accept_of_ne config now hno.2] using hd
  | dismiss => simpa only [d.dismiss_of_ne config now hno.2] using hd
  | resolve id found => exact hd.resolve id found
  | flushed | view => exact hd
  | tick => exact hd.checkSignal

end Outcome

namespace Navigator

variable [Geodesy α] {config : Config α} {now : Int} {n : Navigator α} {event : Event α}

/-- Where a call with a good fix finds a driver under guidance. -/
def sighting? (config : Config α) (n : Navigator α) (now : Int) : Event α → Option (Sighting α)
  | .fix fix =>
    match (n.due config now).navigator.session with
    | some s =>
      if s.phase.IsGuiding
          ∧ (fix.check now config.guidance.maxAge config.guidance.maxAccuracy).isNone
          ∧ (n.handle config now (.fix fix)).1.isOk then some (s.sighting config fix)
      else none
    | none => none
  | _ => none

/-- Where some calls find a driver under guidance, in order. -/
def sightings (config : Config α) (n : Navigator α) : List (Int × Event α) → List (Sighting α)
  | [] => []
  | (now, event) :: calls =>
    (n.sighting? config now event).toList ++ (n.handle config now event).2.sightings config calls

omit [Scalar α] [Geodesy α] in
theorem isAt_of_phase (h : n.phase ≠ .setup) : Outcome.IsAt n.phase n.newest? [] ⟨n, []⟩ := by
  rcases hs : n.session with _ | s
  · simp [phase, hs] at h
  · refine ⟨s, hs, ?_, ?_, rfl⟩
    · simp only [phase, hs, Outcome.dispatch]
    · simp only [newest?, hs, Outcome.dispatch, Option.bind_some]

omit [Scalar α] [Geodesy α] in
theorem phase_of_isAt {o : Outcome α} {phase : Phase} {newest : Option (Sample α)}
    {told : List (Phase × Phase)} (h : o.IsAt phase newest told) :
    o.navigator.phase = phase ∧ o.navigator.newest? = newest ∧ changes o.effects = told := by
  obtain ⟨s, hs, hphase, hnewest, htold⟩ := h
  refine ⟨?_, ?_, htold⟩
  · simp only [Navigator.phase, hs]
    exact hphase
  · simp only [newest?, hs, Option.bind_some]
    exact hnewest

theorem isAt_due (config : Config α) (now : Int) (h : n.phase = .active ∨ n.phase = .arrived) :
    (n.due config now).IsAt n.phase n.newest? [] := by
  have hphase : n.phase ≠ .setup ∧ n.phase ≠ .atStart := by rcases h with h | h <;> simp [h]
  exact Outcome.isAt_runTasks hphase.2 _ ((isAt_of_phase hphase.1).congr rfl rfl)

/-- Without a fix that finds the driver, phase and samples stay as they are. -/
theorem handle_unseen (hphase : n.phase = .active ∨ n.phase = .arrived)
    (hkeeps : ¬ event.Unloads) (hunseen : n.sighting? config now event = none) :
    (n.handle config now event).2.phase = n.phase
      ∧ (n.handle config now event).2.newest? = n.newest?
      ∧ changes (n.answer config now event).effects = [] := by
  have hdue := isAt_due config now hphase
  unfold answer
  rcases handle_cases config n now event with ⟨o, hok, heq⟩ | ⟨refusal, -, heq⟩ <;> rw [heq]
  · refine phase_of_isAt (Outcome.isAt_respond hdue hphase hkeeps (fun fix hfix hcheck => ?_) hok)
    refine hphase.resolve_left fun hactive => ?_
    subst hfix
    obtain ⟨s, hs, hat⟩ := hdue
    have hguiding : s.phase.IsGuiding := .inl (hat.phase.trans hactive)
    simp [sighting?, hs, hguiding, hcheck, heq, Except.isOk, Except.toBool] at hunseen
  · exact ⟨(phase_of_isAt hdue).1, (phase_of_isAt hdue).2.1, rfl⟩

/-- A fix that finds the driver near the route and within reach of the newest sample leaves the
driver under guidance or at the end of the route. -/
theorem Reachable.handle_seen (h : Reachable config n) (hphase : n.phase = .active)
    {seen : Sighting α} (hseen : n.sighting? config now event = some seen)
    (hnear : seen.IsNear config.guidance)
    (hreach : ∀ sample, n.newest? = some sample → sample.LeadsTo config.smoothing seen.sample) :
    (n.handle config now event).2.newest? = some seen.sample
      ∧ ((n.handle config now event).2.phase = .active
          ∧ changes (n.answer config now event).effects = []
        ∨ (n.handle config now event).2.phase = .arrived
          ∧ changes (n.answer config now event).effects = [(.active, .arrived)]) := by
  have hsteady := (Session.isGuided_isSteady config).isInvariant.reachable h
  have hdueSteady : (n.due config now).navigator.Has Session.IsSteady :=
    n.has_due ((Session.isGuided_isSteady config).isInvariant.settle now) hsteady
  obtain ⟨s, hs, hat⟩ := isAt_due config now (.inl hphase)
  rw [hphase] at hat
  unfold answer
  cases event with
  | fix fix =>
    simp only [sighting?, hs] at hseen
    split_ifs at hseen with hgood
    cases hseen
    obtain ⟨-, hcheck, hisOk⟩ := hgood
    have hcheck := Option.isNone_iff_eq_none.1 hcheck
    rcases handle_cases config n now (.fix fix) with ⟨o, hok, heq⟩ | ⟨refusal, -, heq⟩
    · rw [heq]
      have hcovered : ∀ {phase newest told},
          (((n.due config now).dispatch s).applyFix config now fix).IsAt phase newest told →
            o.navigator.phase = phase ∧ o.navigator.newest? = newest
              ∧ changes o.effects = told := by
        intro phase newest told happlied
        refine phase_of_isAt (Outcome.isAt_covered ?_ hcheck hok)
        rw [Outcome.inSession_some hs]
        exact ⟨_, rfl, happlied⟩
      rcases (hat.applyFix (hdueSteady s hs) hnear hreach).imp hcovered hcovered with
        ⟨hphase, hnewest, htold⟩ | ⟨hphase, hnewest, htold⟩
      · exact ⟨hnewest, .inl ⟨hphase, htold⟩⟩
      · exact ⟨hnewest, .inr ⟨hphase, htold⟩⟩
    · simp [heq, Except.isOk, Except.toBool] at hisOk
  | _ => simp [sighting?] at hseen

theorem sighting?_of_arrived (hphase : n.phase = .arrived) (now : Int) (event : Event α) :
    n.sighting? config now event = none := by
  obtain ⟨s, hs, hat⟩ := isAt_due config now (.inr hphase)
  have hno : ¬ s.phase.IsGuiding := by
    rw [show s.phase = .arrived from hat.phase.trans hphase]
    simp [Phase.IsGuiding]
  cases event with
  | fix fix => simp [sighting?, hs, hno]
  | _ => rfl

/-- Changes of phase told in a log of a driver who stays on the route. -/
theorem Reachable.stays_log : ∀ (calls : List (Int × Event α)) {n : Navigator α},
    Reachable config n → n.phase = .active ∨ n.phase = .arrived →
    (∀ call ∈ calls, ¬ call.2.Unloads) →
    (∀ seen ∈ n.sightings config calls, seen.IsNear config.guidance) →
    (n.newest?.toList ++ (n.sightings config calls).map Sighting.sample).IsChain
      (Sample.LeadsTo config.smoothing) →
    (∀ a ∈ n.log config calls, a.navigator.phase = .active ∨ a.navigator.phase = .arrived)
      ∧ (((n.log config calls).flatMap fun a => changes a.effects) = []
          ∧ (n.run config calls).phase = n.phase
        ∨ ((n.log config calls).flatMap fun a => changes a.effects) = [(.active, .arrived)]
          ∧ n.phase = .active ∧ (n.run config calls).phase = .arrived)
  | [], n, _, _, _, _, _ => ⟨by simp [log], .inl ⟨rfl, rfl⟩⟩
  | (now, event) :: calls, n, h, hphase, hkeeps, hnear, hchain => by
    obtain ⟨hkeep, hkeeps⟩ := List.forall_mem_cons.1 hkeeps
    have hrun : n.run config ((now, event) :: calls)
        = (n.handle config now event).2.run config calls := rfl
    rw [hrun, log_cons, List.flatMap_cons, List.forall_mem_cons]
    rcases hseen : n.sighting? config now event with _ | seen <;>
      simp only [sightings, hseen, Option.toList_none, Option.toList_some, List.nil_append,
        List.cons_append, List.forall_mem_cons, List.map_cons] at hnear hchain
    · obtain ⟨hafter, hnewest, htold⟩ := handle_unseen hphase hkeep hseen
      rw [← hnewest] at hchain
      rw [← hafter] at hphase
      obtain ⟨hrest, hend⟩ := stays_log calls (h.handle now event) hphase hkeeps hnear hchain
      refine ⟨⟨hphase, hrest⟩, ?_⟩
      rw [htold, List.nil_append, ← hafter]
      exact hend
    · have hactive : n.phase = .active := by
        refine hphase.resolve_right fun harrived => ?_
        rw [sighting?_of_arrived harrived] at hseen
        cases hseen
      have hreach : ∀ sample, n.newest? = some sample →
          sample.LeadsTo config.smoothing seen.sample := by
        intro sample hsample
        rw [hsample] at hchain
        exact (List.isChain_cons_cons.1 hchain).1
      obtain ⟨hnewest, hmoved⟩ := h.handle_seen hactive hseen hnear.1 hreach
      have hchain := hchain.right_of_append
      have hphase := hmoved.imp And.left And.left
      obtain ⟨hrest, hend⟩ := stays_log calls (h.handle now event) hphase hkeeps hnear.2
        (by rwa [hnewest])
      refine ⟨⟨hphase, hrest⟩, ?_⟩
      rcases hmoved with ⟨hafter, htold⟩ | ⟨hafter, htold⟩ <;> rw [htold]
      · rw [List.nil_append, hactive]
        rwa [hafter] at hend
      · rcases hend with ⟨hquiet, hlast⟩ | ⟨-, hno, -⟩
        · exact .inr ⟨by rw [hquiet, List.append_nil], hactive, hlast.trans hafter⟩
        · exact absurd (hafter.symm.trans hno) (by simp)

/-- As long as every good fix finds a driver under guidance near the route, no further along it than
a vehicle gets from the place before, and so that the time since then fits, the driver stays under
guidance until the end of the route is reached, unless the area is unloaded. -/
theorem Reachable.stays_active {n : Navigator α} (h : Reachable config n)
    (hphase : n.phase = .active) {calls : List (Int × Event α)}
    (hkeeps : ∀ call ∈ calls, ¬ call.2.Unloads)
    (hnear : ∀ seen ∈ n.sightings config calls, seen.IsNear config.guidance)
    (hreach : (n.newest?.toList ++ (n.sightings config calls).map Sighting.sample).IsChain
      (Sample.LeadsTo config.smoothing)) :
    (∀ a ∈ n.log config calls, a.navigator.phase = .active ∨ a.navigator.phase = .arrived)
      ∧ (((n.log config calls).flatMap fun a => changes a.effects) = []
          ∧ (n.run config calls).phase = .active
        ∨ ((n.log config calls).flatMap fun a => changes a.effects) = [(.active, .arrived)]
          ∧ (n.run config calls).phase = .arrived) := by
  obtain ⟨hall, hend⟩ := stays_log calls h (.inl hphase) hkeeps hnear hreach
  rw [hphase] at hend
  exact ⟨hall, hend.imp_right fun ⟨htold, _, hlast⟩ => ⟨htold, hlast⟩⟩

end Navigator

namespace Trial

/-- A driver under guidance at the start of the road. -/
def starting : Navigator ℚ :=
  Navigator.fresh.run .standard
    [(0, .areaLoaded (area "north")), (0, seen 0 0), (0, .begin), (1000, seen 0 1000)]

theorem reachable_starting : Navigator.Reachable .standard starting := .run .fresh _

/-- To the end of the road with few fixes and a long gap between them, in which the signal is
lost. -/
def sparse : List (Int × Event ℚ) :=
  [(12000, seen 3 12000), (13000, seen 9 0), (25000, .tick), (26000, .view ⟨false, true⟩),
    (27000, .flushed "north" true), (60000, seen 8 60000), (70000, .directions 1 none),
    (75000, seen 10 75000), (76000, seen 10 76000), (77000, seen 10 77000), (78000, seen 10 78000),
    (80000, seen 10 80000), (82000, .tick)]

/-- To the start of the road, and a fix there from a moment before the clock came to zero. -/
def early : List (Int × Event ℚ) :=
  [(0, .areaLoaded (area "north")), (0, seen 0 0), (0, .begin), (1000, seen 0 (-1))]

/-- On the road at the last millisecond there is. -/
def latest : List (Int × Event ℚ) := [(twoTo 63 - 1, seen 9 (twoTo 63 - 1))]

end Trial

namespace Navigator

theorem stays_active_sparse :
    (∀ a ∈ Trial.starting.log .standard Trial.sparse,
        a.navigator.phase = .active ∨ a.navigator.phase = .arrived)
      ∧ ((Trial.starting.log .standard Trial.sparse).flatMap fun a => changes a.effects)
          = [(.active, .arrived)] := by
  have hphase : Trial.starting.phase = .active := by decide +kernel
  have hkeeps : ∀ call ∈ Trial.sparse, ¬ call.2.Unloads := by decide +kernel
  have hnear : ∀ seen ∈ Trial.starting.sightings .standard Trial.sparse,
      seen.IsNear Config.standard.guidance := by decide +kernel
  have hreach : (Trial.starting.newest?.toList
      ++ (Trial.starting.sightings .standard Trial.sparse).map Sighting.sample).IsChain
        (Sample.LeadsTo Config.standard.smoothing) := by decide +kernel
  have hlast : (Trial.starting.run .standard Trial.sparse).phase = .arrived := by decide +kernel
  obtain ⟨hall, ⟨-, hactive⟩ | ⟨htold, -⟩⟩ :=
    Reachable.stays_active Trial.reachable_starting hphase hkeeps hnear hreach
  · rw [hlast] at hactive
    cases hactive
  · exact ⟨hall, htold⟩

attribute [local instance] Trial.wrapping

/-- Where the time from one fix to the next overflows, a driver on the road is taken to be off it,
although a vehicle gets that far in the time. -/
theorem strays_on_route : ∃ n, Reachable .standard n ∧ n.phase = .active
    ∧ (∀ call ∈ Trial.latest, ¬ call.2.Unloads)
    ∧ (∀ seen ∈ n.sightings .standard Trial.latest, seen.IsNear Config.standard.guidance)
    ∧ (n.newest?.toList ++ (n.sightings .standard Trial.latest).map Sighting.sample).IsChain
      (Sample.Reaches Config.standard.smoothing)
    ∧ (n.run .standard Trial.latest).phase = .resume :=
  ⟨fresh.run .standard Trial.early, .run .fresh _, by decide +kernel⟩

end Navigator

end Roadbook

import Roadbook.Proofs.Guidance.Directions
import Roadbook.Proofs.Guidance.Offer
import Roadbook.Proofs.Guidance.Punctual
import Roadbook.Proofs.Guidance.Walk

/-!
# When an offer is told of

Nothing but a fix has the driver told of an offer (`Navigator.offers_told`), and a fix does so once
at the most. The driver then is in the phase of an offer, or off the route at once, where there was
nothing to offer (`Navigator.told_fix_cases`). Without an offer nothing leads to that phase
(`Navigator.phase_handle`), and only there is a path to a point on offer shown
(`Navigator.phase_of_told_resume`).
-/

namespace Roadbook

open Effect

variable {α : Type}

/-- The changes to the phase of an offer that effects tell of. -/
def Effect.offers (effects : List (Effect α)) : List (Phase × Phase) :=
  (changes effects).filter fun change => change.2 = .resume

namespace Effect

@[simp] theorem offers_append (effects new : List (Effect α)) :
    offers (effects ++ new) = offers effects ++ offers new := by
  simp only [offers, changes_append, List.filter_append]

theorem offers_congr {effects effects' : List (Effect α)} (h : changes effects' = changes effects) :
    offers effects' = offers effects :=
  congrArg (List.filter _) h

theorem changes_emit {effects : List (Effect α)} {e : Effect α} (he : e.change? = none) :
    changes (effects ++ [e]) = changes effects := by
  rw [changes_append, changes_singleton_of_none he, List.append_nil]

end Effect

namespace Phase

variable [Scalar α]

/-- Only along the route does a fix lead to the phase of an offer. -/
theorem isGuiding_of_next {rules : Config.Guidance α} {reading : Reading α} {p : Phase}
    (h : p.next rules reading = .resume) : p.IsGuiding := by
  cases p with
  | active => exact .inl rfl
  | offRoute => exact .inr (.inl rfl)
  | resume => exact .inr (.inr rfl)
  | toStart =>
    unfold next at h
    dsimp only at h
    split_ifs at h
  | _ => cases h

/-- A walk that ends somewhere else has a last step there. -/
theorem IsWalk.mem_of_ne {step : Phase → Phase → Prop} : ∀ {changes : List (Phase × Phase)}
    {p q : Phase}, IsWalk step p changes q → p ≠ q → ∃ change ∈ changes, change.2 = q
  | [], _, _, h, hne => absurd h hne
  | change :: changes, _, q, ⟨_, _, h⟩, _ => by
    by_cases heq : change.2 = q
    · exact ⟨change, List.mem_cons_self, heq⟩
    · obtain ⟨last, hmem, hlast⟩ := h.mem_of_ne heq
      exact ⟨last, List.mem_cons_of_mem _ hmem, hlast⟩

end Phase

namespace Dispatch

variable {d : Dispatch α}

theorem changes_resolve (id : Nat) (found : Option (List (Point α))) (d : Dispatch α) :
    changes (d.resolve id found).effects = changes d.effects := by
  rcases d.resolve_cases id found with heq | ⟨r, -, -, -, heq⟩ <;> rw [heq]
  exact changes_emit rfl

variable [Scalar α] {config : Config α} {now : Int}

theorem changes_arrange (before : Phase) (d : Dispatch α) :
    changes (d.arrange config now before).effects = changes d.effects := by
  rcases d.arrange_cases config now before with
    ⟨purpose, a, b, -, heq⟩ | ⟨-, heq⟩ | ⟨-, s, -, heq⟩ <;> rw [heq]
  · exact changes_emit rfl
  · rfl

/-- A change of phase is told of, and no other one. -/
theorem changes_transition {phase : Phase} (hne : d.session.phase ≠ phase) :
    changes (d.transition config now phase).effects
      = changes d.effects ++ [(d.session.phase, phase)] := by
  rw [transition_of_ne hne, changes_arrange, entering, changes_append]
  rfl

theorem offers_transition {phase : Phase} (hphase : phase ≠ .resume) :
    offers (d.transition config now phase).effects = offers d.effects := by
  by_cases hne : d.session.phase = phase
  · rw [← hne, transition_self]
  · rw [offers, changes_transition hne, List.filter_append, List.filter_singleton]
    simp [offers, hphase]

theorem offers_finish (d : Dispatch α) :
    offers (d.finish config now).effects = offers d.effects :=
  offers_transition nofun

theorem changes_askForStart (p : Point α) (d : Dispatch α) :
    changes (d.askForStart p).effects = changes d.effects := by
  rcases askForStart_cases d p with heq | ⟨b, -, heq⟩ <;> rw [heq]
  exact changes_emit rfl

/-- Moving on makes one offer at the most. If it does, the phase is that of an offer, or it is
entered and left again. -/
theorem offers_moveOn_cases (phase : Phase) (d : Dispatch α) :
    offers (d.moveOn config now phase).effects = offers d.effects
      ∨ phase = .resume ∧ (∃ p, offers (d.moveOn config now phase).effects
          = offers d.effects ++ [(p, .resume)])
        ∧ ((d.moveOn config now phase).session.phase = .resume
          ∨ (d.moveOn config now phase).session.phase = .offRoute) := by
  have hback : ∀ d : Dispatch α,
      offers (d.transition config now .offRoute).effects = offers d.effects :=
    fun d => offers_transition nofun
  by_cases hphase : phase = .resume
  · subst hphase
    by_cases hsame : d.session.phase = .resume
    · refine .inl ?_
      rw [moveOn, ← hsame, transition_self]
      split_ifs
      · exact hback d
      · rfl
    · have hmoved : offers (d.transition config now .resume).effects
          = offers d.effects ++ [(d.session.phase, .resume)] := by
        rw [offers, changes_transition hsame, List.filter_append]
        rfl
      refine .inr ⟨rfl, ⟨d.session.phase, ?_⟩, ?_⟩ <;> unfold moveOn <;> dsimp only <;> split_ifs
      · rw [hback, hmoved]
      · exact hmoved
      · exact .inr (transition_phase _ _)
      · exact .inl (transition_phase _ _)
  · refine .inl ?_
    unfold moveOn
    dsimp only
    rw [if_neg fun h => hphase ((transition_phase d phase).symm.trans h.1)]
    exact offers_transition hphase

variable [Geodesy α]

theorem changes_announce (config : Config α) (d : Dispatch α) :
    changes (d.announce config).effects = changes d.effects := by
  rcases announce_cases config d with heq | ⟨a, heq⟩ <;> rw [heq]
  exact changes_emit rfl

theorem changes_receive (now : Int) (fix : Fix α) (d : Dispatch α) :
    changes (d.receive now fix).effects = changes d.effects := by
  unfold receive
  dsimp only
  split_ifs
  · exact changes_emit rfl
  · rfl

theorem changes_advance (p : Point α) (time : Int) (d : Dispatch α) :
    changes (d.advance config p time).2.effects = changes d.effects := by
  by_cases hguiding : d.session.phase.IsGuiding
  · rw [advance_of_guiding hguiding]
    rfl
  · rw [advance_of_not_guiding hguiding]
    exact changes_askForStart p d

/-- A fix makes one offer at the most, along the route. -/
theorem offers_applyFix_cases (config : Config α) (now : Int) (fix : Fix α) (d : Dispatch α) :
    offers (d.applyFix config now fix).effects = offers d.effects
      ∨ d.session.phase.IsGuiding
        ∧ (∃ p, offers (d.applyFix config now fix).effects = offers d.effects ++ [(p, .resume)])
        ∧ ((d.applyFix config now fix).session.phase = .resume
          ∨ (d.applyFix config now fix).session.phase = .offRoute) := by
  set received := d.receive now fix
  set advanced := received.advance config fix.point fix.time
  have happly : d.applyFix config now fix
      = ((advanced.2.moveOn config now advanced.1).showPosition fix.point).announce config := rfl
  have htold : offers (d.applyFix config now fix).effects
      = offers (advanced.2.moveOn config now advanced.1).effects := by
    rw [happly]
    exact offers_congr ((changes_announce config _).trans (changes_emit rfl))
  have hbefore : offers advanced.2.effects = offers d.effects :=
    offers_congr ((changes_advance _ _ _).trans (changes_receive now fix d))
  have hphase : (d.applyFix config now fix).session.phase
      = (advanced.2.moveOn config now advanced.1).session.phase := by
    rw [happly]
    exact (sameOffer_announce config _).phase
  rw [htold, hphase, ← hbefore]
  rcases offers_moveOn_cases advanced.1 advanced.2 with hnone | ⟨hresume, honce, hend⟩
  · exact .inl hnone
  · refine .inr ⟨?_, honce, hend⟩
    have hreceived : received.session.phase = d.session.phase := by
      rw [receive_session]
      rfl
    by_contra hno
    have hadvanced := hresume
    rw [← hreceived] at hno
    simp only [advanced, advance_of_not_guiding hno] at hadvanced
    exact hno (Phase.isGuiding_of_next hadvanced)

theorem offers_begin (d : Dispatch α) : offers (d.begin config now).effects = offers d.effects := by
  unfold begin
  by_cases hphase : d.session.phase = .preview
  · rw [if_pos hphase]
    extract_lets phase
    have hbegun : phase ≠ .resume := by
      unfold phase
      split_ifs <;> exact nofun
    exact (offers_congr (changes_announce config _)).trans (offers_transition hbegun)
  · rw [if_neg hphase]

theorem offers_settle (d : Dispatch α) :
    offers (d.settle config now).effects = offers d.effects := by
  unfold settle
  split_ifs
  · exact (offers_congr (changes_announce config _)).trans (offers_transition nofun)
  · rfl

theorem offers_accept (d : Dispatch α) :
    offers (d.accept config now).effects = offers d.effects := by
  unfold accept
  split
  · rename_i m hm
    split_ifs
    · extract_lets resumed shown
      have hresumed : offers resumed.effects = offers d.effects :=
        offers_transition (d := d.withSession (d.session.resumeAt m)) nofun
      have hshown : changes shown.effects = changes resumed.effects := by
        unfold shown
        split
        · exact changes_emit rfl
        · rfl
      exact (offers_congr ((changes_announce config _).trans hshown)).trans hresumed
    · rfl
  · rfl

theorem offers_dismiss (d : Dispatch α) :
    offers (d.dismiss config now).effects = offers d.effects := by
  unfold dismiss
  split_ifs
  · exact (offers_congr (changes_announce config _)).trans (offers_transition nofun)
  · rfl

theorem offers_loseSignal (d : Dispatch α) :
    offers (d.loseSignal config).effects = offers d.effects := by
  unfold loseSignal
  split_ifs
  · exact offers_congr ((changes_announce config _).trans (changes_emit rfl))
  · rfl

theorem offers_checkSignal (d : Dispatch α) :
    offers (d.checkSignal config now).effects = offers d.effects := by
  rcases d.checkSignal_cases config now with heq | heq <;> rw [heq]
  exact offers_loseSignal d

/-- Nothing but a good fix has a session make an offer. -/
theorem offers_does {event : Event α} {operation : Dispatch α → Dispatch α}
    (h : Session.Does config now event operation) (hevent : ∀ fix, event ≠ .fix fix)
    (d : Dispatch α) : offers (operation d).effects = offers d.effects := by
  cases h with
  | fix => exact absurd rfl (hevent _)
  | ignore => exact offers_loseSignal d
  | begin => exact offers_begin d
  | accept => exact offers_accept d
  | dismiss => exact offers_dismiss d
  | resolve id found => exact offers_congr (changes_resolve id found d)
  | flushed | view => rfl
  | tick => exact offers_checkSignal d

end Dispatch

namespace Outcome

variable {o o' : Outcome α}

theorem LeavesSession.offers_eq (h : o.LeavesSession o') :
    offers o'.effects = offers o.effects :=
  offers_congr h.changes_eq

theorem offers_inSession {operation : Dispatch α → Dispatch α}
    (hop : ∀ d, offers (operation d).effects = offers d.effects) (o : Outcome α) :
    offers (o.inSession operation).effects = offers o.effects := by
  rcases hs : o.navigator.session with _ | s
  · rw [inSession_none hs]
  · rw [inSession_some hs]
    exact hop (o.dispatch s)

variable [Scalar α] {config : Config α} {now : Int}

theorem offers_unload (o : Outcome α) :
    offers (o.unload config now).effects = offers o.effects := by
  have hfinished : offers (o.inSession (·.finish config now)).effects = offers o.effects :=
    offers_inSession Dispatch.offers_finish o
  rw [← hfinished]
  rcases drain_cases ((o.inSession (·.finish config now)).withSession none) with
    ⟨heq, -⟩ | ⟨t, -, heq⟩ <;> rw [Outcome.unload, heq]
  · rfl
  · exact offers_congr (changes_emit rfl)

omit [Scalar α] in
theorem offers_load (area : Area α) (ranks : Nat → Nat) (session : Session α) (o : Outcome α) :
    offers (o.load area ranks session).effects = offers o.effects := by
  simp only [load, emit, offers_append, List.append_assoc]
  exact List.append_nil _

theorem offers_replace (area : Area α) (ranks : Nat → Nat) (session : Session α) (o : Outcome α) :
    offers (o.replace config now area ranks session).effects = offers o.effects := by
  unfold replace
  dsimp only
  rw [offers_load]
  split_ifs
  · exact offers_unload o
  · rfl

variable [Geodesy α]

theorem offers_runTasks : ∀ (tasks : List Task) (o : Outcome α),
    offers (tasks.foldl (runTask config now) o).effects = offers o.effects
  | [], _ => rfl
  | .settle :: tasks, o =>
    (offers_runTasks tasks _).trans (offers_inSession Dispatch.offers_settle o)
  | .flush area :: tasks, o =>
    (offers_runTasks tasks _).trans (leavesSession_flush config now o area).offers_eq

theorem offers_respond {event : Event α} (hevent : ∀ fix, event ≠ .fix fix)
    (hok : Navigator.respond config now o event = .ok o') :
    offers o'.effects = offers o.effects := by
  by_cases hunloads : event.Unloads
  · cases event with
    | areaLoaded area ranks =>
      obtain ⟨route, smoother, rfl⟩ := respond_areaLoaded hok
      exact offers_replace area ranks _ o
    | finish =>
      cases hok
      exact offers_unload o
    | _ => exact hunloads.elim
  · obtain ⟨operation, hdoes, hleaves⟩ := respond_does hunloads hok
    exact hleaves.offers_eq.trans (offers_inSession (Dispatch.offers_does hdoes hevent) o)

end Outcome

namespace Navigator

open Outcome Phase

variable [Scalar α] [Geodesy α] {config : Config α} {now : Int} {n : Navigator α}

theorem offers_due (config : Config α) (now : Int) (n : Navigator α) :
    offers (n.due config now).effects = [] :=
  offers_runTasks _ _

/-- Nothing but a fix has the driver told of an offer. -/
theorem offers_told (config : Config α) (n : Navigator α) (now : Int) {event : Event α}
    (hevent : ∀ fix, event ≠ .fix fix) : offers (n.told config now event) = [] := by
  rcases told_cases config n now event with ⟨o, hok, -, htold⟩ | ⟨-, htold⟩ <;> rw [htold]
  · rw [offers_respond hevent hok, offers_due]
  · rfl

/-- A fix makes one offer at the most, not before the driver has begun. It leaves the driver in the
phase of an offer, or off the route. -/
theorem told_fix_cases (config : Config α) (n : Navigator α) (now : Int) (fix : Fix α) :
    offers (n.told config now (.fix fix)) = []
      ∨ n.phase ≠ .preview ∧ (∃ p, offers (n.told config now (.fix fix)) = [(p, .resume)])
        ∧ ((n.handle config now (.fix fix)).2.phase = .resume
          ∨ (n.handle config now (.fix fix)).2.phase = .offRoute) := by
  rcases told_cases config n now (.fix fix) with ⟨o, hok, hn, htold⟩ | ⟨-, htold⟩ <;> rw [htold]
  · rw [hn]
    obtain ⟨operation, hdoes, hleaves⟩ := respond_does id hok
    rw [hleaves.offers_eq]
    have hphase : o.navigator.phase
        = ((n.due config now).inSession operation).navigator.phase := by
      simp only [phase, hleaves.session]
    rw [hphase]
    cases hdoes with
    | ignore =>
      rw [offers_inSession Dispatch.offers_loseSignal]
      exact .inl (offers_due config now n)
    | fix =>
      rcases hs : (n.due config now).navigator.session with _ | s
      · rw [inSession_none hs]
        exact .inl (offers_due config now n)
      · rw [inSession_some hs]
        have hdue : offers ((n.due config now).dispatch s).effects = [] := offers_due config now n
        rcases ((n.due config now).dispatch s).offers_applyFix_cases config now fix with
          hnone | ⟨hguiding, ⟨p, honce⟩, hend⟩
        · exact .inl (hnone.trans hdue)
        · rw [hdue, List.nil_append] at honce
          refine .inr ⟨fun hpreview => ?_, ⟨p, honce⟩, hend⟩
          obtain ⟨s₀, hs₀, hphase₀⟩ : ∃ s₀, n.session = some s₀ ∧ s₀.phase = .preview := by
            unfold phase at hpreview
            split at hpreview
            · rename_i s₀ hs₀
              exact ⟨s₀, hs₀, hpreview⟩
            · cases hpreview
          obtain rfl := Option.some.inj
            (hs.symm.trans (session_due hs₀ (by simp [hphase₀])))
          have hguides : s.phase.IsGuiding := hguiding
          rw [hphase₀] at hguides
          simp [IsGuiding] at hguides
  · exact .inl rfl

omit [Scalar α] [Geodesy α] in
theorem phase_ne_of_has {p : Phase} (hp : p ≠ .setup) (h : n.Has fun s => s.phase ≠ p) :
    n.phase ≠ p := by
  unfold phase
  split
  · rename_i s hs
    exact h s hs
  · exact hp.symm

/-- Without an offer no call leads to the phase of one. -/
theorem phase_handle {event : Event α} (hphase : n.phase ≠ .resume)
    (hnone : offers (n.told config now event) = []) :
    (n.handle config now event).2.phase ≠ .resume := by
  rcases handle_cases config n now event with ⟨o, -, heq⟩ | ⟨refusal, -, heq⟩
  · intro hresume
    have hwalk := walk_handle heq
    rw [heq] at hresume
    have htold : n.told config now event = o.effects := by simp only [told, heq]
    obtain ⟨change, hmem, hchange⟩ := hwalk.mem_of_ne (hresume ▸ hphase)
    rw [htold, offers, List.filter_eq_nil_iff] at hnone
    exact hnone change hmem (decide_eq_true (hchange.trans hresume))
  · rw [heq]
    exact phase_ne_of_has nofun (phase_due config now hphase)

/-- A path to a point on offer is shown in the phase of an offer only. -/
theorem phase_of_told_resume (hp : n.IsPaired) {event : Event α} {line : List (Point α)}
    {straight : Bool} (h : .guidancePath .resume line straight ∈ n.told config now event) :
    n.phase = .resume := by
  by_contra hphase
  have hdirections : event.isDirections = true := by
    by_contra hother
    have hno := unguided_told hp (by simpa using hother) _ h
    cases hno
  cases event with
  | directions id found =>
    have htold : n.told config now (.directions id found)
        = ((n.due config now).inSession (·.resolve id found)).effects := rfl
    have hdue := n.isUnguided_due config now
    rw [htold] at h
    rcases hs : (n.due config now).navigator.session with _ | s
    · rw [inSession_none hs] at h
      cases hdue _ h
    · rw [inSession_some hs] at h
      rcases ((n.due config now).dispatch s).resolve_cases id found with
        heq | ⟨r, -, -, hat, heq⟩ <;> rw [heq] at h
      · cases hdue _ h
      · rcases List.mem_append.1 h with hmem | hmem
        · cases hdue _ hmem
        · -- the path is for a request, and that is of use in its own phase alone
          have hpurpose : Purpose.resume = r.purpose :=
            (Effect.guidancePath.inj (List.mem_singleton.1 hmem)).1
          rw [← hpurpose] at hat
          exact phase_due config now hphase s hs hat
  | _ => cases hdirections

/-- Accepting changes nothing but what is due by then anyway. -/
theorem handle_acceptOffer_of_ne (config : Config α) (now : Int) (hphase : n.phase ≠ .resume) :
    n.handle config now .acceptOffer
      = (.ok (n.due config now).effects, (n.due config now).navigator) := by
  have haccept := inSession_of_has (phase_due config now hphase) fun d => d.accept_of_ne config now
  simp only [Navigator.handle, respond, haccept]

theorem due_of_later (config : Config α) (h : ∀ t ∈ n.timers.toList, now < t.due) :
    n.due config now = ⟨n, []⟩ := by
  unfold due Outcome.runDue
  dsimp only
  rw [Timers.popDue_of_later h]
  rfl

/-- When batches are put off at all, none is due right after a call in which nothing overflows, and
at no time is the driver settling unless at the start. -/
theorem due_after_handle (h : Reachable config n) (hquiet : 0 < config.coverage.quiet)
    {event : Event α} (hrange : ¬ n.Overflows config now event)
    (hphase : (n.handle config now event).2.phase ≠ .atStart) :
    (n.handle config now event).2.due config now = ⟨(n.handle config now event).2, []⟩ := by
  refine due_of_later config fun t ht => ?_
  rcases due_of_not_overflows hrange ht with ⟨-, hlater⟩ | hnew
  · exact hlater
  obtain ⟨due, task⟩ := t
  cases task with
  | settle =>
    have hscheduled : (n.handle config now event).2.timers.isScheduled .settle = true :=
      Timers.isScheduled_iff.2 ⟨_, ht, rfl⟩
    exact absurd (((h.handle now event).aligned.needed .settle).1 (.inl hscheduled)) hphase
  | flush area =>
    rw [show due = now + config.coverage.quiet from hnew]
    exact Int.lt_add_of_pos_right now hquiet

end Navigator

end Roadbook

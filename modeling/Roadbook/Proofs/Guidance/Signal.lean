import Roadbook.Proofs.Coverage.Survey
import Roadbook.Proofs.Guidance.Reckoning
import Roadbook.Proofs.Guidance.Telling

/-!
# The signal

The driver is told in turn that the signal is gone and that it is back, and a session knows which of
these was told last (`Session.Hears`). A sign of life is a good fix, or that the driver begins
(`Event.sign?`). Only where fixes are expected is the signal missed: at a bad fix, and at a tick
when the last sign of life is too old (`Navigator.Reachable.keeps_signal`).
-/

namespace Roadbook

/-- The time of a good fix, or of the driver's beginning. -/
def Event.sign? {α : Type} [Scalar α] (config : Config α) (now : Int) (phase : Phase) :
    Event α → Option Int
  | .fix f =>
    if f.check now config.guidance.maxAge config.guidance.maxAccuracy = none then some now
    else none
  | .begin => if phase = .preview then some now else none
  | _ => none

variable {α : Type}

namespace Effect

/-- Whether the signal is gone, from an effect that tells of it. -/
def lost? : Effect α → Option Bool
  | .signalLost => some true
  | .signalRestored => some false
  | _ => none

/-- Whether the signal was gone, each time it was told. -/
def signals (effects : List (Effect α)) : List Bool := effects.filterMap lost?

theorem signals_append (effects new : List (Effect α)) :
    signals (effects ++ new) = signals effects ++ signals new :=
  List.filterMap_append

theorem lost?_of_isMute {e : Effect α} (h : e.IsMute) : e.lost? = none := by
  cases e <;> first | rfl | exact h.elim

end Effect

open Effect

namespace Session

/-- The signal, there at first, has been told to be gone and back in turn, and what was told last
holds. -/
def Hears (s : Session α) (told : List (Effect α)) : Prop :=
  Turns (false :: signals told) (some s.waiting)

/-- The signal is missed only where fixes are expected. -/
def IsListening (s : Session α) : Prop := s.waiting = true → s.ExpectsFixes

variable {s t : Session α} {told told' : List (Effect α)}

theorem Hears.congr (h : s.Hears told) (hwaiting : t.waiting = s.waiting)
    (htold : signals told' = signals told) : t.Hears told' := by
  unfold Hears
  rw [hwaiting, htold]
  exact h

theorem Hears.mute (h : s.Hears told) {new : List (Effect α)} (hnew : ∀ e ∈ new, e.IsMute) :
    s.Hears (told ++ new) :=
  h.congr rfl (filterMap_mute (fun _ => lost?_of_isMute) hnew)

/-- Word of the signal is of another kind than the one before. -/
theorem Hears.turn (h : s.Hears told) {e : Effect α} (he : e.lost? = some t.waiting)
    (hturn : s.waiting ≠ t.waiting) : t.Hears (told ++ [e]) := by
  have hnew : signals [e] = [t.waiting] := List.filterMap_cons_some he
  unfold Hears
  rw [signals_append, hnew]
  exact Turns.concat h fun hsame => hturn (Option.some.inj hsame)

theorem Hears.waiting_iff (h : s.Hears told) :
    s.waiting = true ↔ (signals told).getLast? = some true := by
  have hlast := h.last
  rcases hsignals : (signals told).getLast? with _ | b
  · rw [List.getLast?_eq_none_iff.1 hsignals] at hlast
    simp [← Option.some.inj hlast]
  · rw [List.getLast?_cons, hsignals] at hlast
    simp [← Option.some.inj hlast]

theorem expectsFixes_iff :
    s.ExpectsFixes ↔ s.phase ∈ [.toStart, .atStart, .active, .offRoute, .resume] := by
  unfold ExpectsFixes Phase.IsUnderway
  cases s.phase <;> simp

end Session

namespace Dispatch

open Session

variable {told : List (Effect α)} {d d' : Dispatch α}

theorem Mutes.hears (h : d.Mutes d') (hears : d.session.Hears (told ++ d.effects)) :
    d'.session.Hears (told ++ d'.effects) := by
  obtain ⟨new, heffects, hmute⟩ := h.effects
  rw [heffects, ← List.append_assoc]
  exact (hears.mute hmute).congr h.waiting rfl

variable [Scalar α] [Geodesy α] {config : Config α} {now : Int}

theorem announce_waiting (config : Config α) (d : Dispatch α) :
    (d.announce config).session.waiting = d.session.waiting := by
  rcases announce_cases config d with heq | ⟨a, heq⟩ <;> rw [heq]
  rfl

theorem announce_lastSignal (config : Config α) (d : Dispatch α) :
    (d.announce config).session.lastSignal = d.session.lastSignal := by
  rcases announce_cases config d with heq | ⟨a, heq⟩ <;> rw [heq]
  rfl

theorem loseSignal_lastSignal (config : Config α) (d : Dispatch α) :
    (d.loseSignal config).session.lastSignal = d.session.lastSignal := by
  unfold loseSignal
  split_ifs
  · exact announce_lastSignal config _
  · rfl

theorem announce_signals (config : Config α) (d : Dispatch α) :
    signals (d.announce config).effects = signals d.effects := by
  rcases announce_cases config d with heq | ⟨a, heq⟩ <;> rw [heq]
  exact (signals_append _ _).trans (List.append_nil _)

theorem Announces.waiting (h : d.Announces config d') :
    d'.session.waiting = d.session.waiting := by
  obtain ⟨b, hmutes, rfl⟩ := h
  exact (announce_waiting config b).trans hmutes.waiting

theorem Announces.lastSignal (h : d.Announces config d') :
    d'.session.lastSignal = d.session.lastSignal := by
  obtain ⟨b, hmutes, rfl⟩ := h
  exact (announce_lastSignal config b).trans hmutes.lastSignal

theorem Announces.hears (h : d.Announces config d') (hears : d.session.Hears (told ++ d.effects)) :
    d'.session.Hears (told ++ d'.effects) := by
  obtain ⟨b, hmutes, rfl⟩ := h
  refine (hmutes.hears hears).congr (announce_waiting config b) ?_
  rw [signals_append, signals_append, announce_signals]

/-- After a fix the signal is there, and the driver is told so if it was gone. -/
theorem hears_receive (hears : d.session.Hears (told ++ d.effects)) (fix : Fix α) :
    (d.receive now fix).session.Hears (told ++ (d.receive now fix).effects) := by
  unfold receive
  dsimp only
  split_ifs with hwaiting
  · rw [emit, ← List.append_assoc]
    exact hears.turn rfl (by simp [withSession, Session.withFix, hwaiting])
  · exact hears.congr (by simp [withSession, Session.withFix, hwaiting]) rfl

end Dispatch

namespace Session

variable [Scalar α] [Geodesy α] {config : Config α} {now : Int}

/-- What has been told of the signal goes on to be right. -/
theorem tells_hears (config : Config α) (told : List (Effect α)) :
    Tells config (fun s effects => s.Hears (told ++ effects))
      fun s effects => s.Hears (told ++ effects) where
  announces hannounces h := hannounces.hears h
  beside he h := by
    rw [← List.append_assoc]
    exact h.mute (List.forall_mem_singleton.2 he.isMute)
  resolve id found d h := (d.mutes_resolve id found).hears h
  silence h := h
  begins now s effects h := h.congr rfl rfl
  loses {s effects} h hthere := by
    rw [← List.append_assoc]
    exact h.turn rfl (by simp [hthere])
  receives now fix d h := Dispatch.hears_receive h fix

omit [Scalar α] [Geodesy α] in
theorem isListening_of_phase {s : Session α}
    (h : s.phase ∈ [.toStart, .atStart, .active, .offRoute, .resume]) : s.IsListening :=
  fun _ => expectsFixes_iff.2 h

theorem isInvariant_isListening (config : Config α) : IsInvariant config IsListening where
  start _ _ _ := nofun
  applyFix {now fix} d _ _ := by
    have hthere := (d.announces_applyFix config now fix).waiting
    rw [Dispatch.receive_session] at hthere
    intro hwaiting
    cases hthere.symm.trans hwaiting
  begin now d h := by
    by_cases hphase : d.session.phase = .preview
    · -- nothing is expected in the preview, so the signal is not missed there
      have hkept : (d.begin config now).session.waiting = d.session.waiting :=
        (Dispatch.announces_begin hphase).waiting
      intro hwaiting
      exact absurd hphase (h (hkept.symm.trans hwaiting)).1.2
    · rwa [Dispatch.begin_of_ne hphase]
  settle now d h := by
    unfold Dispatch.settle
    split_ifs
    · refine isListening_of_phase ?_
      rw [(Dispatch.sameCourse_announce config _).phase, Dispatch.transition_phase]
      decide
    · exact h
  accept now d h := by
    by_cases hphase : d.session.phase = .resume
    · rcases hm : d.session.offer with _ | m
      · unfold Dispatch.accept
        rwa [hm]
      · obtain ⟨hactive, -⟩ := Dispatch.accept_cases config now hm hphase
        exact isListening_of_phase (by simp [hactive])
    · rwa [d.accept_of_ne config now hphase]
  dismiss now d h := by
    unfold Dispatch.dismiss
    split_ifs
    · refine isListening_of_phase ?_
      rw [(Dispatch.sameCourse_announce config _).phase, Dispatch.transition_phase]
      decide
    · exact h
  resolve id found d h := by
    have hmutes := d.mutes_resolve id found
    intro hwaiting
    have hexpects := h (hmutes.waiting.symm.trans hwaiting)
    unfold ExpectsFixes at hexpects ⊢
    rwa [(d.sameCourse_resolve id found).phase]
  loseSignal d h := by
    have hphase := (d.sameCourse_loseSignal config).phase
    by_cases hlost : d.session.CanLose
    · intro _
      unfold ExpectsFixes
      rw [hphase]
      exact hlost.2
    · rwa [Dispatch.loseSignal_of_not hlost]

/-- The last sign of life is that of an event, if it is one. -/
theorem Does.lastSignal {event : Event α} {operation : Dispatch α → Dispatch α}
    (h : Does config now event operation) (d : Dispatch α) :
    (operation d).session.lastSignal
      = (event.sign? config now d.session.phase).or d.session.lastSignal := by
  cases h with
  | @fix fix hgood =>
    rw [(d.announces_applyFix config now fix).lastSignal, Dispatch.receive_session]
    simp only [Event.sign?, hgood, if_true, Option.some_or]
    rfl
  | ignore hbad =>
    simp only [Event.sign?, hbad, if_false, Option.none_or]
    exact Dispatch.loseSignal_lastSignal config d
  | begin =>
    by_cases hphase : d.session.phase = .preview
    · rw [(Dispatch.announces_begin hphase).lastSignal]
      simp only [Event.sign?, hphase, if_true, Option.some_or]
      rfl
    · simp only [Event.sign?, hphase, if_false, Option.none_or]
      rw [Dispatch.begin_of_ne hphase]
  | accept =>
    rcases d.announces_accept config now with heq | hannounces
    · exact congrArg (·.session.lastSignal) heq
    · exact hannounces.lastSignal
  | dismiss =>
    rcases d.announces_dismiss config now with heq | hannounces
    · exact congrArg (·.session.lastSignal) heq
    · exact hannounces.lastSignal
  | resolve id found => exact (d.mutes_resolve id found).lastSignal
  | flushed | view => rfl
  | tick =>
    show (d.checkSignal config now).session.lastSignal = d.session.lastSignal
    rcases d.checkSignal_cases config now with heq | heq <;> rw [heq]
    exact Dispatch.loseSignal_lastSignal config d

omit [Scalar α] [Geodesy α] in
theorem expectsFixes_congr {s t : Session α} (h : s.phase = t.phase) :
    s.ExpectsFixes ↔ t.ExpectsFixes := by
  rw [expectsFixes_iff, h, ← expectsFixes_iff]

theorem waiting_loseSignal (config : Config α) (d : Dispatch α) :
    (d.loseSignal config).session.waiting = true
      ↔ d.session.waiting = true ∨ d.session.ExpectsFixes := by
  by_cases hlost : d.session.CanLose
  · rw [(Dispatch.announces_loseSignal hlost).waiting]
    exact iff_of_true rfl (.inr hlost.2)
  · rw [Dispatch.loseSignal_of_not hlost]
    refine ⟨.inl, fun h => h.elim id fun hexpects => ?_⟩
    by_contra hthere
    exact hlost ⟨Bool.eq_false_of_not_eq_true hthere, hexpects⟩

theorem waiting_checkSignal {d : Dispatch α} (h : d.session.IsListening) :
    (d.checkSignal config now).session.waiting = true
      ↔ (d.checkSignal config now).session.ExpectsFixes
        ∧ (d.session.waiting = true ∨ d.session.IsLate config now) := by
  by_cases hlate : d.session.IsLate config now
  · rw [Dispatch.checkSignal_of_late hlate, waiting_loseSignal,
      expectsFixes_congr (d.sameCourse_loseSignal config).phase]
    exact ⟨fun hwaiting => ⟨hwaiting.elim h id, .inr hlate⟩, fun hexpects => .inr hexpects.1⟩
  · rw [Dispatch.checkSignal_of_not_late hlate, or_iff_left hlate]
    exact ⟨fun hwaiting => ⟨h hwaiting, hwaiting⟩, And.right⟩

/-- The tasks that are due are no sign of life, and they leave a session waiting or not. -/
structure Keeps (s t : Session α) : Prop where
  lastSignal : t.lastSignal = s.lastSignal
  waiting : t.waiting = s.waiting
  preview : t.phase = .preview ↔ s.phase = .preview

theorem waits_keeps (config : Config α) (s : Session α) : Waits config fun t _ => s.Keeps t where
  beside _ h := h
  settle now d h := by
    by_cases hphase : d.session.phase = .atStart
    · rcases d.announces_settle config now with heq | hannounces
      · rwa [heq]
      have hactive : (d.settle config now).session.phase = .active := by
        unfold Dispatch.settle
        rw [if_pos hphase, (Dispatch.sameCourse_announce config _).phase,
          Dispatch.transition_phase]
      refine ⟨hannounces.lastSignal.trans h.lastSignal, hannounces.waiting.trans h.waiting, ?_⟩
      rw [hactive, ← h.preview, hphase]
      simp
    · have hsame : d.settle config now = d := if_neg hphase
      rwa [hsame]

theorem keeps_due {n : Navigator α} {s : Session α} (hs : n.session = some s) (config : Config α)
    (now : Int) : ∃ t, (n.due config now).navigator.session = some t ∧ s.Keeps t :=
  (waits_keeps config s).due hs ⟨rfl, rfl, Iff.rfl⟩

end Session

variable [Scalar α] [Geodesy α] {config : Config α} {now : Int}

omit [Geodesy α] in
theorem Event.sign?_congr {p q : Phase} (h : p = .preview ↔ q = .preview) (event : Event α) :
    event.sign? config now p = event.sign? config now q := by
  cases event with
  | begin => simp only [Event.sign?, h]
  | _ => rfl

namespace Outcome

theorem signals_runTasks : ∀ (tasks : List Task) {o : Outcome α}, signals o.effects = [] →
    signals (tasks.foldl (runTask config now) o).effects = []
  | [], _, h => h
  | .settle :: tasks, o, h => by
    refine signals_runTasks tasks ?_
    show signals (o.inSession (·.settle config now)).effects = []
    rcases hs : o.navigator.session with _ | s
    · rwa [inSession_none hs]
    · rw [inSession_some hs]
      rcases (o.dispatch s).announces_settle config now with heq | ⟨b, hmutes, heq⟩ <;> rw [heq]
      · exact h
      · obtain ⟨new, heffects, hmute⟩ := hmutes.effects
        show signals (b.announce config).effects = []
        rw [Dispatch.announce_signals, heffects, signals,
          filterMap_mute (fun _ => lost?_of_isMute) hmute]
        exact h
  | .flush area :: tasks, o, h => by
    refine signals_runTasks tasks ?_
    obtain ⟨new, heffects, hbeside⟩ := (leavesSession_flush config now o area).effects
    show signals (o.flush config now area).effects = []
    rw [heffects, signals,
      filterMap_mute (fun _ => lost?_of_isMute) fun e he => (hbeside e he).isMute]
    exact h

end Outcome

namespace Navigator

variable {n n' : Navigator α} {effects : List (Effect α)} {event : Event α} {s : Session α}

/-- The times of the signs of life in some calls. -/
def signs (config : Config α) (n : Navigator α) : List (Int × Event α) → List Int
  | [] => []
  | (now, event) :: calls =>
    (event.sign? config now n.phase).toList ++ (n.handle config now event).2.signs config calls

/-- Nothing is told of the signal where an area is unloaded. -/
theorem Reachable.signals_unloads (h : Reachable config n) (hunloads : event.Unloads)
    (hok : n.handle config now event = (.ok effects, n')) : signals effects = [] := by
  obtain ⟨new, rfl, hmute⟩ := h.mutes_unloads hunloads hok
  rw [signals, filterMap_mute (fun _ => lost?_of_isMute) hmute]
  exact Outcome.signals_runTasks _ rfl

theorem lastSignal_handle (hs : n.session = some s) (hkeeps : ¬ event.Unloads)
    (hok : n.handle config now event = (.ok effects, n')) :
    ∃ t, n'.session = some t
      ∧ t.lastSignal = (event.sign? config now n.phase).or s.lastSignal := by
  have hphase : n.phase = s.phase := by simp only [phase, hs]
  rcases n.handle_cases config now event with ⟨o, hresponse, heq⟩ | ⟨_, _, heq⟩ <;>
    cases heq.symm.trans hok
  obtain ⟨s₁, hs₁, hkept⟩ := Session.keeps_due hs config now
  obtain ⟨operation, hdoes, hleaves⟩ := Outcome.respond_does hkeeps hresponse
  rw [hleaves.session, Outcome.inSession_some hs₁]
  refine ⟨_, rfl, ?_⟩
  rw [hphase, ← event.sign?_congr hkept.preview, ← hkept.lastSignal]
  exact hdoes.lastSignal ((n.due config now).dispatch s₁)

/-- The last sign of life is known as long as the area stays loaded. -/
theorem lastSignal_run : ∀ (calls : List (Int × Event α)) {n : Navigator α} {s : Session α},
    n.session = some s → (∀ a ∈ n.log config calls, ¬ a.Unloads) →
      (∀ a ∈ n.log config calls, a.result.isOk = true) →
        ∃ t, (n.run config calls).session = some t
          ∧ t.lastSignal = (s.lastSignal.toList ++ n.signs config calls).getLast?
  | [], n, s, hs, _, _ => by
    refine ⟨s, hs, ?_⟩
    rcases s.lastSignal with _ | last <;> rfl
  | (now, event) :: calls, n, s, hs, hkeeps, hok => by
    rcases hhandle : n.handle config now event with ⟨result, n'⟩
    simp only [log, hhandle, List.forall_mem_cons] at hkeeps hok
    rcases result with _ | effects
    · cases hok.1
    have hkeep : ¬ event.Unloads := fun hunloads => hkeeps.1 ⟨hunloads, rfl⟩
    obtain ⟨s', hs', hlast⟩ := lastSignal_handle hs hkeep hhandle
    obtain ⟨t, ht, hrest⟩ := lastSignal_run calls hs' hkeeps.2 hok.2
    rw [run_cons, hhandle]
    refine ⟨t, ht, hrest.trans ?_⟩
    simp only [signs, hhandle, hlast, List.getLast?_append]
    rcases event.sign? config now n.phase with _ | now' <;>
      rcases s.lastSignal with _ | last <;> simp

theorem waiting_of_fix (hs : n.session = some s) {fix : Fix α}
    (hgood : fix.check now config.guidance.maxAge config.guidance.maxAccuracy = none)
    (hok : n.handle config now (.fix fix) = (.ok effects, n')) :
    ∃ t, n'.session = some t ∧ t.waiting = false := by
  obtain ⟨s₁, hs₁, -⟩ := Session.keeps_due hs config now
  have hkeeps : ¬ (Event.fix fix).Unloads := id
  rcases n.handle_cases config now (.fix fix) with ⟨o, hresponse, heq⟩ | ⟨_, _, heq⟩ <;>
    cases heq.symm.trans hok
  obtain ⟨operation, hdoes, hleaves⟩ := Outcome.respond_does hkeeps hresponse
  rw [hleaves.session, Outcome.inSession_some hs₁]
  refine ⟨_, rfl, ?_⟩
  cases hdoes with
  | fix =>
    refine (Dispatch.announces_applyFix config now fix _).waiting.trans ?_
    rw [Dispatch.receive_session]
    rfl
  | ignore hbad => exact absurd hgood hbad

/-- After a tick the signal is missed just where fixes are expected, and it has been missed before
or the last sign of life is too old, as far as its age is kept. -/
theorem Reachable.waiting_tick (h : Reachable config n) (hs : n.session = some s) (later : Int) :
    ∃ t, (n.handle config later .tick).2.session = some t
      ∧ (t.waiting = true ↔ t.ExpectsFixes ∧ (s.waiting = true
        ∨ ∃ last, s.lastSignal = some last
          ∧ config.guidance.signalTimeout < Scalar.wrap α (later - last))) := by
  obtain ⟨s₁, hs₁, hkept⟩ := Session.keeps_due hs config later
  have hlistens : s₁.IsListening :=
    (n.has_due ((Session.isInvariant_isListening config).settle later)
      ((Session.isInvariant_isListening config).reachable h)) s₁ hs₁
  refine ⟨(((n.due config later).dispatch s₁).checkSignal config later).session, ?_, ?_⟩
  · show ((n.due config later).inSession _).navigator.session = _
    rw [Outcome.inSession_some hs₁]
    rfl
  · rw [← hkept.waiting, ← hkept.lastSignal]
    exact Session.waiting_checkSignal (d := (n.due config later).dispatch s₁) hlistens

/-- From the loading of an area on the driver is told in turn that the signal is gone and that it is
back, and the session is waiting just after the former. It waits in no phase but those in which
fixes are expected, until the next good fix. A tick has it wait if it did so before, or if the last
sign of life, whose age fits, is older than the timeout. -/
theorem Reachable.keeps_signal (h : Reachable config n) {area : Area α} {ranks : Nat → Nat}
    {shown : List (Effect α)} {n₀ : Navigator α}
    (hload : n.handle config now (.areaLoaded area ranks) = (.ok shown, n₀))
    {calls : List (Int × Event α)} (hkeeps : ∀ a ∈ n₀.log config calls, ¬ a.Unloads)
    (hok : ∀ a ∈ n₀.log config calls, a.result.isOk = true) :
    ∃ s, (n₀.run config calls).session = some s
      ∧ (false :: signals (shown ++ (n₀.log config calls).flatMap Answer.effects)).IsChain (· ≠ ·)
      ∧ (s.waiting = true ↔
        (signals (shown ++ (n₀.log config calls).flatMap Answer.effects)).getLast? = some true)
      ∧ (s.waiting = true → s.phase ∈ [.toStart, .atStart, .active, .offRoute, .resume])
      ∧ (∀ later fix told n', (n₀.run config calls).handle config later (.fix fix) = (.ok told, n') →
        fix.check later config.guidance.maxAge config.guidance.maxAccuracy = none →
          ∃ t, n'.session = some t ∧ t.waiting = false)
      ∧ (∀ later, (∀ last, (n₀.signs config calls).getLast? = some last →
          Scalar.Fits α (later - last)) →
        ∃ t, ((n₀.run config calls).handle config later .tick).2.session = some t
          ∧ (t.waiting = true ↔ t.phase ∈ [.toStart, .atStart, .active, .offRoute, .resume]
            ∧ (s.waiting = true ∨ ∃ last, (n₀.signs config calls).getLast? = some last
              ∧ config.guidance.signalTimeout < later - last)))
      ∧ ∀ later event told n', event.Unloads →
        (n₀.run config calls).handle config later event = (.ok told, n') → signals told = [] := by
  obtain ⟨s₀, hs₀, hthere, hno⟩ : ∃ s₀, n₀.session = some s₀ ∧ s₀.Hears shown
      ∧ s₀.lastSignal = none := by
    have hunloads : (Event.areaLoaded area ranks).Unloads := trivial
    have hquiet : signals shown = [] := h.signals_unloads hunloads hload
    obtain ⟨route, -, rfl⟩ := h.of_load hload
    refine ⟨_, rfl, ?_, rfl⟩
    unfold Session.Hears
    rw [hquiet]
    exact ⟨.singleton _, rfl⟩
  have hreach : Reachable config (n₀.run config calls) := by
    have hloaded := h.handle now (.areaLoaded area ranks)
    rw [hload] at hloaded
    exact hloaded.run calls
  obtain ⟨s, hs, hears⟩ := Session.Tells.run (Session.tells_hears config) calls hs₀ hthere hkeeps hok
  obtain ⟨s', hs', hlast⟩ := lastSignal_run calls hs₀ hkeeps hok
  obtain rfl := Option.some.inj (hs'.symm.trans hs)
  rw [hno, Option.toList_none, List.nil_append] at hlast
  refine ⟨s', hs, hears.chain, hears.waiting_iff, fun hwaiting => ?_, ?_, fun later hfits => ?_, ?_⟩
  · exact Session.expectsFixes_iff.1
      ((Session.isInvariant_isListening config).reachable hreach s' hs hwaiting)
  · intro later fix told n' hfix hgood
    exact waiting_of_fix hs hgood hfix
  · rw [← hlast] at hfits ⊢
    obtain ⟨t, ht, hwaiting⟩ := hreach.waiting_tick hs later
    refine ⟨t, ht, hwaiting.trans (and_congr Session.expectsFixes_iff (or_congr_right ?_))⟩
    refine exists_congr fun last => and_congr_right fun hold => ?_
    rw [hfits last hold]
  · intro later event told n' hunloads htold
    exact hreach.signals_unloads hunloads htold

end Navigator

namespace Trial

/-- Through a tunnel: the signal is lost at a fix that is none, is back at a good one on the road,
and is lost again for a long time. -/
def tunnel : List (Int × Event ℚ) :=
  [(0, seen 0 0), (0, .begin), (500, seen 100000 500), (1000, .tick), (1500, seen 1 1500),
    (11500, .tick), (11501, .tick)]

/-- To the start of the road, a moment before the clock comes to zero. -/
def ancient : List (Int × Event ℚ) := [(-1, seen 0 (-1)), (-1, .begin)]

end Trial

namespace Navigator

theorem keeps_signal_tunnel : ∃ s shown,
    fresh.handle .standard 0 (.areaLoaded (Trial.area "north")) = (.ok shown, Trial.loaded)
      ∧ (Trial.loaded.run .standard Trial.tunnel).session = some s
      ∧ signals (shown ++ (Trial.loaded.log .standard Trial.tunnel).flatMap Answer.effects)
        = [true, false, true]
      ∧ s.waiting = true
      ∧ ∃ t, ((Trial.loaded.run .standard Trial.tunnel).handle .standard 11502 .tick).2.session
          = some t
        ∧ (t.waiting = true ↔ t.phase ∈ [.toStart, .atStart, .active, .offRoute, .resume]) := by
  obtain ⟨shown, hload⟩ := Trial.load_north
  have hkeeps : ∀ a ∈ Trial.loaded.log .standard Trial.tunnel, ¬ a.Unloads := by decide +kernel
  have hok : ∀ a ∈ Trial.loaded.log .standard Trial.tunnel, a.result.isOk = true := by
    decide +kernel
  obtain ⟨s, hs, -, hwaiting, -, -, htick, -⟩ :=
    Reachable.keeps_signal Reachable.fresh hload hkeeps hok
  have hunloads : (Event.areaLoaded (Trial.area "north")).Unloads := trivial
  have hquiet : signals shown = [] := Reachable.fresh.signals_unloads hunloads hload
  have htold : signals (shown ++ (Trial.loaded.log .standard Trial.tunnel).flatMap Answer.effects)
      = [true, false, true] := by
    rw [signals_append, hquiet]
    decide +kernel
  rw [htold] at hwaiting
  obtain ⟨t, ht, hmissed⟩ := htick 11502 fun _ _ => rfl
  exact ⟨s, shown, hload, hs, htold, hwaiting.2 rfl, t, ht,
    hmissed.trans (and_iff_left (.inl (hwaiting.2 rfl)))⟩

attribute [local instance] Trial.wrapping

/-- Where the age of the last sign of life overflows the signal is not missed, however old. -/
theorem overdue_unmissed :
    (fresh.handle .standard (-1) (.areaLoaded (Trial.area "north"))).1.isOk = true
      ∧ (let n₀ := (fresh.handle .standard (-1) (.areaLoaded (Trial.area "north"))).2
        (∀ a ∈ n₀.log .standard Trial.ancient, ¬ a.Unloads ∧ a.result.isOk = true)
          ∧ (n₀.signs .standard Trial.ancient).getLast? = some (-1)
          ∧ (Config.standard : Config ℚ).guidance.signalTimeout < (twoTo 63 - 1) - (-1)
          ∧ (((n₀.run .standard Trial.ancient).handle .standard (twoTo 63 - 1) .tick).2.session.map
              fun t => (t.phase, t.waiting)) = some (.active, false)) := by
  decide +kernel

end Navigator

end Roadbook

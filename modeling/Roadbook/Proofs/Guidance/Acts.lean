import Mathlib.Logic.Relation
import Mathlib.Tactic.Common
import Roadbook.Guidance.Navigator
import Roadbook.Proofs.Coverage.Tracker
import Roadbook.Proofs.Guidance.Transition

/-!
# What happens in the course of a call

Everything a session does is a chain of four kinds of acts (`Dispatch.Act`): it notes something, it
reports something, it moves to a phase, or it asks for directions to the start. Everything a
navigator does is a chain of the acts in `Outcome.Act`, but for taking in an answer to a request and
the outcome of a batch. So a fact that each act keeps holds after the tasks that are due
(`acts_runDue`) and after every other event (`acts_respond`), if there is a session just if there is
a tracker, as it always is (`Navigator.IsPaired.handle`). `Navigator.Reachable` are the navigators
that calls lead to.
-/

namespace Roadbook

/-- Effects that tell the driver how things stand. -/
def Effect.IsReport {α : Type} : Effect α → Prop
  | .position .. | .instruction _ | .signalLost | .signalRestored => True
  | _ => False

/-- Effects of what a session does of its own accord. -/
def Effect.IsOwn {α : Type} : Effect α → Prop
  | .phaseChanged .. | .requestDirections _ => True
  | e => e.IsReport

theorem Effect.IsReport.isOwn {α : Type} {e : Effect α} (h : e.IsReport) : e.IsOwn := by
  cases e <;> trivial

/-- Effects of the tasks that are due. -/
def Effect.IsDue {α : Type} : Effect α → Prop
  | .phaseChanged .. | .persist _ false => True
  | e => e.IsReport

theorem Effect.IsReport.isDue {α : Type} {e : Effect α} (h : e.IsReport) : e.IsDue := by
  cases e <;> trivial

/-- The last sign of life is older than the timeout. -/
def Session.IsLate {α : Type} [Scalar α] (config : Config α) (now : Int) (s : Session α) : Prop :=
  ∃ last, s.lastSignal = some last
    ∧ config.guidance.signalTimeout < Scalar.wrap α (now - last)

variable {α : Type} [Scalar α] {config : Config α} {now : Int}

namespace Dispatch

/-- One thing that a session does. -/
inductive Act (config : Config α) (now : Int) : Dispatch α → Dispatch α → Prop
  | note (d : Dispatch α) {s : Session α} (h : s.Agrees d.session) :
    Act config now d (d.withSession s)
  | report (d : Dispatch α) {e : Effect α} (h : e.IsReport) : Act config now d (d.emit e)
  | move (d : Dispatch α) (phase : Phase) : Act config now d (d.transition config now phase)
  | ask (d : Dispatch α) (p : Point α) : Act config now d (d.askForStart p)

abbrev Acts (config : Config α) (now : Int) : Dispatch α → Dispatch α → Prop :=
  Relation.ReflTransGen (Act config now)

/-- Effects are added to those there are, and they are of the session's own. -/
theorem Act.effects {d d' : Dispatch α} (h : Act config now d d') :
    ∃ new, d'.effects = d.effects ++ new ∧ ∀ e ∈ new, e.IsOwn := by
  cases h with
  | note => exact ⟨[], by simp [withSession], by simp⟩
  | @report e he => exact ⟨[e], rfl, by simpa using he.isOwn⟩
  | move phase =>
    by_cases hne : d.session.phase = phase
    · exact ⟨[], by simp [← hne, transition_self], by simp⟩
    · rw [transition_of_ne hne]
      rcases (d.entering phase).arrange_cases config now d.session.phase with
        ⟨purpose, a, b, -, heq⟩ | ⟨-, heq⟩ | ⟨-, s, -, heq⟩ <;> rw [heq]
      · refine ⟨[.phaseChanged d.session.phase phase,
          .requestDirections ((d.entering phase).nextRequest purpose a b)], ?_, ?_⟩
        · simp [request_eq, entering]
        · simp [Effect.IsOwn]
      · exact ⟨[.phaseChanged d.session.phase phase], rfl, by simp [Effect.IsOwn]⟩
      · exact ⟨[.phaseChanged d.session.phase phase], rfl, by simp [Effect.IsOwn]⟩
  | ask p =>
    rcases askForStart_cases d p with heq | ⟨b, -, heq⟩ <;> rw [heq]
    · exact ⟨[], by simp, by simp⟩
    · exact ⟨[.requestDirections (d.nextRequest .toStart p b)], rfl, by simp [Effect.IsOwn]⟩

theorem acts_note_move (d : Dispatch α) {s : Session α} (h : s.Agrees d.session) (phase : Phase) :
    Acts config now d ((d.withSession s).transition config now phase) :=
  (Relation.ReflTransGen.single (.note d h)).tail (.move _ phase)

theorem acts_note_report (d : Dispatch α) {s : Session α} (h : s.Agrees d.session) {e : Effect α}
    (he : e.IsReport) : Acts config now d ((d.withSession s).emit e) :=
  (Relation.ReflTransGen.single (.note d h)).tail (.report _ he)

theorem acts_showPosition (d : Dispatch α) (p : Point α) :
    Acts config now d (d.showPosition p) :=
  .single (.report d trivial)

theorem acts_finish (d : Dispatch α) : Acts config now d (d.finish config now) :=
  .single (.move d .setup)

/-- Moves to the phase a fix leads to, or out of it again where nothing is on offer. -/
def moveOn (config : Config α) (now : Int) (phase : Phase) (d : Dispatch α) : Dispatch α :=
  let moved := d.transition config now phase
  if moved.session.phase = .resume ∧ moved.session.offer.isNone then
    moved.transition config now .offRoute
  else moved

theorem acts_moveOn (phase : Phase) (d : Dispatch α) :
    Acts config now d (d.moveOn config now phase) := by
  have hmoved : Acts config now d (d.transition config now phase) := .single (.move d phase)
  unfold moveOn
  dsimp only
  split_ifs
  · exact hmoved.tail (.move _ _)
  · exact hmoved

variable [Geodesy α]

/-- Announcing changes nothing but what was told last. -/
theorem announce_cases (config : Config α) (d : Dispatch α) :
    d.announce config = d ∨ ∃ a, d.announce config
      = (d.withSession { d.session with announced := some a }).emit (.instruction a) := by
  unfold announce
  dsimp only
  split_ifs
  · exact .inl rfl
  · exact .inr ⟨_, rfl⟩

theorem acts_announce (d : Dispatch α) : Acts config now d (d.announce config) := by
  rcases announce_cases config d with heq | ⟨a, heq⟩ <;> rw [heq]
  refine acts_note_report d ?_ ?_
  · exact ⟨rfl, rfl, rfl, rfl, rfl⟩
  · exact trivial

theorem track_agrees (s : Session α) (p : Point α) (time : Int) :
    (s.track config p time).2.Agrees s := ⟨rfl, rfl, rfl, rfl, rfl⟩

theorem advance_of_guiding {d : Dispatch α} (hguiding : d.session.phase.IsGuiding) (p : Point α)
    (time : Int) : d.advance config p time
      = ((d.session.track config p time).1, d.withSession (d.session.track config p time).2) := by
  unfold advance
  dsimp only
  rw [if_pos hguiding]

theorem advance_of_not_guiding {d : Dispatch α} (hno : ¬ d.session.phase.IsGuiding) (p : Point α)
    (time : Int) : d.advance config p time = (d.session.phase.next config.guidance
      (d.session.reading p (d.session.distanceToStart p)), d.askForStart p) := by
  unfold advance
  dsimp only
  rw [if_neg hno]

theorem acts_advance (d : Dispatch α) (p : Point α) (time : Int) :
    Acts config now d (d.advance config p time).2 := by
  unfold advance
  dsimp only
  split_ifs
  · exact .single (.note d (track_agrees _ p time))
  · exact .single (.ask d p)

/-- With what a fix says of the driver. -/
def receive (now : Int) (fix : Fix α) (d : Dispatch α) : Dispatch α :=
  let received := d.withSession (d.session.withFix fix now)
  if d.session.waiting then received.emit .signalRestored else received

theorem receive_session (now : Int) (fix : Fix α) (d : Dispatch α) :
    (d.receive now fix).session = d.session.withFix fix now := by
  unfold receive
  dsimp only
  split_ifs <;> rfl

theorem applyFix_eq (config : Config α) (now : Int) (fix : Fix α) (d : Dispatch α) :
    d.applyFix config now fix =
      let (phase, advanced) := (d.receive now fix).advance config fix.point fix.time
      ((advanced.moveOn config now phase).showPosition fix.point).announce config := rfl

theorem acts_receive (fix : Fix α) (d : Dispatch α) : Acts config now d (d.receive now fix) := by
  have hfix : (d.session.withFix fix now).Agrees d.session := ⟨rfl, rfl, rfl, rfl, rfl⟩
  unfold receive
  dsimp only
  split_ifs
  · exact acts_note_report d hfix trivial
  · exact .single (.note d hfix)

theorem acts_applyFix (d : Dispatch α) (fix : Fix α) :
    Acts config now d (d.applyFix config now fix) := by
  have hadvanced : Acts config now d
      ((d.receive now fix).advance config fix.point fix.time).2 :=
    (acts_receive fix d).trans (acts_advance _ fix.point fix.time)
  exact ((hadvanced.trans (acts_moveOn _ _)).trans (acts_showPosition _ fix.point)).trans
    (acts_announce _)

theorem acts_begin (d : Dispatch α) : Acts config now d (d.begin config now) := by
  unfold begin
  by_cases h : d.session.phase = .preview
  · rw [if_pos h]
    refine (acts_note_move d ?_ _).trans (acts_announce _)
    exact ⟨rfl, rfl, rfl, rfl, rfl⟩
  · rw [if_neg h]

theorem acts_settle (d : Dispatch α) : Acts config now d (d.settle config now) := by
  unfold settle
  split_ifs
  · exact (Relation.ReflTransGen.single (.move d _)).trans (acts_announce _)
  · exact .refl

/-- After the settle delay guidance along the route starts. No directions are asked for and no
deadline is set. -/
theorem settle_cases (config : Config α) (now : Int) (d : Dispatch α) :
    d.settle config now = d ∨ d.session.phase = .atStart
      ∧ ∃ (s : Session α) (told : List (Effect α)),
      s.Agrees (d.session.enter .active) ∧ (∀ e ∈ told, e.IsReport)
      ∧ d.settle config now = ⟨s, d.timers.cancel .settle,
          d.effects ++ .phaseChanged .atStart .active :: told⟩ := by
  unfold settle
  split_ifs with hphase
  · refine .inr ⟨hphase, ?_⟩
    have hmoved : d.transition config now .active =
        ⟨(d.session.enter .active).restart, d.timers.cancel .settle,
          d.effects ++ [.phaseChanged .atStart .active]⟩ := by
      rw [transition_of_ne (by simp [hphase])]
      simp [arrange, entering, Session.enter, hphase, Phase.IsGuiding, withSession]
    rcases announce_cases config (d.transition config now .active) with heq | ⟨a, heq⟩ <;>
      rw [heq, hmoved]
    · exact ⟨(d.session.enter .active).restart, [], ⟨rfl, rfl, rfl, rfl, rfl⟩, by simp, rfl⟩
    · exact ⟨{ (d.session.enter .active).restart with announced := some a }, [.instruction a],
        ⟨rfl, rfl, rfl, rfl, rfl⟩, by simp [Effect.IsReport], by simp [withSession, emit]⟩
  · exact .inl rfl

theorem acts_accept (d : Dispatch α) : Acts config now d (d.accept config now) := by
  unfold accept
  split
  · rename_i m hm
    split_ifs
    · extract_lets resumed shown
      have hresumed : Acts config now d resumed := by
        refine acts_note_move d ?_ _
        exact ⟨rfl, rfl, rfl, rfl, rfl⟩
      have hshown : Acts config now d shown := by
        unfold shown
        split
        · exact hresumed.trans (acts_showPosition _ _)
        · exact hresumed
      exact hshown.trans (acts_announce _)
    · exact .refl
  · exact .refl

theorem acts_dismiss (d : Dispatch α) : Acts config now d (d.dismiss config now) := by
  unfold dismiss
  split_ifs
  · refine (acts_note_move d ?_ _).trans (acts_announce _)
    exact ⟨rfl, rfl, rfl, rfl, rfl⟩
  · exact .refl

theorem acts_loseSignal (d : Dispatch α) : Acts config now d (d.loseSignal config) := by
  unfold loseSignal
  split_ifs
  · refine (acts_note_report d ?_ ?_).trans (acts_announce _)
    · exact ⟨rfl, rfl, rfl, rfl, rfl⟩
    · exact trivial
  · exact .refl

theorem checkSignal_of_late {d : Dispatch α} (h : d.session.IsLate config now) :
    d.checkSignal config now = d.loseSignal config := by
  obtain ⟨last, hlast, hlate⟩ := h
  simp only [checkSignal, hlast, hlate, if_true]

theorem checkSignal_of_not_late {d : Dispatch α} (h : ¬ d.session.IsLate config now) :
    d.checkSignal config now = d := by
  unfold checkSignal
  split
  · rename_i last hlast
    exact if_neg fun hlate => h ⟨last, hlast, hlate⟩
  · rfl

/-- A tick is as good as a bad fix, or it is nothing. -/
theorem checkSignal_cases (config : Config α) (now : Int) (d : Dispatch α) :
    d.checkSignal config now = d.loseSignal config ∨ d.checkSignal config now = d := by
  by_cases hlate : d.session.IsLate config now
  · exact .inl (checkSignal_of_late hlate)
  · exact .inr (checkSignal_of_not_late hlate)

theorem acts_checkSignal (d : Dispatch α) : Acts config now d (d.checkSignal config now) := by
  rcases d.checkSignal_cases config now with heq | heq <;> rw [heq]
  · exact acts_loseSignal d

omit [Scalar α] [Geodesy α] in
/-- An answer is of use when it is to the request that is pending, in the phase that is for. -/
theorem resolve_cases (d : Dispatch α) (id : Nat) (found : Option (List (Point α))) :
    d.resolve id found = d ∨ ∃ r, d.session.pending = some r ∧ r.id = id
      ∧ d.session.phase = r.purpose.phase
      ∧ d.resolve id found = (d.withSession { d.session with pending := none }).emit
          (.guidancePath r.purpose (path r found).1 (path r found).2) := by
  unfold resolve
  split
  · rename_i r hr
    split_ifs with h
    · exact .inr ⟨r, hr, h.1, h.2, rfl⟩
    · exact .inl rfl
  · exact .inl rfl

end Dispatch

def Navigator.IsPaired {α : Type} (n : Navigator α) : Prop := n.session.isSome = n.tracker.isSome

theorem Navigator.IsPaired.tracker_eq_none {α : Type} {n : Navigator α} (h : n.IsPaired)
    (hs : n.session = none) : n.tracker = none := by
  rw [IsPaired, hs] at h
  simpa using h.symm

theorem Navigator.IsPaired.session_eq_none {α : Type} {n : Navigator α} (h : n.IsPaired)
    (ht : n.tracker = none) : n.session = none := by
  rw [IsPaired, ht] at h
  simpa using h

namespace Outcome

section Dispatch

variable {α : Type} {o : Outcome α}

/-- The session of the area that is loaded, as it carries out an operation. -/
def dispatch (o : Outcome α) (session : Session α) : Dispatch α :=
  ⟨session, o.navigator.timers, o.effects⟩

def withDispatch (o : Outcome α) (d : Dispatch α) : Outcome α :=
  ⟨{ o.navigator with session := some d.session, timers := d.timers }, d.effects⟩

theorem inSession_none (hs : o.navigator.session = none) (operation : Dispatch α → Dispatch α) :
    o.inSession operation = o := by
  simp only [inSession, hs]

theorem inSession_some {s : Session α} (hs : o.navigator.session = some s)
    (operation : Dispatch α → Dispatch α) :
    o.inSession operation = o.withDispatch (operation (o.dispatch s)) := by
  simp only [inSession, hs]
  rfl

theorem withDispatch_dispatch {s : Session α} (hs : o.navigator.session = some s) :
    o.withDispatch (o.dispatch s) = o := by
  obtain ⟨⟨session, tracker, timers, view⟩, effects⟩ := o
  cases hs
  rfl

theorem withTracker_tracker {t : Tracker α} (ht : o.navigator.tracker = some t) :
    o.withTracker (some t) = o := by
  obtain ⟨⟨session, tracker, timers, view⟩, effects⟩ := o
  cases ht
  rfl

theorem flush_of_inFlight [Scalar α] {config : Config α} {now : Int} {t : Tracker α}
    (ht : o.navigator.tracker = some t) (hflight : t.inFlight.isSome = true) :
    o.flush config now t.area = o.scheduleFlush config now t.area := by
  unfold flush
  simp only [ht, hflight, ne_eq, not_true_eq_false, if_false, if_true]

/-- The outcome of a batch changes the tracker of its area, if that is loaded, and maybe a
deadline. -/
theorem onFlushed_cases [Scalar α] (config : Config α) (now : Int) (o : Outcome α) (area : String)
    (success : Bool) :
    (∃ t timers, o.navigator.tracker = some t ∧ t.area = area
        ∧ o.onFlushed config now area success
          = (o.withTracker (some (t.completeFlush success).2)).withTimers timers)
      ∨ (∀ t, o.navigator.tracker = some t → t.area ≠ area)
        ∧ o.onFlushed config now area success = o := by
  unfold onFlushed
  split
  · rename_i ht
    exact .inr ⟨by simp [ht], rfl⟩
  · rename_i t ht
    split_ifs with harea
    · refine .inr ⟨fun t' ht' => ?_, rfl⟩
      obtain rfl := Option.some.inj (ht.symm.trans ht')
      exact harea
    · have harea : t.area = area := by simpa using harea
      dsimp only
      split_ifs
      · exact .inl ⟨t, _, ht, harea, rfl⟩
      · exact .inl ⟨t, o.navigator.timers, ht, harea, rfl⟩

theorem onFlushed_effects [Scalar α] (config : Config α) (now : Int) (o : Outcome α)
    (area : String) (success : Bool) :
    (o.onFlushed config now area success).effects = o.effects := by
  rcases o.onFlushed_cases config now area success with ⟨t, timers, -, -, heq⟩ | ⟨-, heq⟩ <;>
    rw [heq]
  rfl

/-- What is handed out when a tracker is given up is what was not known to be stored. -/
theorem drain_cases (o : Outcome α) :
    o.drain = o.withTracker none ∧ (∀ t, o.navigator.tracker = some t → ∀ id, ¬ t.Owes id)
      ∨ ∃ t, o.navigator.tracker = some t
        ∧ o.drain = (o.withTracker none).emit (.persist (t.batch t.unconfirmed) true) := by
  unfold drain
  split
  · rename_i ht
    refine .inl ⟨?_, by simp [ht]⟩
    obtain ⟨⟨session, tracker, timers, view⟩, effects⟩ := o
    cases ht
    rfl
  · rename_i t ht
    unfold Tracker.drain
    by_cases hempty : t.unconfirmed.isEmpty = true
    · simp only [if_pos hempty]
      refine .inl ⟨trivial, fun t' ht' id hid => ?_⟩
      obtain rfl := Option.some.inj (ht.symm.trans ht')
      exact IdSet.isEmpty_iff.1 hempty id (Tracker.mem_unconfirmed.2 hid)
    · simp only [if_neg hempty]
      exact .inr ⟨t, ht, rfl⟩

theorem drain_session (o : Outcome α) : o.drain.navigator.session = o.navigator.session := by
  rcases o.drain_cases with ⟨heq, -⟩ | ⟨t, -, heq⟩ <;> rw [heq] <;> rfl

theorem drain_tracker (o : Outcome α) : o.drain.navigator.tracker = none := by
  rcases o.drain_cases with ⟨heq, -⟩ | ⟨t, -, heq⟩ <;> rw [heq] <;> rfl

end Dispatch

variable [Geodesy α]

/-- One thing that a navigator does. -/
inductive Act (config : Config α) (now : Int) : Outcome α → Outcome α → Prop
  | guide {o : Outcome α} {s : Session α} {d : Dispatch α} (hs : o.navigator.session = some s)
    (h : Dispatch.Act config now (o.dispatch s) d) : Act config now o (o.withDispatch d)
  | aside (o : Outcome α) (timers : Timers) (view : View) :
    Act config now o ((o.withTimers timers).withView view)
  | aim (o : Outcome α) (p : Point α) (heading : Option α) :
    Act config now o (o.emit (.camera p heading))
  | flush {o : Outcome α} {t tracker : Tracker α} {batch : Batch}
    (ht : o.navigator.tracker = some t) (h : t.beginFlush = (some batch, tracker)) :
    Act config now o ((o.withTracker (some tracker)).emit (.persist batch false))
  | promote {o : Outcome α} {t tracker : Tracker α} {p : Point α} {hits : IdSet}
    (ht : o.navigator.tracker = some t) (h : t.observe config.coverage p = (hits, tracker))
    (hne : hits.isEmpty = false) : Act config now o ((o.withTracker (some tracker)).emit
      (.segmentsDriven tracker.area hits.toList tracker.percent))
  | drop (o : Outcome α) : Act config now o (o.withSession none).drain
  | load {o : Outcome α} (hs : o.navigator.session = none) (ht : o.navigator.tracker = none)
    (area : Area α) (ranks : Nat → Nat) (route : Route α) (smoother : Smoother α) :
    Act config now o (o.load area ranks (.ofRoute area.name route smoother))

abbrev Acts (config : Config α) (now : Int) : Outcome α → Outcome α → Prop :=
  Relation.ReflTransGen (Act config now)

variable {o o' : Outcome α}

theorem acts_withDispatch {s : Session α} (hs : o.navigator.session = some s) {d : Dispatch α}
    (h : Dispatch.Acts config now (o.dispatch s) d) : Acts config now o (o.withDispatch d) := by
  induction h with
  | refl => rw [withDispatch_dispatch hs]
  | @tail b c _ hbc ih =>
    have hact : Act config now (o.withDispatch b) ((o.withDispatch b).withDispatch c) :=
      .guide rfl hbc
    exact ih.tail hact

theorem acts_inSession {operation : Dispatch α → Dispatch α}
    (h : ∀ d, Dispatch.Acts config now d (operation d)) (o : Outcome α) :
    Acts config now o (o.inSession operation) := by
  rcases hs : o.navigator.session with _ | s
  · rw [inSession_none hs]
  · rw [inSession_some hs]
    exact acts_withDispatch hs (h _)

theorem acts_withTimers (o : Outcome α) (timers : Timers) :
    Acts config now o (o.withTimers timers) :=
  .single (.aside o timers o.navigator.view)

theorem acts_flush (o : Outcome α) (area : String) :
    Acts config now o (o.flush config now area) := by
  unfold flush
  split
  · exact .refl
  · rename_i t ht
    split_ifs
    · exact .refl
    · exact acts_withTimers o _
    · split
      · rename_i batch tracker hb
        exact .single (.flush ht hb)
      · exact .refl

theorem acts_runTask (o : Outcome α) : ∀ task, Acts config now o (o.runTask config now task)
  | .settle => acts_inSession Dispatch.acts_settle o
  | .flush area => acts_flush o area

theorem acts_runTasks : ∀ (tasks : List Task) (o : Outcome α),
    Acts config now o (tasks.foldl (runTask config now) o)
  | [], _ => .refl
  | task :: tasks, o => (acts_runTask o task).trans (acts_runTasks tasks _)

theorem acts_runDue (o : Outcome α) : Acts config now o (o.runDue config now) :=
  (acts_withTimers o _).trans (acts_runTasks _ _)

theorem effects_settle (h : ∀ e ∈ o.effects, e.IsDue) :
    ∀ e ∈ (o.inSession (·.settle config now)).effects, e.IsDue := by
  rcases hs : o.navigator.session with _ | s
  · rwa [inSession_none hs]
  · rw [inSession_some hs]
    rcases (o.dispatch s).settle_cases config now with
      heq | ⟨-, s', told, -, htold, heq⟩ <;> rw [heq]
    · exact h
    · refine List.forall_mem_append.2 ⟨h, List.forall_mem_cons.2 ⟨trivial, ?_⟩⟩
      exact fun e he => (htold e he).isDue

omit [Geodesy α] in
theorem effects_flush (h : ∀ e ∈ o.effects, e.IsDue) (area : String) :
    ∀ e ∈ (o.flush config now area).effects, e.IsDue := by
  unfold flush
  split
  · exact h
  · split_ifs
    · exact h
    · exact h
    · split
      · exact List.forall_mem_append.2 ⟨h, List.forall_mem_singleton.2 trivial⟩
      · exact h

theorem effects_runTasks : ∀ (tasks : List Task) {o : Outcome α}, (∀ e ∈ o.effects, e.IsDue) →
    ∀ e ∈ (tasks.foldl (runTask config now) o).effects, e.IsDue
  | [], _, h => h
  | .settle :: tasks, _, h => effects_runTasks tasks (effects_settle h)
  | .flush area :: tasks, _, h => effects_runTasks tasks (effects_flush h area)

theorem acts_aim (o : Outcome α) (fix : Fix α) : Acts config now o (o.aim fix) := by
  unfold aim
  split
  · split_ifs
    · exact .single (.aim o _ _)
    · exact .refl
  · exact .refl

/-- Covering the ground of a fix makes segments driven, and their flush is put off, or it comes to
nothing. -/
theorem cover_cases {fix : Fix α} (h : o.cover config now fix = .ok o') :
    o' = o ∨ ∃ t hits tracker, o.navigator.tracker = some t
      ∧ t.observe config.coverage fix.point = (hits, tracker) ∧ hits.isEmpty = false
      ∧ o' = ((o.withTracker (some tracker)).emit
          (.segmentsDriven tracker.area hits.toList tracker.percent)).scheduleFlush config now
            tracker.area := by
  unfold cover at h
  split at h
  · rename_i s t hs ht
    split_ifs at h
    · split at h
      · rename_i hits tracker hob
        cases h
        have hob := Tracker.observation?_eq_some hob
        unfold promote
        dsimp only
        split_ifs with hempty
        · have hkeep := Tracker.observe_of_isEmpty (t := t) (by rw [hob]; exact hempty)
          have htracker : tracker = t := by rw [← hkeep, hob]
          exact .inl (by rw [htracker, withTracker_tracker ht])
        · exact .inr ⟨t, hits, tracker, ht, hob, by simpa using hempty, rfl⟩
      · cases h
    · cases h
      exact .inl rfl
  · cases h
    exact .inl rfl

theorem acts_cover {fix : Fix α} (h : o.cover config now fix = .ok o') :
    Acts config now o o' := by
  rcases cover_cases h with rfl | ⟨t, hits, tracker, ht, hob, hne, rfl⟩
  · exact .refl
  · exact (Relation.ReflTransGen.single (.promote ht hob hne)).trans (acts_withTimers _ _)

theorem acts_onFix {fix : Fix α} (h : o.onFix config now fix = .ok o') :
    Acts config now o o' := by
  unfold onFix at h
  split at h
  · cases h
    exact acts_inSession Dispatch.acts_loseSignal o
  · exact ((acts_inSession (Dispatch.acts_applyFix · fix) o).trans (acts_aim _ fix)).trans
      (acts_cover h)

theorem acts_unload (o : Outcome α) : Acts config now o (o.unload config now) :=
  ((acts_inSession Dispatch.acts_finish o).tail (.drop _)).trans (acts_withTimers _ _)

theorem isPaired_withDispatch {α : Type} {o : Outcome α} (h : o.navigator.IsPaired)
    {s : Session α} (hs : o.navigator.session = some s) (d : Dispatch α) :
    (o.withDispatch d).navigator.IsPaired := by
  have ht : o.navigator.tracker.isSome = true := by rw [← h, hs, Option.isSome_some]
  exact ht.symm

theorem isPaired_withTracker {α : Type} {o : Outcome α} (h : o.navigator.IsPaired) {t : Tracker α}
    (ht : o.navigator.tracker = some t) (tracker : Tracker α) :
    (o.withTracker (some tracker)).navigator.IsPaired := by
  have hs : o.navigator.session.isSome = true := by rw [h, ht, Option.isSome_some]
  exact hs

theorem Act.isPaired (hact : Act config now o o') (h : o.navigator.IsPaired) :
    o'.navigator.IsPaired := by
  cases hact with
  | guide hs => exact isPaired_withDispatch h hs _
  | aside => exact h
  | aim => exact h
  | flush ht => exact isPaired_withTracker h ht _
  | promote ht => exact isPaired_withTracker h ht _
  | drop =>
    rw [Navigator.IsPaired, drain_session, drain_tracker]
    rfl
  | load => rfl

theorem Acts.isPaired (hacts : Acts config now o o') (h : o.navigator.IsPaired) :
    o'.navigator.IsPaired := by
  induction hacts with
  | refl => exact h
  | tail _ hact ih => exact hact.isPaired ih

theorem acts_replace (h : o.navigator.IsPaired) (area : Area α) (ranks : Nat → Nat)
    (route : Route α) (smoother : Smoother α) :
    Acts config now o (o.replace config now area ranks (.ofRoute area.name route smoother)) := by
  unfold replace
  extract_lets vacated
  have hvacated : Acts config now o vacated ∧ vacated.navigator.session = none := by
    unfold vacated
    split_ifs with hs
    · exact ⟨acts_unload o, drain_session _⟩
    · exact ⟨.refl, by simpa using hs⟩
  have htracker : vacated.navigator.tracker = none :=
    (hvacated.1.isPaired h).tracker_eq_none hvacated.2
  exact hvacated.1.tail (.load hvacated.2 htracker area ranks route smoother)

/-- An area that is taken in has a route, and there is room for the samples to be kept. -/
theorem respond_areaLoaded_iff {area : Area α} {ranks : Nat → Nat} :
    Navigator.respond config now o (.areaLoaded area ranks) = .ok o'
      ↔ ∃ route smoother, Route.ofPoints config.turns area.route = .ok route
        ∧ Smoother.start? config.smoothing = some smoother
        ∧ o' = o.replace config now area ranks (.ofRoute area.name route smoother) := by
  simp only [Navigator.respond, Session.start?]
  rcases Route.ofPoints config.turns area.route with fault | route
  · simp
  · rcases Smoother.start? config.smoothing with _ | smoother
    · simp
    · simp [eq_comm]

theorem respond_areaLoaded {area : Area α} {ranks : Nat → Nat}
    (h : Navigator.respond config now o (.areaLoaded area ranks) = .ok o') :
    ∃ route smoother,
      o' = o.replace config now area ranks (.ofRoute area.name route smoother) := by
  obtain ⟨route, smoother, -, -, heq⟩ := respond_areaLoaded_iff.1 h
  exact ⟨route, smoother, heq⟩

/-- What happens in answer to an event other than an answer to a request and the outcome of a
batch. -/
theorem acts_respond {event : Event α} (hp : o.navigator.IsPaired)
    (h : Navigator.respond config now o event = .ok o')
    (hdirections : ∀ id path, event ≠ .directions id path)
    (hflushed : ∀ area success, event ≠ .flushed area success) : Acts config now o o' := by
  cases event with
  | areaLoaded area ranks =>
    obtain ⟨route, smoother, rfl⟩ := respond_areaLoaded h
    exact acts_replace hp area ranks route smoother
  | fix fix => exact acts_onFix h
  | begin =>
    cases h
    exact acts_inSession Dispatch.acts_begin o
  | acceptOffer =>
    cases h
    exact acts_inSession Dispatch.acts_accept o
  | dismissOffer =>
    cases h
    exact acts_inSession Dispatch.acts_dismiss o
  | directions id path => exact absurd rfl (hdirections id path)
  | flushed area success => exact absurd rfl (hflushed area success)
  | view view =>
    cases h
    exact .single (.aside o o.navigator.timers view)
  | tick =>
    cases h
    exact acts_inSession Dispatch.acts_checkSignal o
  | finish =>
    cases h
    exact acts_unload o

theorem isPaired_respond {event : Event α} (hp : o.navigator.IsPaired)
    (h : Navigator.respond config now o event = .ok o') : o'.navigator.IsPaired := by
  cases event with
  | directions id found =>
    cases h
    rcases hs : o.navigator.session with _ | s
    · rwa [inSession_none hs]
    · rw [inSession_some hs]
      exact isPaired_withDispatch hp hs _
  | flushed area success =>
    cases h
    rcases o.onFlushed_cases config now area success with ⟨t, timers, ht, -, heq⟩ | ⟨-, heq⟩ <;>
      rw [heq]
    · exact isPaired_withTracker hp ht _
    · exact hp
  | _ => exact (acts_respond hp h (by simp) (by simp)).isPaired hp

end Outcome

namespace Navigator

variable [Geodesy α]

/-- The navigators that any calls lead to, those that are refused included. -/
inductive Reachable (config : Config α) : Navigator α → Prop
  | fresh : Reachable config fresh
  | handle {n : Navigator α} (h : Reachable config n) (now : Int) (event : Event α) :
    Reachable config (n.handle config now event).2

/-- A refused event leaves the navigator as the due tasks made it, any other as it was answered. -/
theorem handle_cases (config : Config α) (n : Navigator α) (now : Int) (event : Event α) :
    (∃ o, respond config now (n.due config now) event = .ok o
        ∧ n.handle config now event = (.ok o.effects, o.navigator))
      ∨ ∃ refusal, respond config now (n.due config now) event = .error refusal
        ∧ n.handle config now event = (.error refusal, (n.due config now).navigator) := by
  unfold handle
  rcases h : respond config now (n.due config now) event with refusal | o
  · exact .inr ⟨refusal, rfl, by simp only [h]⟩
  · exact .inl ⟨o, rfl, by simp only [h]⟩

theorem effects_due (config : Config α) (now : Int) (n : Navigator α) :
    ∀ e ∈ (n.due config now).effects, e.IsDue :=
  Outcome.effects_runTasks _ (by simp [Outcome.withTimers])

theorem acts_due (n : Navigator α) : Outcome.Acts config now ⟨n, []⟩ (n.due config now) :=
  Outcome.acts_runDue _

theorem IsPaired.due {n : Navigator α} (h : n.IsPaired) (config : Config α) (now : Int) :
    (n.due config now).navigator.IsPaired :=
  (acts_due n).isPaired h

theorem IsPaired.handle {n : Navigator α} (h : n.IsPaired) (config : Config α) (now : Int)
    (event : Event α) : (n.handle config now event).2.IsPaired := by
  rcases handle_cases config n now event with ⟨o, hok, heq⟩ | ⟨_, _, heq⟩ <;> rw [heq]
  · exact Outcome.isPaired_respond (h.due config now) hok
  · exact h.due config now

theorem Reachable.isPaired {n : Navigator α} (h : Reachable config n) : n.IsPaired := by
  induction h with
  | fresh => rfl
  | handle _ now event ih => exact ih.handle config now event

end Navigator

end Roadbook

import Mathlib.Algebra.Order.BigOperators.Group.List
import Roadbook.Proofs.Guidance.Offering
import Roadbook.Proofs.Replay.Replies

/-!
# What there is to do on the way to a fix

On the way to a fix a navigator is told of replies and of deadlines (`Event.IsPassing`). It refuses
none of that, hands out nothing but what is due, and sets a deadline only when a batch was not
stored (`Navigator.Reachable.handle_passing`). So all there is to do is in the table of deadlines
and among the jobs. It is measured by weights, and where these suit each other the burden does not
grow while tasks run (`Navigator.burden_due`), and events bring it down but for batches that were
not stored (`Navigator.Reachable.burden_handle`), as long as nothing overflows.
-/

namespace Roadbook

open Effect

variable {α : Type}

/-- What a navigator is told on the way from one fix to another. -/
def Event.IsPassing : Event α → Prop
  | .acceptOffer | .directions .. | .flushed .. | .tick => True
  | _ => False

theorem Event.IsPassing.fix_ne {event : Event α} (h : event.IsPassing) (fix : Fix α) :
    event ≠ .fix fix := by
  rintro rfl
  exact h

theorem Event.IsPassing.not_unloads {event : Event α} (h : event.IsPassing) : ¬ event.Unloads := by
  cases event <;> first | exact id | cases h

/-- A batch was not stored. -/
def Event.isFailure : Event α → Bool
  | .flushed _ success => !success
  | _ => false

namespace Effect

/-- The job that an effect hands out. -/
def job? : Effect α → Option (Job α)
  | .requestDirections request => some (.directions request)
  | .persist batch false => some (.persist batch)
  | _ => none

def jobs (effects : List (Effect α)) : List (Job α) := effects.filterMap job?

@[simp] theorem jobs_append (effects new : List (Effect α)) :
    jobs (effects ++ new) = jobs effects ++ jobs new :=
  List.filterMap_append

theorem jobs_eq_nil {effects : List (Effect α)} (h : ∀ e ∈ effects, e.job? = none) :
    jobs effects = [] :=
  List.filterMap_eq_nil_iff.2 h

theorem IsReport.job?_eq_none {e : Effect α} (h : e.IsReport) : e.job? = none := by
  cases e <;> first | rfl | exact h.elim

end Effect

namespace Dispatch

/-- No deadline is set and nothing is handed out. -/
structure Idles (d d' : Dispatch α) : Prop where
  timers : d'.timers = d.timers
  jobs : jobs d'.effects = jobs d.effects

theorem Idles.refl (d : Dispatch α) : d.Idles d := ⟨rfl, rfl⟩

theorem Idles.trans {d d' d'' : Dispatch α} (h : d.Idles d') (h' : d'.Idles d'') : d.Idles d'' :=
  ⟨h'.timers.trans h.timers, h'.jobs.trans h.jobs⟩

theorem idles_emit (d : Dispatch α) (s : Session α) {e : Effect α} (he : e.job? = none) :
    d.Idles ((d.withSession s).emit e) := by
  refine ⟨rfl, ?_⟩
  show Effect.jobs (d.effects ++ [e]) = _
  rw [jobs_append, jobs_eq_nil (List.forall_mem_singleton.2 he), List.append_nil]

theorem idles_resolve (id : Nat) (found : Option (List (Point α))) (d : Dispatch α) :
    d.Idles (d.resolve id found) := by
  rcases d.resolve_cases id found with heq | ⟨r, -, -, -, heq⟩ <;> rw [heq]
  · exact .refl d
  · exact d.idles_emit _ rfl

variable [Scalar α] [Geodesy α] {config : Config α} {now : Int}

theorem idles_announce (config : Config α) (d : Dispatch α) : d.Idles (d.announce config) := by
  rcases announce_cases config d with heq | ⟨a, heq⟩ <;> rw [heq]
  · exact .refl d
  · exact d.idles_emit _ rfl

theorem idles_loseSignal (d : Dispatch α) : d.Idles (d.loseSignal config) := by
  unfold loseSignal
  split_ifs
  · exact (d.idles_emit _ rfl).trans (idles_announce config _)
  · exact .refl d

theorem idles_checkSignal (d : Dispatch α) : d.Idles (d.checkSignal config now) := by
  rcases d.checkSignal_cases config now with heq | heq <;> rw [heq]
  · exact d.idles_loseSignal
  · exact .refl d

theorem idles_accept (d : Dispatch α) : d.Idles (d.accept config now) := by
  by_cases hphase : d.session.phase = .resume
  · unfold accept
    split
    · rename_i m hm
      rw [if_pos hphase, transition_resumeAt config now m hphase]
      extract_lets resumed shown
      have hresumed : d.Idles resumed := d.idles_emit _ rfl
      have hshown : resumed.Idles shown := by
        unfold shown
        split
        · exact resumed.idles_emit resumed.session rfl
        · exact .refl resumed
      exact (hresumed.trans hshown).trans (idles_announce config shown)
    · exact .refl d
  · rw [accept_of_ne config now d hphase]
    exact .refl d

end Dispatch

namespace Outcome

variable {o o' : Outcome α}

structure Idles (o o' : Outcome α) : Prop where
  tracker : o'.navigator.tracker = o.navigator.tracker
  timers : o'.navigator.timers = o.navigator.timers
  jobs : jobs o'.effects = jobs o.effects

theorem idles_inSession {operation : Dispatch α → Dispatch α}
    (hop : ∀ d : Dispatch α, d.Idles (operation d)) (o : Outcome α) :
    o.Idles (o.inSession operation) := by
  rcases hs : o.navigator.session with _ | s
  · rw [inSession_none hs]
    exact ⟨rfl, rfl, rfl⟩
  · rw [inSession_some hs]
    exact ⟨rfl, (hop (o.dispatch s)).timers, (hop (o.dispatch s)).jobs⟩

variable [Scalar α] {config : Config α} {now : Int}

/-- What is pending after a batch was stored was pending before, so its flush is scheduled. -/
theorem onFlushed_timers (h : o.navigator.Aligned []) (area : String) (success : Bool) :
    (o.onFlushed config now area success).navigator.timers = o.navigator.timers
      ∨ success = false
        ∧ now + config.coverage.quiet ∈ o.reckonedFlushed config now area success
        ∧ (o.onFlushed config now area success).navigator.timers = o.navigator.timers.schedule
          (.flush area) (Scalar.wrap α (now + config.coverage.quiet)) := by
  unfold onFlushed
  split
  · exact .inl rfl
  · rename_i t ht
    split_ifs with harea
    · exact .inl rfl
    · obtain rfl : t.area = area := by simpa using harea
      dsimp only
      split_ifs with hcase
      · cases success with
        | false =>
          simp only [Bool.and_eq_true, Bool.not_eq_true'] at hcase
          exact .inr ⟨rfl, by simp [reckonedFlushed, ht, hcase], rfl⟩
        | true =>
          have hpending : (t.completeFlush true).2.pending = t.pending := by
            unfold Tracker.completeFlush
            split <;> rfl
          simp only [hpending, Bool.and_eq_true, Bool.not_eq_true'] at hcase
          have hscheduled := (h.needed (.flush t.area)).2 ⟨t, ht, rfl, hcase.1⟩
          simp [hcase.2] at hscheduled
      · exact .inl rfl

/-- A flush comes to nothing, it is put off, or a batch is handed out. -/
theorem flush_cases_of_inFlight (config : Config α) (now : Int) (o : Outcome α) (area : String) :
    o.flush config now area = o
      ∨ (∃ t, o.navigator.tracker = some t ∧ t.inFlight ≠ none
        ∧ now + config.coverage.quiet ∈ o.reckonedTask config now (.flush area)
        ∧ o.flush config now area = o.scheduleFlush config now area)
      ∨ ∃ t batch tracker, o.navigator.tracker = some t ∧ t.beginFlush = (some batch, tracker)
        ∧ o.flush config now area
          = (o.withTracker (some tracker)).emit (.persist batch false) := by
  unfold flush
  split
  · exact .inl rfl
  · rename_i t ht
    split_ifs with harea hflight
    · exact .inl rfl
    · refine .inr (.inl ⟨t, ht, Option.ne_none_iff_isSome.2 hflight, ?_, rfl⟩)
      simp [reckonedTask, ht, not_not.1 harea, hflight]
    · split
      · rename_i batch tracker hbegin
        exact .inr (.inr ⟨t, batch, tracker, ht, hbegin, rfl⟩)
      · exact .inl rfl

end Outcome

/-- What comes of an event on the way hands out nothing, and sets a deadline only if a batch was not
stored. -/
structure Outcome.Passes [Scalar α] [Geodesy α] (config : Config α) (now : Int) (event : Event α)
    (o o' : Outcome α) : Prop where
  jobs : jobs o'.effects = jobs o.effects
  timers : o'.navigator.timers = o.navigator.timers ∨ ∃ area, event = .flushed area false
    ∧ now + config.coverage.quiet ∈ o.reckonedEvent config now event
    ∧ o'.navigator.timers = o.navigator.timers.schedule (.flush area)
      (Scalar.wrap α (now + config.coverage.quiet))

section Handle

variable [Scalar α] [Geodesy α]

theorem Outcome.Idles.passes {o o' : Outcome α} (h : o.Idles o') (config : Config α) (now : Int)
    (event : Event α) : o.Passes config now event o' :=
  ⟨h.jobs, .inl h.timers⟩

theorem Outcome.respond_passing (config : Config α) (now : Int) {o : Outcome α}
    (h : o.navigator.Aligned []) {event : Event α} (hevent : event.IsPassing) :
    ∃ o', Navigator.respond config now o event = .ok o' ∧ o.Passes config now event o' := by
  cases event with
  | acceptOffer => exact ⟨_, rfl, (idles_inSession Dispatch.idles_accept o).passes ..⟩
  | directions id found =>
    exact ⟨_, rfl, (idles_inSession (Dispatch.idles_resolve id found) o).passes ..⟩
  | tick => exact ⟨_, rfl, (idles_inSession Dispatch.idles_checkSignal o).passes ..⟩
  | flushed area success =>
    refine ⟨_, rfl, by rw [onFlushed_effects], ?_⟩
    rcases onFlushed_timers h area success with hsame | ⟨rfl, hmem, hset⟩
    · exact .inl hsame
    · exact .inr ⟨area, rfl, hmem, hset⟩
  | _ => exact hevent.elim

/-- The navigator refuses nothing that it is told on the way. -/
theorem Navigator.Reachable.handle_passing {config : Config α} {n : Navigator α}
    (h : Reachable config n) (now : Int) {event : Event α} (hevent : event.IsPassing) :
    ∃ o, n.handle config now event = (.ok o.effects, o.navigator)
      ∧ (n.due config now).Passes config now event o := by
  have haligned : (n.due config now).navigator.Aligned [] := Outcome.aligned_runDue h.aligned
  obtain ⟨o, hok, hpasses⟩ := Outcome.respond_passing config now haligned hevent
  exact ⟨o, by simp only [Navigator.handle, hok], hpasses⟩

end Handle

/-- How much there is to do about a deadline, and about a batch that was handed out. -/
structure Weights where
  timer : Timer → Nat
  batch : Nat

namespace Weights

def job (W : Weights) : Job α → Nat
  | .directions _ => 1
  | .persist _ => W.batch

def event (W : Weights) : Event α → Nat
  | .flushed .. => W.batch
  | _ => 1

/-- At a time the flush of an area weighs more than the batch it hands out, and not less than the
flush it is put off to. A batch weighs more than the flush that is scheduled when it was not stored,
but for what each failure costs. -/
structure Suits (W : Weights) (cost : Nat) (quiet now : Int) : Prop where
  settle : ∀ due ≤ now, 0 < W.timer ⟨due, .settle⟩
  batch : 0 < W.batch
  handOut : ∀ area, ∀ due ≤ now, W.batch < W.timer ⟨due, .flush area⟩
  putOff : ∀ area, ∀ due ≤ now,
    W.timer ⟨now + quiet, .flush area⟩ ≤ W.timer ⟨due, .flush area⟩
  failure : ∀ area, W.timer ⟨now + quiet, .flush area⟩ < W.batch + cost

/-- Putting a flush off brings the burden down. -/
def IsStrict (W : Weights) (quiet now : Int) : Prop :=
  ∀ area, ∀ due ≤ now, W.timer ⟨now + quiet, .flush area⟩ < W.timer ⟨due, .flush area⟩

end Weights

namespace Timers

variable (w : Timer → Nat) (timers : Timers)

/-- The sum of the weights of all deadlines. -/
def weigh : Nat := (timers.toList.map w).sum

theorem weigh_cancel_le (task : Task) : (timers.cancel task).weigh w ≤ timers.weigh w :=
  (List.filter_sublist.map w).sum_le_sum fun _ _ => Nat.zero_le _

theorem weigh_schedule_le (task : Task) (due : Int) :
    (timers.schedule task due).weigh w ≤ timers.weigh w + w ⟨due, task⟩ := by
  have hplaced : (timers.schedule task due).weigh w
      = w ⟨due, task⟩ + (timers.cancel task).weigh w :=
    ((place_perm _ _).map w).sum_eq.trans List.sum_cons
  rw [hplaced, add_comm]
  exact Nat.add_le_add_right (timers.weigh_cancel_le w task) _

/-- What is taken out of the table, and what is left in it. -/
theorem weigh_popDue (now : Int) :
    ((timers.toList.filter fun t => t.due ≤ now).map w).sum + (timers.popDue now).2.weigh w
      = timers.weigh w := by
  have hparts := List.filter_append_perm (fun t : Timer => decide (t.due ≤ now)) timers.toList
  simp only [weigh, popDue, decide_not, ← (hparts.map w).sum_eq, List.map_append, List.sum_append]

end Timers

namespace Outcome

/-- What there is to do about the deadlines of a navigator and about what it hands out. -/
def burden (W : Weights) (o : Outcome α) : Nat :=
  o.navigator.timers.weigh W.timer + ((jobs o.effects).map W.job).sum

variable {W : Weights} {o o' : Outcome α}

theorem burden_scheduleFlush_le [Scalar α] (W : Weights) {config : Config α} {now : Int}
    (hfits : Scalar.Fits α (now + config.coverage.quiet)) (area : String) (o : Outcome α) :
    (o.scheduleFlush config now area).burden W
      ≤ o.burden W + W.timer ⟨now + config.coverage.quiet, .flush area⟩ := by
  have hwrap : Scalar.wrap α (now + config.coverage.quiet) = now + config.coverage.quiet := hfits
  have hset := o.navigator.timers.weigh_schedule_le W.timer (.flush area)
    (Scalar.wrap α (now + config.coverage.quiet))
  rw [hwrap] at hset
  unfold scheduleFlush
  rw [hwrap]
  show (o.navigator.timers.schedule _ _).weigh W.timer + ((jobs o.effects).map W.job).sum ≤ _
  unfold burden
  omega

theorem burden_emit_persist (W : Weights) (o : Outcome α) (batch : Batch) :
    (o.emit (.persist batch false)).burden W = o.burden W + W.batch := by
  have hjobs : jobs (o.effects ++ [.persist batch false]) = jobs o.effects ++ [.persist batch] :=
    jobs_append ..
  show _ + ((jobs (o.effects ++ [.persist batch false])).map W.job).sum = _
  rw [hjobs, List.map_append, List.sum_append, ← add_assoc]
  rfl

/-- Nothing is in flight. -/
def IsFree (o : Outcome α) : Prop := ∀ t, o.navigator.tracker = some t → t.inFlight = none

variable [Scalar α] {config : Config α} {now : Int} {cost : Nat}

theorem burden_flush (hsuits : W.Suits cost config.coverage.quiet now) {o : Outcome α}
    {area : String} (hfits : ∀ time ∈ o.reckonedTask config now (.flush area), Scalar.Fits α time)
    {due : Int} (hdue : due ≤ now) :
    (o.flush config now area).burden W ≤ o.burden W + W.timer ⟨due, .flush area⟩
      ∧ (o.IsFree ∨ W.IsStrict config.coverage.quiet now →
        (o.flush config now area).burden W < o.burden W + W.timer ⟨due, .flush area⟩) := by
  have hbatch := hsuits.handOut area due hdue
  rcases flush_cases_of_inFlight config now o area with
    heq | ⟨t, ht, hflight, hmem, heq⟩ | ⟨t, batch, tracker, ht, hbegin, heq⟩ <;> rw [heq]
  · omega
  · have hset := burden_scheduleFlush_le W (hfits _ hmem) area o
    refine ⟨hset.trans (Nat.add_le_add_left (hsuits.putOff area due hdue) _), ?_⟩
    rintro (hfree | hstrict)
    · exact absurd (hfree t ht) hflight
    · exact hset.trans_lt (Nat.add_lt_add_left (hstrict area due hdue) _)
  · have hhanded : ((o.withTracker (some tracker)).emit (.persist batch false)).burden W
        = o.burden W + W.batch := burden_emit_persist W (o.withTracker (some tracker)) batch
    omega

variable [Geodesy α]

theorem burden_settle_le (W : Weights) (o : Outcome α) :
    (o.inSession (·.settle config now)).burden W ≤ o.burden W := by
  rcases hs : o.navigator.session with _ | s
  · rw [inSession_none hs]
  · rw [inSession_some hs]
    rcases (o.dispatch s).settle_cases config now with
      heq | ⟨-, s', told, -, htold, heq⟩ <;> rw [heq]
    · rw [withDispatch_dispatch hs]
    · have hjobs : jobs (o.effects ++ .phaseChanged .atStart .active :: told) = jobs o.effects := by
        rw [jobs_append, jobs_eq_nil (List.forall_mem_cons.2 ⟨rfl, fun e he =>
          (htold e he).job?_eq_none⟩), List.append_nil]
      have hcancel := o.navigator.timers.weigh_cancel_le W.timer .settle
      show (o.navigator.timers.cancel .settle).weigh W.timer
        + ((jobs (o.effects ++ .phaseChanged .atStart .active :: told)).map W.job).sum ≤ _
      rw [hjobs]
      exact Nat.add_le_add_right hcancel _

theorem burden_runTask (hsuits : W.Suits cost config.coverage.quiet now) {o : Outcome α}
    {t : Timer} (hfits : ∀ time ∈ o.reckonedTask config now t.task, Scalar.Fits α time)
    (hdue : t.due ≤ now) :
    (o.runTask config now t.task).burden W ≤ o.burden W + W.timer t
      ∧ (o.IsFree ∨ W.IsStrict config.coverage.quiet now →
        (o.runTask config now t.task).burden W < o.burden W + W.timer t) := by
  obtain ⟨due, task⟩ := t
  cases task with
  | flush area => exact burden_flush hsuits hfits hdue
  | settle =>
    have hsettle : (o.runTask config now .settle).burden W ≤ o.burden W := burden_settle_le W o
    have hpos := hsuits.settle due hdue
    dsimp only
    omega

theorem burden_runTasks (hsuits : W.Suits cost config.coverage.quiet now) :
    ∀ (due : List Timer) (o : Outcome α), (∀ t ∈ due, t.due ≤ now) →
      (∀ time ∈ o.reckonedTasks config now (due.map (·.task)), Scalar.Fits α time) →
      ((due.map (·.task)).foldl (runTask config now) o).burden W
        ≤ o.burden W + (due.map W.timer).sum
  | [], _, _, _ => le_rfl
  | t :: due, o, hdue, hfits => by
    obtain ⟨hnow, hdue⟩ := List.forall_mem_cons.1 hdue
    obtain ⟨hfits, hothers⟩ := List.forall_mem_append.1 hfits
    have hfirst := (burden_runTask hsuits hfits hnow).1
    have hrest := burden_runTasks hsuits due (o.runTask config now t.task) hdue hothers
    rw [List.map_cons, List.foldl_cons, List.map_cons, List.sum_cons]
    omega

end Outcome

namespace Navigator

variable [Scalar α] [Geodesy α] {config : Config α} {now : Int} {W : Weights} {cost : Nat}
  {n : Navigator α}

/-- Doing what is due does not add to the burden, and takes from it if something is due and no batch
is waited for. -/
theorem burden_due (hsuits : W.Suits cost config.coverage.quiet now)
    (hfits : ∀ time ∈ n.reckonedDue config now, Scalar.Fits α time) :
    (n.due config now).burden W ≤ n.timers.weigh W.timer
      ∧ ((∃ t ∈ n.timers.toList, t.due ≤ now) →
        (∀ t, n.tracker = some t → t.inFlight = none) ∨ W.IsStrict config.coverage.quiet now →
        (n.due config now).burden W < n.timers.weigh W.timer) := by
  set popped : Outcome α := ⟨{ n with timers := (n.timers.popDue now).2 }, []⟩
  set due := n.timers.toList.filter fun t => t.due ≤ now
  have hrun : n.due config now = (due.map (·.task)).foldl (Outcome.runTask config now) popped := rfl
  have hweigh : (due.map W.timer).sum + popped.burden W = n.timers.weigh W.timer :=
    n.timers.weigh_popDue W.timer now
  have hdue : ∀ t ∈ due, t.due ≤ now := fun t ht => by simpa using List.of_mem_filter ht
  have hreckoned : n.reckonedDue config now
      = popped.reckonedTasks config now (due.map (·.task)) := rfl
  rw [hreckoned] at hfits
  have hall := Outcome.burden_runTasks hsuits due popped hdue hfits
  rw [hrun]
  refine ⟨by omega, fun ⟨t, ht, hnow⟩ hfree => ?_⟩
  have hmem : t ∈ due := List.mem_filter.2 ⟨ht, decide_eq_true hnow⟩
  rcases hlist : due with _ | ⟨first, rest⟩
  · simp [hlist] at hmem
  · rw [hlist] at hdue hweigh hfits
    obtain ⟨hfirst, hrest⟩ := List.forall_mem_cons.1 hdue
    obtain ⟨hfits, hmore⟩ := List.forall_mem_append.1 hfits
    have hstep := (Outcome.burden_runTask hsuits hfits hfirst).2 hfree
    have hothers := Outcome.burden_runTasks hsuits rest (popped.runTask config now first.task)
      hrest hmore
    rw [List.map_cons, List.sum_cons] at hweigh
    rw [List.map_cons, List.foldl_cons]
    omega

/-- An event takes its own weight off the burden, but for what a failure costs. A tick takes what is
due off it. -/
theorem Reachable.burden_handle (h : Reachable config n)
    (hsuits : W.Suits cost config.coverage.quiet now) {event : Event α}
    (hevent : event.IsPassing) (hrange : ¬ n.Overflows config now event) :
    ∃ o : Outcome α, n.handle config now event = (.ok o.effects, o.navigator)
      ∧ o.burden W < n.timers.weigh W.timer + W.event event
        + (if event.isFailure then cost else 0)
      ∧ (event = .tick → (∃ t ∈ n.timers.toList, t.due ≤ now) →
        (∀ t, n.tracker = some t → t.inFlight = none) ∨ W.IsStrict config.coverage.quiet now →
        o.burden W < n.timers.weigh W.timer) := by
  obtain ⟨o, hok, hpasses⟩ := h.handle_passing now hevent
  have hfits : ∀ time ∈ n.reckoned config now event, Scalar.Fits α time :=
    fun time hmem => fits_of_not_overflows hrange hmem
  obtain ⟨hfits, hmore⟩ := List.forall_mem_append.1 hfits
  obtain ⟨hdue, hstrict⟩ := burden_due hsuits hfits
  have hpos : 0 < W.event event := by
    cases event <;> first | exact hsuits.batch | exact Nat.one_pos
  refine ⟨o, hok, ?_⟩
  rcases hpasses.timers with hsame | ⟨area, rfl, hmem, hset⟩
  · have hburden : o.burden W = (n.due config now).burden W := by
      unfold Outcome.burden
      rw [hsame, hpasses.jobs]
    rw [hburden]
    exact ⟨by omega, fun _ => hstrict⟩
  · have hburden : o.burden W
        = ((n.due config now).scheduleFlush config now area).burden W := by
      unfold Outcome.burden
      rw [hset, hpasses.jobs]
      rfl
    have hcost := hsuits.failure area
    have hadded := Outcome.burden_scheduleFlush_le W (hmore _ hmem) area (n.due config now)
    rw [hburden]
    refine ⟨?_, nofun⟩
    show _ < _ + W.batch + cost
    omega

end Navigator

end Roadbook

import Roadbook.Proofs.Guidance.Run
import Roadbook.Proofs.Guidance.Timers

/-!
# Deadlines and what they are for

The settle delay runs as long as the driver is at the start, and the flush of an area is scheduled
as long as something is pending for it (`Navigator.Reachable.deadlines`). While due tasks run this
is true of the table together with the tasks that are still to run (`Navigator.Aligned`).
-/

namespace Roadbook

namespace Dispatch

variable {α : Type}

/-- A dispatch that comes of another one, with the flushes as they were. -/
structure Follows (d₀ d : Dispatch α) : Prop where
  area : d.session.area = d₀.session.area
  valid : d.timers.Valid
  flush : ∀ area, d.timers.isScheduled (.flush area) = d₀.timers.isScheduled (.flush area)

/-- The settle delay runs just at the start. -/
def IsPunctual (d : Dispatch α) : Prop :=
  d.timers.isScheduled .settle = true ↔ d.session.phase = .atStart

theorem Follows.refl {d : Dispatch α} (h : d.timers.Valid) : Follows d d := ⟨rfl, h, fun _ => rfl⟩

variable {d₀ d : Dispatch α}

theorem Follows.entering (h : Follows d₀ d) (phase : Phase) : Follows d₀ (d.entering phase) := by
  refine ⟨h.area, ?_, fun area => ?_⟩
  · unfold Dispatch.entering
    dsimp only
    split_ifs
    · exact h.valid.cancel _
    · exact h.valid
  · rw [← h.flush area]
    unfold Dispatch.entering
    dsimp only
    split_ifs
    · rw [Bool.eq_iff_iff, Timers.isScheduled_cancel]
      exact and_iff_left (by simp)
    · rfl

theorem isScheduled_settle_entering (h : d.timers.isScheduled .settle = true →
    d.session.phase = .atStart) (phase : Phase) :
    (d.entering phase).timers.isScheduled .settle = false := by
  unfold entering
  dsimp only
  rw [Bool.eq_false_iff]
  split_ifs with hp
  · rw [Ne, Timers.isScheduled_cancel]
    exact fun hs => hs.2 rfl
  · exact fun hs => hp (h hs)

theorem follows_resolve (id : Nat) (found : Option (List (Point α))) (hv : d.timers.Valid)
    (hp : d.IsPunctual) : Follows d (d.resolve id found) ∧ (d.resolve id found).IsPunctual := by
  rcases d.resolve_cases id found with heq | ⟨r, -, -, -, heq⟩ <;> rw [heq]
  · exact ⟨.refl hv, hp⟩
  · exact ⟨⟨rfl, hv, fun _ => rfl⟩, hp⟩

variable [Scalar α] {config : Config α} {now : Int}

theorem Follows.arrange (h : Follows d₀ d) (hno : d.timers.isScheduled .settle = false)
    (before : Phase) :
    Follows d₀ (d.arrange config now before) ∧ (d.arrange config now before).IsPunctual := by
  rcases d.arrange_cases config now before with
    ⟨purpose, a, b, hphase, heq⟩ | ⟨hphase, heq⟩ | ⟨hphase, s, hs, heq⟩ <;> rw [heq]
  · refine ⟨⟨h.area, h.valid, h.flush⟩, ?_⟩
    simp only [IsPunctual, request_eq, hno, ← hphase, Bool.false_eq_true, false_iff]
    cases purpose <;> simp [Purpose.phase]
  · refine ⟨⟨h.area, h.valid.schedule _ _, fun area => ?_⟩, ?_⟩
    · rw [← h.flush area, Bool.eq_iff_iff, Timers.isScheduled_schedule]
      exact or_iff_right (by simp)
    · simp only [IsPunctual, hphase, Timers.isScheduled_schedule, true_or]
  · refine ⟨⟨hs.area.trans h.area, h.valid, h.flush⟩, ?_⟩
    simpa [IsPunctual, withSession, hno, hs.phase] using hphase

/-- After a change of phase the settle delay runs just at the start, even if it was just over. -/
theorem Follows.transition (h : Follows d₀ d)
    (hsettle : d.timers.isScheduled .settle = true → d.session.phase = .atStart) {phase : Phase}
    (hne : d.session.phase ≠ phase) : Follows d₀ (d.transition config now phase)
      ∧ (d.transition config now phase).IsPunctual := by
  rw [transition_of_ne hne]
  exact (h.entering phase).arrange (isScheduled_settle_entering hsettle phase) _

theorem Act.follows {d' : Dispatch α} (hact : Act config now d d') (h : Follows d₀ d)
    (hp : d.IsPunctual) : Follows d₀ d' ∧ d'.IsPunctual := by
  cases hact with
  | @note s hs =>
    refine ⟨⟨hs.area.trans h.area, h.valid, h.flush⟩, ?_⟩
    simpa only [IsPunctual, withSession, hs.phase] using hp
  | report => exact ⟨⟨h.area, h.valid, h.flush⟩, hp⟩
  | move phase =>
    by_cases hne : d.session.phase = phase
    · rw [← hne, transition_self]
      exact ⟨h, hp⟩
    · exact h.transition hp.1 hne
  | ask p =>
    rcases askForStart_cases d p with heq | ⟨b, -, heq⟩ <;> rw [heq]
    · exact ⟨h, hp⟩
    · exact ⟨⟨h.area, h.valid, h.flush⟩, hp⟩

theorem Acts.follows {d' : Dispatch α} (hacts : Acts config now d d') (h : Follows d₀ d)
    (hp : d.IsPunctual) : Follows d₀ d' ∧ d'.IsPunctual := by
  induction hacts with
  | refl => exact ⟨h, hp⟩
  | tail _ hact ih => exact hact.follows ih.1 ih.2

variable [Geodesy α]

/-- The settle delay that is over is not in the table any more, and the driver moves on. -/
theorem follows_settle (hv : d.timers.Valid) (hno : d.timers.isScheduled .settle = false) :
    Follows d (d.settle config now) ∧ (d.settle config now).IsPunctual := by
  unfold settle
  split_ifs with hphase
  · have hne : d.session.phase ≠ .active := by simp [hphase]
    have hmoved : Follows d (d.transition config now .active)
        ∧ (d.transition config now .active).IsPunctual :=
      (Follows.refl hv).transition (fun h => by simp [hno] at h) hne
    have hannounced : Acts config now _ _ := acts_announce (d.transition config now .active)
    exact hannounced.follows hmoved.1 hmoved.2
  · refine ⟨.refl hv, ?_⟩
    simpa [IsPunctual, hno] using hphase

end Dispatch

namespace Navigator

variable {α : Type} {n : Navigator α}

/-- What there is to be a deadline for. -/
def Needs (n : Navigator α) : Task → Prop
  | .settle => n.phase = .atStart
  | .flush area => ∃ t, n.tracker = some t ∧ t.area = area ∧ t.pending.isEmpty = false

/-- What there is to be a deadline for has one or is among the tasks still to run, and there are no
others. -/
structure Aligned (n : Navigator α) (tasks : List Task) : Prop where
  paired : n.IsPaired
  area : ∀ s t, n.session = some s → n.tracker = some t → s.area = t.area
  valid : n.timers.Valid
  nodup : tasks.Nodup
  apart : ∀ task ∈ tasks, n.timers.isScheduled task = false
  needed : ∀ task, n.timers.isScheduled task = true ∨ task ∈ tasks ↔ n.Needs task

theorem aligned_vacant (hs : n.session = none) (ht : n.tracker = none)
    (htimers : n.timers = .empty) : n.Aligned [] where
  paired := by rw [IsPaired, hs, ht]; rfl
  area := by simp [hs]
  valid := htimers ▸ Timers.valid_empty
  nodup := .nil
  apart := by simp
  needed task := by cases task <;> simp [Needs, phase, hs, ht, htimers]

/-- What is due goes from the table to the tasks still to run. -/
theorem Aligned.popDue (h : n.Aligned []) (now : Int) :
    ({ n with timers := (n.timers.popDue now).2 } : Navigator α).Aligned
      (n.timers.popDue now).1 where
  paired := h.paired
  area := h.area
  valid := h.valid.popDue now
  nodup := h.valid.popDue_nodup now
  apart _ := h.valid.not_isScheduled_of_mem_popDue
  needed task := by
    have hneeds := h.needed task
    rw [Timers.isScheduled_iff_popDue now] at hneeds
    cases task <;> simpa [Needs, phase] using hneeds

theorem Aligned.not_isScheduled (h : n.Aligned []) (hs : n.session = none) (ht : n.tracker = none)
    (task : Task) : n.timers.isScheduled task = false := by
  rw [Bool.eq_false_iff]
  intro hsome
  have hneeds := (h.needed task).1 (.inl hsome)
  cases task <;> simp [Needs, phase, hs, ht] at hneeds

end Navigator

namespace Outcome

open Navigator

section Parts

variable {α : Type} {o : Outcome α} {tasks : List Task}

theorem aligned_withDispatch (h : o.navigator.Aligned tasks) {s : Session α}
    (hs : o.navigator.session = some s) {d : Dispatch α} (hd : Dispatch.Follows (o.dispatch s) d)
    (hp : d.IsPunctual) : (o.withDispatch d).navigator.Aligned (tasks.erase .settle) where
  paired := isPaired_withDispatch h.paired hs d
  area := by
    rintro _ t ⟨⟩ ht
    exact hd.area.trans (h.area s t hs ht)
  valid := hd.valid
  nodup := h.nodup.erase _
  apart := by
    rintro (_ | area) hmem
    · exact absurd hmem h.nodup.not_mem_erase
    · exact (hd.flush area).trans (h.apart _ (List.mem_of_mem_erase hmem))
  needed := by
    rintro (_ | area)
    · have hno : .settle ∉ tasks.erase .settle := h.nodup.not_mem_erase
      rw [or_iff_left hno]
      exact hp
    · have hflush : d.timers.isScheduled (.flush area)
          = o.navigator.timers.isScheduled (.flush area) := hd.flush area
      have hneeds := h.needed (.flush area)
      rw [List.mem_erase_of_ne (by simp)]
      simpa only [Needs, withDispatch, hflush] using hneeds

/-- A tracker in place of the one that is loaded, when the flush of its area is scheduled just if
something is pending. -/
theorem aligned_withTracker {t tracker : Tracker α} {timers : Timers}
    (h : o.navigator.Aligned tasks) (ht : o.navigator.tracker = some t)
    (harea : tracker.area = t.area) (hvalid : timers.Valid)
    (hothers : ∀ task, task ≠ .flush t.area →
      timers.isScheduled task = o.navigator.timers.isScheduled task)
    (hflush : timers.isScheduled (.flush t.area) = true ↔ tracker.pending.isEmpty = false) :
    ((o.withTracker (some tracker)).withTimers timers).navigator.Aligned
      (tasks.erase (.flush t.area)) where
  paired := isPaired_withTracker h.paired ht tracker
  area := by
    rintro s _ hs ⟨⟩
    exact (h.area s t hs ht).trans harea.symm
  valid := hvalid
  nodup := h.nodup.erase _
  apart task hmem := by
    obtain ⟨hne, hmem⟩ := h.nodup.mem_erase_iff.1 hmem
    exact (hothers task hne).trans (h.apart task hmem)
  needed task := by
    show timers.isScheduled task = true ∨ task ∈ tasks.erase (.flush t.area) ↔ _
    by_cases htask : task = .flush t.area
    · rw [htask, or_iff_left h.nodup.not_mem_erase, hflush]
      simp [Needs, withTracker, withTimers, harea]
    · rw [hothers task htask, List.mem_erase_of_ne htask, h.needed task]
      cases task with
      | settle => exact Iff.rfl
      | flush area =>
        have hne : ¬ t.area = area := fun heq => htask (by rw [heq])
        simp [Needs, ht, withTracker, withTimers, harea, hne]

theorem aligned_scheduled {t tracker : Tracker α} (h : o.navigator.Aligned tasks)
    (ht : o.navigator.tracker = some t) (harea : tracker.area = t.area)
    (hpending : tracker.pending.isEmpty = false) (due : Int) :
    ((o.withTracker (some tracker)).withTimers
        (o.navigator.timers.schedule (.flush t.area) due)).navigator.Aligned
      (tasks.erase (.flush t.area)) := by
  refine aligned_withTracker h ht harea (h.valid.schedule _ _) (fun task hne => ?_) ?_
  · rw [Bool.eq_iff_iff, Timers.isScheduled_schedule]
    exact or_iff_right hne
  · simp [Timers.isScheduled_schedule, hpending]

variable {config : Config α} {now : Int}

theorem aligned_flush [Scalar α] {area : String} (h : o.navigator.Aligned (.flush area :: tasks)) :
    (o.flush config now area).navigator.Aligned tasks := by
  obtain ⟨t, ht, rfl, hpending⟩ := (h.needed (.flush area)).1 (.inr List.mem_cons_self)
  have hno := h.apart _ List.mem_cons_self
  by_cases hflight : t.inFlight.isSome = true
  · rw [flush_of_inFlight ht hflight]
    have hscheduled :=
      aligned_scheduled h ht rfl hpending (Scalar.wrap α (now + config.coverage.quiet))
    rwa [withTracker_tracker ht, List.erase_cons_head] at hscheduled
  · have hfree : t.inFlight = none := by simpa using hflight
    unfold flush
    simp only [ht, ne_eq, not_true_eq_false, if_false, hflight,
      Tracker.beginFlush_of_pending hfree hpending]
    rw [← List.erase_cons_head (.flush t.area) tasks]
    refine aligned_withTracker h ht rfl h.valid (fun _ _ => rfl) ?_
    simp [hno, IdSet.isEmpty_iff]

theorem aligned_aim (h : o.navigator.Aligned tasks) (fix : Fix α) :
    (o.aim fix).navigator.Aligned tasks := by
  unfold aim
  split
  · split_ifs <;> exact h
  · exact h

theorem aligned_inSession {operation : Dispatch α → Dispatch α}
    (hop : ∀ d, d.timers.Valid → d.IsPunctual →
      Dispatch.Follows d (operation d) ∧ (operation d).IsPunctual)
    (h : o.navigator.Aligned []) : (o.inSession operation).navigator.Aligned [] := by
  rcases hs : o.navigator.session with _ | s
  · rwa [inSession_none hs]
  · rw [inSession_some hs]
    have hp : (o.dispatch s).IsPunctual := by
      simpa [Needs, phase, hs, Dispatch.IsPunctual, dispatch] using h.needed .settle
    obtain ⟨hf, hp⟩ := hop (o.dispatch s) h.valid hp
    exact aligned_withDispatch h hs hf hp

theorem aligned_onFlushed [Scalar α] (h : o.navigator.Aligned []) (area : String)
    (success : Bool) : (o.onFlushed config now area success).navigator.Aligned [] := by
  unfold onFlushed
  split
  · exact h
  · rename_i t ht
    split_ifs with harea
    · exact h
    · obtain rfl : t.area = area := by simpa using harea
      have hkeeps := (t.coversAlike_completeFlush success).area
      dsimp only
      split_ifs with hcase
      · simp only [Bool.and_eq_true, Bool.not_eq_true'] at hcase
        exact aligned_scheduled h ht hkeeps hcase.1 _
      · refine aligned_withTracker h ht hkeeps h.valid (fun _ _ => rfl) ?_
        have hneeds := h.needed (.flush t.area)
        simp only [Needs, ht, Option.some.injEq, exists_eq_left', true_and, List.not_mem_nil,
          or_false] at hneeds
        constructor
        · intro hs
          have hpending := hneeds.1 hs
          rw [Bool.eq_false_iff, Ne, IdSet.isEmpty_iff] at hpending ⊢
          exact fun hno => hpending fun n hn => hno n (Tracker.completeFlush_pending hn)
        · intro hpending
          simpa [hpending] using hcase

theorem aligned_load (h : o.navigator.Aligned []) (hs : o.navigator.session = none)
    (ht : o.navigator.tracker = none) (area : Area α) (ranks : Nat → Nat) (route : Route α)
    (smoother : Smoother α) :
    (o.load area ranks (.ofRoute area.name route smoother)).navigator.Aligned [] where
  paired := rfl
  area := by
    rintro _ _ ⟨⟩ ⟨⟩
    simp [Session.ofRoute]
  valid := h.valid
  nodup := .nil
  apart := by simp
  needed task := by
    show o.navigator.timers.isScheduled task = true ∨ task ∈ [] ↔ _
    rw [h.not_isScheduled hs ht task]
    cases task <;>
      simp [Needs, phase, load, emit, withSession, withTracker, Session.ofRoute, IdSet.isEmpty_iff]

variable [Scalar α]

theorem aligned_acts (config : Config α) (now : Int) {operation : Dispatch α → Dispatch α}
    (hop : ∀ d, Dispatch.Acts config now d (operation d)) (h : o.navigator.Aligned []) :
    (o.inSession operation).navigator.Aligned [] :=
  aligned_inSession (fun d hv hp => (hop d).follows (.refl hv) hp) h

theorem unload_session (o : Outcome α) : (o.unload config now).navigator.session = none :=
  drain_session _

theorem unload_tracker (o : Outcome α) : (o.unload config now).navigator.tracker = none :=
  drain_tracker _

theorem aligned_unload (o : Outcome α) : (o.unload config now).navigator.Aligned [] :=
  aligned_vacant (unload_session o) (unload_tracker o) rfl

theorem aligned_replace (h : o.navigator.Aligned []) (area : Area α) (ranks : Nat → Nat)
    (route : Route α)
    (smoother : Smoother α) :
    (o.replace config now area ranks (.ofRoute area.name route smoother)).navigator.Aligned [] := by
  unfold replace
  split_ifs with hs
  · exact aligned_load (aligned_unload o) (unload_session o) (unload_tracker o) area ranks route
      smoother
  · have hs : o.navigator.session = none := by simpa using hs
    exact aligned_load h hs (h.paired.tracker_eq_none hs) area ranks route smoother

end Parts

variable {α : Type} [Scalar α] [Geodesy α] {config : Config α} {now : Int} {o : Outcome α}
  {tasks : List Task}

theorem aligned_settle (h : o.navigator.Aligned (.settle :: tasks)) :
    (o.inSession (·.settle config now)).navigator.Aligned tasks := by
  rcases hs : o.navigator.session with _ | s
  · have hneeds := (h.needed .settle).1 (.inr List.mem_cons_self)
    simp [Needs, phase, hs] at hneeds
  · rw [inSession_some hs]
    have hno : (o.dispatch s).timers.isScheduled .settle = false := h.apart _ List.mem_cons_self
    have hsettled : Dispatch.Follows _ ((o.dispatch s).settle config now)
        ∧ ((o.dispatch s).settle config now).IsPunctual := Dispatch.follows_settle h.valid hno
    simpa using aligned_withDispatch h hs hsettled.1 hsettled.2

theorem aligned_runTask : ∀ {task : Task}, o.navigator.Aligned (task :: tasks) →
    (o.runTask config now task).navigator.Aligned tasks
  | .settle, h => aligned_settle h
  | .flush _, h => aligned_flush h

theorem aligned_runTasks : ∀ {tasks : List Task} {o : Outcome α}, o.navigator.Aligned tasks →
    (tasks.foldl (runTask config now) o).navigator.Aligned []
  | [], _, h => h
  | _ :: _, _, h => by
    rw [List.foldl_cons]
    exact aligned_runTasks (aligned_runTask h)

theorem aligned_runDue (h : o.navigator.Aligned []) :
    (o.runDue config now).navigator.Aligned [] :=
  aligned_runTasks (o := o.withTimers (o.navigator.timers.popDue now).2) (h.popDue now)

theorem aligned_cover (h : o.navigator.Aligned []) {fix : Fix α} {o' : Outcome α}
    (hcover : o.cover config now fix = .ok o') : o'.navigator.Aligned [] := by
  rcases cover_cases hcover with rfl | ⟨t, hits, tracker, ht, hob, hne, rfl⟩
  · exact h
  · have harea : tracker.area = t.area := by
      cases hob
      rfl
    have hpending : tracker.pending.isEmpty = false := by
      rw [Bool.eq_false_iff, Ne, IdSet.isEmpty_iff] at hne ⊢
      simp only [Tracker.observe_pending hob, IdSet.mem_union, not_or]
      exact fun hno => hne fun n => (hno n).2
    rw [harea]
    exact aligned_scheduled h ht harea hpending _

theorem aligned_onFix (h : o.navigator.Aligned []) {fix : Fix α} {o' : Outcome α}
    (hfix : o.onFix config now fix = .ok o') : o'.navigator.Aligned [] := by
  unfold onFix at hfix
  split at hfix
  · cases hfix
    exact aligned_acts config now Dispatch.acts_loseSignal h
  · have hmoved := aligned_acts config now (Dispatch.acts_applyFix · fix) h
    exact aligned_cover (aligned_aim hmoved fix) hfix

end Outcome

namespace Navigator

variable {α : Type} [Scalar α] [Geodesy α] {config : Config α} {now : Int}

open Outcome

theorem aligned_respond {o : Outcome α} (h : o.navigator.Aligned []) {event : Event α}
    {o' : Outcome α} (hok : respond config now o event = .ok o') : o'.navigator.Aligned [] := by
  cases event with
  | areaLoaded area ranks =>
    obtain ⟨route, smoother, rfl⟩ := respond_areaLoaded hok
    exact aligned_replace h area ranks route smoother
  | fix fix => exact aligned_onFix h hok
  | begin =>
    cases hok
    exact aligned_acts config now Dispatch.acts_begin h
  | acceptOffer =>
    cases hok
    exact aligned_acts config now Dispatch.acts_accept h
  | dismissOffer =>
    cases hok
    exact aligned_acts config now Dispatch.acts_dismiss h
  | directions id path =>
    cases hok
    exact aligned_inSession (fun d => Dispatch.follows_resolve id path) h
  | flushed area success =>
    cases hok
    exact aligned_onFlushed h area success
  | view view =>
    cases hok
    exact ⟨h.paired, h.area, h.valid, h.nodup, h.apart,
      fun task => by cases task <;> exact h.needed _⟩
  | tick =>
    cases hok
    exact aligned_acts config now Dispatch.acts_checkSignal h
  | finish =>
    cases hok
    exact aligned_unload o

theorem Aligned.handle {n : Navigator α} (h : n.Aligned []) (now : Int) (event : Event α) :
    (n.handle config now event).2.Aligned [] := by
  have hdue : (n.due config now).navigator.Aligned [] := aligned_runDue h
  rcases handle_cases config n now event with ⟨o, hok, heq⟩ | ⟨_, _, heq⟩
  · rw [heq]
    exact aligned_respond hdue hok
  · rw [heq]
    exact hdue

theorem Reachable.aligned {n : Navigator α} (h : Reachable config n) : n.Aligned [] := by
  induction h with
  | fresh => exact aligned_vacant rfl rfl rfl
  | handle _ now event ih => exact ih.handle now event

/-- At any time between calls there is a session just if there is a tracker, and then they are of
the same area; the settle delay runs just at the start; and the flush of an area is scheduled just
if the area is loaded and something is pending for it. -/
theorem Reachable.deadlines {n : Navigator α} (h : Reachable config n) :
    (n.session.isSome = n.tracker.isSome
        ∧ ∀ s t, n.session = some s → n.tracker = some t → s.area = t.area)
      ∧ (n.timers.isScheduled .settle = true ↔ ∃ s, n.session = some s ∧ s.phase = .atStart)
      ∧ ∀ area, n.timers.isScheduled (.flush area) = true
          ↔ ∃ t, n.tracker = some t ∧ t.area = area ∧ t.pending.isEmpty = false := by
  have haligned := h.aligned
  have hneeds : ∀ task, n.timers.isScheduled task = true ↔ n.Needs task :=
    fun task => by simpa using haligned.needed task
  refine ⟨⟨haligned.paired, haligned.area⟩, ?_, fun area => hneeds (.flush area)⟩
  rw [hneeds .settle]
  rcases hs : n.session with _ | s
  · simp [Needs, phase, hs]
  · simp [Needs, phase, hs]

/-- At the start of the road the settle delay runs, and the segment there waits for its flush. -/
theorem deadlines_arriving :
    Trial.arriving.timers.isScheduled .settle = true
      ∧ Trial.arriving.timers.isScheduled (.flush "north") = true := by
  have hphase : Trial.arriving.session.map (·.phase) = some .atStart := by decide +kernel
  have hpending : Trial.arriving.tracker.map (fun t => (t.area, t.pending.isEmpty))
      = some ("north", false) := by decide +kernel
  obtain ⟨s, hs, hphase⟩ := Option.map_eq_some_iff.1 hphase
  obtain ⟨t, ht, hpending⟩ := Option.map_eq_some_iff.1 hpending
  obtain ⟨-, hsettle, hflush⟩ := Reachable.deadlines Trial.reachable_arriving
  exact ⟨hsettle.2 ⟨s, hs, hphase⟩,
    (hflush "north").2 ⟨t, ht, congrArg Prod.fst hpending, congrArg Prod.snd hpending⟩⟩

end Navigator

end Roadbook

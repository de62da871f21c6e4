import Roadbook.Proofs.Guidance.Deadlines

/-!
# An area that is refused

An area whose route is no route is refused, after the tasks that are due by then have run and
without their effects being told. So the navigator is left as it was just when there was nothing to
run that makes a difference (`Navigator.Reachable.refused_area_iff`): a due task does, but for a
flush that has to wait for the batch in flight and is put off to the time it had
(`Navigator.IsIdle`).
-/

namespace Roadbook

namespace Navigator

variable {α : Type} [Scalar α] {config : Config α} {now : Int}

/-- Whatever is due is a flush that would get the time it has. -/
def IsIdle (config : Config α) (now : Int) (n : Navigator α) : Prop :=
  ∀ t ∈ n.timers.toList, t.due ≤ now → t.due = Scalar.wrap α (now + config.coverage.quiet)
    ∧ ∃ tracker, n.tracker = some tracker ∧ t.task = .flush tracker.area
      ∧ tracker.inFlight.isSome = true

theorem isIdle_iff_of_lt (hquiet : now < Scalar.wrap α (now + config.coverage.quiet))
    {n : Navigator α} : n.IsIdle config now ↔ ∀ t ∈ n.timers.toList, now < t.due := by
  constructor
  · intro h t ht
    by_contra hdue
    have := (h t ht (by omega)).1
    omega
  · intro h t ht hdue
    have := h t ht
    omega

end Navigator

namespace Outcome

open Navigator

variable {α : Type} [Scalar α] [Geodesy α] {config : Config α} {now : Int} {o : Outcome α}

theorem isIdle_settle (h : o.navigator.IsIdle config now) :
    (o.inSession (·.settle config now)).navigator.IsIdle config now := by
  rcases hs : o.navigator.session with _ | s
  · rwa [inSession_none hs]
  · rw [inSession_some hs]
    intro t ht hdue
    have hmem : t ∈ o.navigator.timers.toList := by
      rcases (o.dispatch s).settle_cases config now with heq | ⟨-, s', told, -, -, heq⟩ <;>
        rw [heq] at ht
      · exact ht
      · exact (Timers.mem_cancel.1 ht).1
    exact h t hmem hdue

omit [Geodesy α] in
/-- A flush is put off to the end of another quiet period, or it has a batch stored when none was
in flight. -/
theorem isIdle_flush (h : o.navigator.IsIdle config now) (area : String) :
    (o.flush config now area).navigator.IsIdle config now := by
  unfold flush
  split
  · exact h
  · rename_i tracker htracker
    split_ifs with harea hflight
    · exact h
    · obtain rfl : tracker.area = area := by simpa using harea
      intro t ht hdue
      rcases Timers.mem_schedule.1 ht with rfl | ⟨ht, -⟩
      · exact ⟨rfl, tracker, htracker, rfl, hflight⟩
      · exact h t ht hdue
    · split
      · intro t ht hdue
        obtain ⟨-, tracker', htracker', -, hflight'⟩ := h t ht hdue
        obtain rfl := Option.some.inj (htracker.symm.trans htracker')
        exact absurd hflight' hflight
      · exact h

theorem isIdle_runTask (h : o.navigator.IsIdle config now) : ∀ task,
    (o.runTask config now task).navigator.IsIdle config now
  | .settle => isIdle_settle h
  | .flush area => isIdle_flush h area

theorem isIdle_runTasks : ∀ (tasks : List Task) {o : Outcome α}, o.navigator.IsIdle config now →
    (tasks.foldl (runTask config now) o).navigator.IsIdle config now
  | [], _, h => h
  | task :: tasks, _, h => by
    rw [List.foldl_cons]
    exact isIdle_runTasks tasks (isIdle_runTask h task)

end Outcome

namespace Navigator

variable {α : Type} [Scalar α] [Geodesy α] {config : Config α} {now : Int} {n : Navigator α}

theorem isIdle_due (config : Config α) (now : Int) (n : Navigator α) :
    (n.due config now).navigator.IsIdle config now := by
  refine Outcome.isIdle_runTasks _ fun t ht hdue => ?_
  have hlater := (Timers.mem_popDue.1 ht).2
  omega

/-- When there is nothing to run that makes a difference, running it makes none. -/
theorem IsIdle.due_eq (h : n.IsIdle config now) (hv : n.timers.Valid) :
    n.due config now = ⟨n, []⟩ := by
  unfold due Outcome.runDue
  by_cases hsome : ∃ t ∈ n.timers.toList, t.due ≤ now
  · obtain ⟨t, ht, hdue⟩ := hsome
    obtain ⟨hquiet, tracker, htracker, htask, hflight⟩ := h t ht hdue
    have hone : ∀ u ∈ n.timers.toList, u.due ≤ now → u = t := by
      intro u hu hudue
      obtain ⟨-, tracker', htracker', htask', -⟩ := h u hu hudue
      obtain rfl := Option.some.inj (htracker.symm.trans htracker')
      exact hv.due_unique hu ht (htask'.trans htask.symm)
    obtain ⟨htasks, htimers⟩ := hv.popDue_of_one ht hdue hone
    rw [htask, hquiet] at htimers
    simp only [htasks, htask, List.foldl_cons, List.foldl_nil, Outcome.runTask]
    have hflush : Outcome.flush config now tracker.area
        (Outcome.withTimers ⟨n, []⟩ (n.timers.popDue now).2)
          = ⟨{ n with timers := n.timers }, []⟩ := by
      rw [Outcome.flush_of_inFlight htracker hflight]
      simp only [Outcome.scheduleFlush, Outcome.withTimers, htimers]
    exact hflush
  · rw [Timers.popDue_of_later fun t ht => by
      by_contra hdue
      exact hsome ⟨t, ht, by omega⟩]
    rfl

/-- An area whose route is no route is refused with the reason for that, and it leaves the navigator
as it was just when there was nothing to run that makes a difference. Then nothing is kept from the
caller either. -/
theorem Reachable.refused_area_iff (h : Reachable config n) (now : Int) {area : Area α}
    {ranks : Nat → Nat} {fault : RouteError α}
    (hroute : Route.ofPoints config.turns area.route = .error fault) :
    (n.handle config now (.areaLoaded area ranks)).1 = .error (.route fault)
      ∧ ((n.handle config now (.areaLoaded area ranks)).2 = n ↔ n.IsIdle config now)
      ∧ (n.IsIdle config now → (n.due config now).effects = []) := by
  have hhandle : n.handle config now (.areaLoaded area ranks)
      = (.error (.route fault), (n.due config now).navigator) := by
    simp only [Navigator.handle, respond, hroute]
  rw [hhandle]
  refine ⟨rfl, ⟨fun heq => ?_, fun hidle => ?_⟩, fun hidle => ?_⟩
  · rw [← heq]
    exact isIdle_due config now n
  · rw [hidle.due_eq h.aligned.valid]
  · rw [hidle.due_eq h.aligned.valid]

/-- At the start of the road, before the settle delay is over, an area of a single point is refused
and nothing changes. -/
theorem refused_area_arriving :
    (Trial.arriving.handle .standard 1000 (.areaLoaded Trial.pointless)).2 = Trial.arriving := by
  have hroute : Route.ofPoints Config.standard.turns Trial.pointless.route
      = .error (.tooFewPoints 1) := by decide +kernel
  have hlater : ∀ t ∈ Trial.arriving.timers.toList, 1000 < t.due := by decide +kernel
  obtain ⟨-, hkept, -⟩ := Reachable.refused_area_iff Trial.reachable_arriving 1000 hroute
  exact hkept.2 ((isIdle_iff_of_lt (by decide)).2 hlater)

/-- Once the settle delay is over the same area makes the driver move on, and nobody is told. -/
theorem refused_area_changes : ¬ ∀ (config : Config ℚ) (n : Navigator ℚ) (now : Int)
    (area : Area ℚ) (fault : RouteError ℚ), Reachable config n →
    Route.ofPoints config.turns area.route = .error fault →
    (n.handle config now (.areaLoaded area)).2 = n := by
  intro hkept
  have hroute : Route.ofPoints Config.standard.turns Trial.pointless.route
      = .error (.tooFewPoints 1) := by decide +kernel
  have hphase := congrArg phase
    (hkept .standard Trial.arriving 1500 Trial.pointless _ Trial.reachable_arriving hroute)
  have hmoved : (Trial.arriving.handle .standard 1500 (.areaLoaded Trial.pointless)).2.phase
      ≠ Trial.arriving.phase := by decide +kernel
  exact hmoved hphase

end Navigator

end Roadbook

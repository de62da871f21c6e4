import Roadbook.Proofs.Guidance.NewArea
import Roadbook.Proofs.Replay.Course
import Roadbook.Proofs.Replay.Replies

/-!
# What a replay halts on

A replay whose area is refused halts at once and leaves its host alone (`Replay.run_refused`). Any
other replay halts on nothing that it could tell of in order, and once its area has been loaded none
is remembered any more (`Replay.isLoaded_run`).
-/

namespace Roadbook

variable {σ α : Type}

/-- The replay is not asked for more than can be dealt with, and comes to an end. -/
def Halt.IsOrderly (halt : Halt α) : Prop := halt.isBeyondLimits = false ∧ halt ≠ .endless

/-- True of hosts whatever they store and show. -/
structure Rig.Keeps (rig : Rig σ α) (Q : σ → Prop) : Prop where
  persist : ∀ {h : σ} (batch : Batch), Q h → Q (rig.persist h batch).2
  display : ∀ {h : σ} (effect : Effect α), Q h → Q (rig.display h effect)

namespace Replay

variable {rig : Rig σ α} {Q : σ → Prop} {r : Replay σ α}

/-- The area has been loaded and will not be unloaded by what waits in the queue. -/
structure IsLoaded (Q : σ → Prop) (r : Replay σ α) : Prop where
  halt : ∀ halt, r.halt = some halt → ¬ halt.IsOrderly
  queue : ∀ e ∈ r.queue, ¬ e.Unloads
  host : Q r.host

theorem IsLoaded.stays (h : r.IsLoaded Q) {r' : Replay σ α} (hstays : r.Stays r')
    (hhost : Q r'.host) : r'.IsLoaded Q := by
  refine ⟨fun halt hhalt => h.halt halt ?_,
    hstays.forall_queue (fun _ => Event.IsReply.not_unloads) h.queue, hhost⟩
  rwa [← hstays.halt]

theorem IsLoaded.dispatch (hrig : rig.Keeps Q) (h : r.IsLoaded Q) {effect : Effect α}
    (hsilent : ¬ effect.Remembers) : (r.dispatch rig effect).IsLoaded Q := by
  refine h.stays (stays_dispatch rig r effect) ?_
  by_cases hshown : effect.isShown = true
  · rw [dispatch_of_isShown hshown]
    exact hrig.display effect h.host
  cases effect with
  | requestDirections request => exact h.host
  | persist batch last =>
    cases last with
    | false => exact h.host
    | true => exact hrig.persist batch h.host
  | rememberArea area => exact absurd trivial hsilent
  | _ => exact absurd rfl hshown

theorem IsLoaded.dispatches (hrig : rig.Keeps Q) : ∀ {effects : List (Effect α)}
    {r : Replay σ α}, r.IsLoaded Q → (∀ e ∈ effects, ¬ e.Remembers) →
      (effects.foldl (Replay.dispatch rig) r).IsLoaded Q
  | [], _, h, _ => h
  | effect :: effects, _, h, hsilent => by
    obtain ⟨heffect, hsilent⟩ := List.forall_mem_cons.1 hsilent
    rw [List.foldl_cons]
    exact IsLoaded.dispatches hrig (h.dispatch hrig heffect) hsilent

theorem host_performs (hrig : rig.Keeps Q) : ∀ (done : List (Job α)) {r : Replay σ α},
    Q r.host → Q (done.foldl (perform rig) r).host
  | [], _, h => h
  | .directions _ :: done, _, h => host_performs hrig done h
  | .persist batch :: done, _, h => host_performs hrig done (hrig.persist batch h)

variable [Scalar α] [Geodesy α]

theorem IsLoaded.handle (hrig : rig.Keeps Q) (h : r.IsLoaded Q) {event : Event α}
    (hevent : ∀ area ranks, event ≠ .areaLoaded area ranks) : (r.handle rig event).IsLoaded Q := by
  by_cases hgoes : r.halt = none
  · rcases handle_cases hgoes rig event with
      ⟨effects, n, hcall, -, heq⟩ | ⟨reason, n, hrefused, heq⟩ <;> rw [heq]
    · have hcalled : ({ r with navigator := n } : Replay σ α).IsLoaded Q :=
        ⟨h.halt, h.queue, h.host⟩
      exact hcalled.dispatches hrig (Navigator.not_remembers_handle hevent hcall)
    · have hlimits : reason.isBeyondLimits = true := by
        rcases hrefused with hcall | ⟨rfl, -⟩
        · rw [Navigator.refusal_of_handle hevent hcall]
          rfl
        · rfl
      refine ⟨fun halt hhalt => ?_, h.queue, h.host⟩
      obtain rfl := Option.some.inj hhalt
      rintro ⟨hwithin, -⟩
      cases hlimits.symm.trans hwithin
  · rwa [handle_of_halt hgoes]

theorem isInvariant_isLoaded (hrig : rig.Keeps Q) : IsInvariant rig (IsLoaded Q) where
  wait h := h.stays (stays_wait rig _) (host_performs hrig _ h.host)
  clock _ h := ⟨h.halt, h.queue, h.host⟩
  giveUp r halt hhalt h := by
    refine ⟨fun halt' heq => ?_, h.queue, h.host⟩
    obtain rfl := Option.some.inj heq
    rintro ⟨hlimits, hends⟩
    rcases hhalt with rfl | rfl
    · cases hlimits
    · exact hends rfl
  pop {r event events} hqueue h := by
    have hevents := h.queue
    rw [hqueue] at hevents
    obtain ⟨hevent, hevents⟩ := List.forall_mem_cons.1 hevents
    have hpopped : ({ r with queue := events } : Replay σ α).IsLoaded Q :=
      ⟨h.halt, hevents, h.host⟩
    refine hpopped.handle hrig ?_
    rintro area ranks rfl
    exact hevent trivial
  fix _ h := h.handle hrig (by simp)
  begin h := h.handle hrig (by simp)
  tick h := h.handle hrig (by simp)

omit [Scalar α] [Geodesy α] in
theorem wait_of_jobs (rig : Rig σ α) (hjobs : r.jobs = []) :
    (r.wait rig).halt = r.halt ∧ (r.wait rig).host = r.host := by
  unfold wait
  have hperm := rig.schedule.perm_split r.waits r.jobs
  rcases hsplit : rig.schedule.split r.waits r.jobs with ⟨done, left⟩
  rw [hsplit, hjobs, List.perm_nil, List.append_eq_nil_iff] at hperm
  obtain ⟨rfl, -⟩ := hperm
  exact ⟨rfl, rfl⟩

theorem emptyQueue_of_halt (rig : Rig σ α) (hhalt : r.halt ≠ none) :
    r.emptyQueue rig patience = r := by
  obtain ⟨n, hn⟩ : ∃ n, patience = n + 1 := ⟨2 ^ 62 - 1, by decide⟩
  rw [hn, emptyQueue, if_pos (Option.ne_none_iff_isSome.1 hhalt)]

/-- A replay that has halted with nothing left to do goes no further. -/
theorem rest_of_halt (rig : Rig σ α) {halt : Halt α} (hhalt : r.halt = some halt)
    (hjobs : r.jobs = []) (fixes : List (Fix α)) :
    ((r.drive rig fixes).finish rig).halt = some halt
      ∧ ((r.drive rig fixes).finish rig).host = r.host := by
  have hdrive : r.drive rig fixes = r := by
    cases fixes with
    | nil => rfl
    | cons first fixes => rw [drive, if_pos (by simp [hhalt])]
  obtain ⟨hwaited, hhost⟩ := wait_of_jobs rig hjobs
  have hhalted : (r.wait rig).halt ≠ none := by simp [hwaited, hhalt]
  rw [hdrive, finish, emptyQueue_of_halt rig hhalted, handle_of_halt hhalted]
  exact ⟨hwaited.trans hhalt, hhost⟩

/-- Refusing the area ends a replay, with its host as it was. -/
theorem run_refused (rig : Rig σ α) (host : σ) {area : Area α} {reason : Refusal α}
    {n : Navigator α}
    (hrefused : (vacant rig).handle rig.config 0 (.areaLoaded area rig.ranks) = (.error reason, n))
    (fixes : List (Fix α)) : (run rig host area fixes).halt = some (.refusal reason)
      ∧ (run rig host area fixes).host = host := by
  have hload : (start host).load rig area
      = { start host with navigator := n, halt := some (.refusal reason) } := by
    rw [load_eq, Replay.handle, if_neg (by simp [start]), answer_of_vacant rfl]
    dsimp only [start]
    rw [hrefused]
    rfl
  rw [run, hload]
  exact rest_of_halt rig rfl rfl fixes

/-- Once its area is loaded, a replay remembers no other one and halts on nothing that it could tell
of in order. -/
theorem isLoaded_run (rig : Rig σ α) (host : σ) {area : Area α} {route : Route α}
    (hroute : Route.ofPoints rig.config.turns area.route = .ok route)
    (hroom : rig.config.smoothing.capacity < Smoother.tooManySamples) {R Q : σ → Prop}
    (hR : rig.Keeps R) (hQ : rig.Keeps Q) (hname : ∀ h, R h → Q (rig.rememberArea h area.name))
    (hhost : R host) (fixes : List (Fix α)) : (run rig host area fixes).IsLoaded Q := by
  have hload : ((start host).load rig area).IsLoaded Q := by
    have hcall := (Navigator.reachable_vacant ⟨rig.follow, false⟩).handle_areaLoaded 0
      rig.ranks hroute hroom
    rw [load_eq, Replay.handle, if_neg (by simp [start]), answer_of_vacant rfl]
    dsimp only [start, vacant]
    rw [hcall]
    let r : Replay σ α := { start host with
      navigator := .loadedWith area rig.ranks (.ofRoute area.name route .fresh) ⟨rig.follow, false⟩ }
    let shown : List (Effect α) := [.showRoute route, .showCoverage
      (Tracker.ofArea area).driven.toList (Tracker.ofArea area).undriven.toList,
      .phaseChanged .setup .preview]
    have hr : r.IsLoaded R := ⟨by simp [r, start], by simp [r, start], hhost⟩
    have hshown : (shown.foldl (Replay.dispatch rig) r).IsLoaded R :=
      hr.dispatches hR (by simp [shown, Effect.Remembers])
    show ((shown ++ [Effect.rememberArea area.name]).foldl (Replay.dispatch rig) r).IsLoaded Q
    rw [List.foldl_append]
    exact ⟨hshown.halt, hshown.queue, hname _ hshown.host⟩
  have hending := (isInvariant_isLoaded hQ).ending hload fixes
  have hfinish : ∀ area ranks, (.finish : Event α) ≠ .areaLoaded area ranks := by simp
  exact hending.handle hQ hfinish

end Replay

end Roadbook

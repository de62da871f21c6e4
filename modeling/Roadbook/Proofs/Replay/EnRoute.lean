import Roadbook.Proofs.Coverage.Debounce
import Roadbook.Proofs.Replay.Burden
import Roadbook.Proofs.Replay.Resuming

/-!
# The way from one fix to another

Whatever has happened in a replay, the outcome of a batch that is in flight is still to come
(`Replay.Arises.isAttended`). On the way to a fix nothing is refused, and as long as nothing
overflows what there is to do goes down with every step, but for batches that were not stored
(`Replay.IsAttended.burden_step`).
-/

namespace Roadbook

variable {σ α : Type}

/-- An event accepts an offer, or tells of the outcome of a job. -/
def Rig.Gives (rig : Rig σ α) (event : Event α) : Prop :=
  event = .acceptOffer ∨ ∃ job, rig.Answers job event

theorem Rig.Gives.isPassing {rig : Rig σ α} {event : Event α} (h : rig.Gives event) :
    event.IsPassing := by
  rcases h with rfl | ⟨request | batch, hanswer⟩
  · trivial
  · rw [hanswer]
    trivial
  · obtain ⟨host, rfl⟩ := hanswer
    trivial

namespace Tracker

variable {t t' : Tracker α} {told new : List (Effect α)}

theorem Flushed.eq_or_handedOut (h : t.Flushed t' told) :
    t' = t ∨ ∃ batch, batch.area = t'.area ∧ .persist batch false ∈ told := by
  cases h with
  | idle => exact .inl rfl
  | begun hbegin =>
    obtain ⟨-, -, rfl, rfl⟩ := beginFlush_eq_some.1 hbegin
    exact .inr ⟨_, rfl, List.mem_singleton_self _⟩

/-- A batch that is in flight after an event was so before, and the event does not tell of its
outcome. -/
theorem Answered.of_inFlight [Scalar α] [Geodesy α] {config : Config α} {a : Answer α}
    (h : t.Answered config a t' new) (hflight : t'.inFlight ≠ none) :
    t.inFlight ≠ none ∧ t'.area = t.area ∧ ∀ success, a.event ≠ .flushed t.area success := by
  have hsurvey : ∀ {p}, a.surveyed? config = some p →
      ∀ success, a.event ≠ .flushed t.area success := by
    intro p hp success hevent
    simp [Answer.surveyed?, hevent] at hp
  cases h with
  | quiet _ hevent => exact ⟨hflight, rfl, hevent⟩
  | completed => exact absurd (t.completeFlush_inFlight _) hflight
  | missed hp => exact ⟨hflight, rfl, hsurvey hp⟩
  | observed hp hob =>
    cases hob
    exact ⟨hflight, rfl, hsurvey hp⟩

/-- Nothing that is owed is given up, unless a batch was stored. -/
theorem Answered.owes [Scalar α] [Geodesy α] {config : Config α} {a : Answer α}
    (h : t.Answered config a t' new) (hfails : ∀ area, a.event ≠ .flushed area true) {id : Nat}
    (howes : t.Owes id) : t'.Owes id := by
  cases h with
  | quiet | missed => exact howes
  | @completed success hevent =>
    cases success with
    | false => exact (t.owes_completeFlush_false id).2 howes
    | true => exact absurd hevent (hfails _)
  | observed _ hob => exact (owes_observe hob id).2 (.inl howes)

end Tracker

namespace Navigator

open Effect

variable [Scalar α] [Geodesy α] {config : Config α} {now : Int} {n n' : Navigator α}
  {event : Event α} {effects : List (Effect α)}

/-- A batch that is in flight after a call is handed out by it, or was in flight before and the call
does not tell of its outcome. -/
theorem Reachable.inFlight_handle (h : Reachable config n)
    (hok : n.handle config now event = (.ok effects, n')) {t' : Tracker α}
    (ht' : n'.tracker = some t') (hflight : t'.inFlight ≠ none) :
    (∃ batch, batch.area = t'.area ∧ .persist batch false ∈ effects)
      ∨ ∃ t, n.tracker = some t ∧ t.area = t'.area ∧ t.inFlight ≠ none
        ∧ ∀ success, event ≠ .flushed t'.area success := by
  have ha : n.answer config now event = ⟨now, event, .ok effects, n'⟩ := by
    simp only [answer, hok]
  have hloaded : (n.answer config now event).navigator.tracker = some t' := by rwa [ha]
  rcases h.loaded_cases hloaded with ⟨area, ranks, session, view, -, -, heq⟩ | ⟨hunloads, t, ht⟩
  · rw [ha] at heq
    obtain rfl : n' = loadedWith area ranks session view := heq
    obtain rfl := Option.some.inj ht'
    exact absurd (Tracker.ofArea_inFlight area ranks) hflight
  · obtain ⟨t₁, ht₁, hflushed⟩ := flushed_due ht config now
    rcases handle_cases config n now event with ⟨o, hrespond, heq⟩ | ⟨refusal, -, heq⟩
    · cases hok.symm.trans heq
      have hkeeps : ¬ event.Unloads := fun hevent => hunloads ⟨hevent, by rw [ha]; rfl⟩
      obtain ⟨t₂, new, ht₂, hbooked, hanswered⟩ := answered_respond ht₁ hrespond hkeeps
      obtain rfl := Option.some.inj (ht'.symm.trans ht₂)
      obtain ⟨hflight₁, harea, hevent⟩ := hanswered.of_inFlight hflight
      rcases hflushed.eq_or_handedOut with rfl | ⟨batch, hbatch, hmem⟩
      · exact .inr ⟨t₁, ht, harea.symm, hflight₁, by rwa [harea]⟩
      · refine .inl ⟨batch, hbatch.trans harea.symm, persist_mem_booked.1 ?_⟩
        rw [hbooked]
        exact List.mem_append_left _ hmem
    · cases hok.symm.trans heq

/-- Nothing that is owed is given up on the way, unless a batch was stored. -/
theorem Reachable.owes_handle (h : Reachable config n) (now : Int) {event : Event α}
    (hevent : event.IsPassing) (hfails : ∀ area, event ≠ .flushed area true) {t : Tracker α}
    (ht : n.tracker = some t) {id : Nat} (howes : t.Owes id) :
    ∃ t', (n.handle config now event).2.tracker = some t' ∧ t'.Owes id := by
  obtain ⟨t₁, ht₁, hflushed⟩ := flushed_due ht config now
  have haligned : (n.due config now).navigator.Aligned [] := Outcome.aligned_runDue h.aligned
  obtain ⟨o, hok, -⟩ := Outcome.respond_passing config now haligned hevent
  obtain ⟨t₂, new, ht₂, -, hanswered⟩ := answered_respond ht₁ hok hevent.not_unloads
  refine ⟨t₂, ?_, hanswered.owes hfails ((hflushed.owes id).2 howes)⟩
  simp only [Navigator.handle, hok, ht₂]

end Navigator

namespace Replay

variable {rig : Rig σ α} {r : Replay σ α}

/-- The outcome of a batch of an area is still to come. -/
def Awaits (r : Replay σ α) (area : String) : Prop :=
  (∃ batch, batch.area = area ∧ .persist batch ∈ r.jobs)
    ∨ ∃ success, .flushed area success ∈ r.queue

theorem jobs_dispatches (rig : Rig σ α) : ∀ (effects : List (Effect α)) (r : Replay σ α),
    (effects.foldl (dispatch rig) r).jobs = r.jobs ++ Effect.jobs effects
  | [], r => (List.append_nil _).symm
  | effect :: effects, r => by
    have hone : (r.dispatch rig effect).jobs = r.jobs ++ Effect.jobs [effect] := by
      by_cases hshown : effect.isShown = true
      · have hnone : effect.job? = none := by
          cases effect <;> first | rfl | cases hshown
        rw [dispatch_of_isShown hshown, Effect.jobs_eq_nil (List.forall_mem_singleton.2 hnone),
          List.append_nil]
      · cases effect with
        | requestDirections => rfl
        | rememberArea => exact (List.append_nil _).symm
        | persist batch last =>
          cases last with
          | false => rfl
          | true => exact (List.append_nil _).symm
        | _ => exact absurd rfl hshown
    rw [List.foldl_cons, jobs_dispatches rig effects, hone, List.append_assoc,
      ← Effect.jobs_append]
    rfl

variable [Scalar α] [Geodesy α]

/-- A replay has carried out what the navigator tells of. -/
structure IsCarriedOut (rig : Rig σ α) (effects : List (Effect α)) (n : Navigator α)
    (r r' : Replay σ α) : Prop where
  navigator : r'.navigator = n
  clock : r'.clock = r.clock
  halt : r'.halt = r.halt
  jobs : r'.jobs = r.jobs ++ Effect.jobs effects
  queue : r'.queue = r.queue ++ acceptances rig effects

omit [Scalar α] [Geodesy α] in
theorem isCarriedOut (rig : Rig σ α) (effects : List (Effect α)) (n : Navigator α)
    (r : Replay σ α) :
    r.IsCarriedOut rig effects n (effects.foldl (dispatch rig) { r with navigator := n }) := by
  have hstays := stays_dispatches rig effects { r with navigator := n }
  exact ⟨hstays.navigator, hstays.clock, hstays.halt, jobs_dispatches rig effects _,
    queue_dispatches rig effects _⟩

/-- An event that is not refused is carried out, unless something overflows. -/
theorem carries_out {event : Event α} (hgoes : r.halt = none)
    (hrange : ¬ r.navigator.Overflows rig.config r.clock event) {effects : List (Effect α)}
    {n : Navigator α} (hok : r.navigator.handle rig.config r.clock event = (.ok effects, n)) :
    r.IsCarriedOut rig effects n (r.handle rig event) := by
  have hanswer : r.answer rig event = (.ok effects, n) := by
    rw [← hok]
    exact ((r.answer_cases rig event).resolve_right fun htrapped => hrange htrapped.1).2
  have hhandle : r.handle rig event = effects.foldl (dispatch rig) { r with navigator := n } := by
    unfold handle
    rw [if_neg (by simp [hgoes]), hanswer]
  rw [hhandle]
  exact isCarriedOut rig effects n r

/-- The outcome of a batch in flight is still to come. -/
structure IsAttended (rig : Rig σ α) (r : Replay σ α) : Prop where
  navigator : Navigator.Reachable rig.config r.navigator
  queue : ∀ e ∈ r.queue, rig.Gives e
  awaited : r.halt = none → ∀ t, r.navigator.tracker = some t → t.inFlight ≠ none →
    r.Awaits t.area

namespace IsAttended

theorem wait (h : r.IsAttended rig) : (r.wait rig).IsAttended rig := by
  have hstays := stays_wait rig r
  obtain ⟨outcomes, hdone, hqueue, hanswers, -⟩ := wait_answers rig r
  refine ⟨?_, ?_, fun hgoes t ht hflight => ?_⟩
  · rw [hstays.navigator]
    exact h.navigator
  · rw [hqueue]
    refine List.forall_mem_append.2 ⟨h.queue, List.forall_mem_map.2 fun outcome houtcome => ?_⟩
    exact .inr ⟨outcome.1, hanswers outcome houtcome⟩
  · rw [hstays.halt] at hgoes
    rw [hstays.navigator] at ht
    rcases h.awaited hgoes t ht hflight with ⟨batch, hbatch, hjob⟩ | ⟨success, hmem⟩
    · rcases List.mem_append.1 (hdone.mem_iff.2 hjob) with hmem | hopen
      · obtain ⟨⟨job, event⟩, hmem, rfl⟩ := List.mem_map.1 hmem
        obtain ⟨host, rfl⟩ := hanswers _ hmem
        refine .inr ⟨(rig.persist host batch).1, ?_⟩
        rw [hqueue, ← hbatch]
        exact List.mem_append_right _ (List.mem_map.2 ⟨_, hmem, rfl⟩)
      · exact .inl ⟨batch, hbatch, hopen⟩
    · refine .inr ⟨success, ?_⟩
      rw [hqueue]
      exact List.mem_append_left _ hmem

/-- Handling an event needs no more than that the outcomes it does not tell of are to come. -/
theorem of_handle (hnavigator : Navigator.Reachable rig.config r.navigator)
    (hqueue : ∀ e ∈ r.queue, rig.Gives e) (event : Event α)
    (hawaited : r.halt = none → ∀ t, r.navigator.tracker = some t → t.inFlight ≠ none →
      (∀ success, event ≠ .flushed t.area success) → r.Awaits t.area) :
    (r.handle rig event).IsAttended rig := by
  by_cases hgoes : r.halt = none
  · have hreach := hnavigator.handle r.clock event
    rw [← (handled hgoes rig event).1] at hreach
    rcases handle_cases hgoes rig event with ⟨effects, n, hhandle, -, heq⟩ | ⟨_, _, -, heq⟩ <;>
      rw [heq] at hreach ⊢
    · obtain ⟨hnav, -, -, hjobs, hqueue'⟩ := isCarriedOut rig effects n r
      refine ⟨hreach, ?_, fun _ t ht hflight => ?_⟩
      · rw [hqueue']
        exact List.forall_mem_append.2 ⟨hqueue, fun e he => .inl (eq_of_mem_acceptances he)⟩
      · rw [hnav] at ht
        unfold Awaits
        rw [hjobs, hqueue']
        rcases hnavigator.inFlight_handle hhandle ht hflight with
          ⟨batch, hbatch, hmem⟩ | ⟨t₀, ht₀, harea, hflight₀, hevent⟩
        · refine .inl ⟨batch, hbatch, List.mem_append_right _ ?_⟩
          exact List.mem_filterMap.2 ⟨_, hmem, rfl⟩
        · rw [← harea] at hevent ⊢
          exact (hawaited hgoes t₀ ht₀ hflight₀ hevent).imp
            (fun ⟨batch, hbatch, hjob⟩ => ⟨batch, hbatch, List.mem_append_left _ hjob⟩)
            fun ⟨success, hmem⟩ => ⟨success, List.mem_append_left _ hmem⟩
    · exact ⟨hreach, hqueue, nofun⟩
  · rw [handle_of_halt hgoes]
    exact ⟨hnavigator, hqueue, fun hgone => absurd hgone hgoes⟩

theorem handle (h : r.IsAttended rig) (event : Event α) : (r.handle rig event).IsAttended rig :=
  of_handle h.navigator h.queue event fun hgoes t ht hflight _ => h.awaited hgoes t ht hflight

theorem pop (h : r.IsAttended rig) {event : Event α} {events : List (Event α)}
    (hqueue : r.queue = event :: events) :
    ({ r with queue := events }.handle rig event).IsAttended rig := by
  have hreplies := h.queue
  rw [hqueue] at hreplies
  refine of_handle (r := { r with queue := events }) h.navigator
    (List.forall_mem_cons.1 hreplies).2 event fun hgoes t ht hflight hother => ?_
  refine (h.awaited hgoes t ht hflight).imp_right fun ⟨success, hmem⟩ => ⟨success, ?_⟩
  rw [hqueue] at hmem
  exact (List.mem_cons.1 hmem).resolve_left (hother success).symm

/-- Once nothing is left to be told of, no batch is on its way. -/
theorem inFlight_eq_none (h : r.IsAttended rig) (hgoes : r.halt = none) (hjobs : r.jobs = [])
    (hqueue : r.queue = []) {t : Tracker α} (ht : r.navigator.tracker = some t) :
    t.inFlight = none := by
  by_contra hflight
  rcases h.awaited hgoes t ht hflight with ⟨batch, -, hjob⟩ | ⟨success, hmem⟩
  · simp [hjobs] at hjob
  · simp [hqueue] at hmem

end IsAttended

theorem isInvariant_isAttended (rig : Rig σ α) : IsInvariant rig (IsAttended rig) where
  wait h := h.wait
  clock _ h := ⟨h.navigator, h.queue, h.awaited⟩
  giveUp _ _ _ h := ⟨h.navigator, h.queue, nofun⟩
  pop hqueue h := h.pop hqueue
  fix fix h := h.handle (.fix fix)
  begin h := h.handle .begin
  tick h := h.handle .tick

theorem Arises.isAttended (h : Arises rig r) : r.IsAttended rig := by
  induction h with
  | start host => exact ⟨.fresh, nofun, fun _ _ ht => nomatch ht⟩
  | load _ area ih =>
    exact (ih.handle (.view ⟨rig.follow, false⟩)).handle (.areaLoaded area rig.ranks)
  | drive _ fixes ih => exact (isInvariant_isAttended rig).drive ih fixes

/-- What there is to do about the deadlines, the open jobs and the events in the queue. -/
def burden (W : Weights) (r : Replay σ α) : Nat :=
  r.navigator.timers.weigh W.timer + (r.jobs.map W.job).sum + (r.queue.map W.event).sum

/-- How many of some calls tell of a batch that was not stored. -/
def failures (calls : List (Int × Event α)) : Nat := calls.countP fun call => call.2.isFailure

omit [Scalar α] [Geodesy α] in
/-- The outcome of a job weighs as much as the job. -/
theorem burden_wait (W : Weights) (rig : Rig σ α) (r : Replay σ α) :
    (r.wait rig).burden W = r.burden W := by
  obtain ⟨outcomes, hdone, hqueue, hanswers, -⟩ := wait_answers rig r
  have hweigh : ∀ outcome ∈ outcomes, W.event outcome.2 = W.job outcome.1 := by
    rintro ⟨job, event⟩ houtcome
    have hanswer := hanswers _ houtcome
    cases job with
    | directions request =>
      obtain rfl := hanswer
      rfl
    | persist batch =>
      obtain ⟨host, rfl⟩ := hanswer
      rfl
  have hoff : (outcomes.map (W.event ·.2)).sum = (outcomes.map (W.job ·.1)).sum :=
    congrArg List.sum (List.map_congr_left hweigh)
  have hjobs := (hdone.map W.job).sum_eq
  rw [List.map_append, List.sum_append, List.map_map] at hjobs
  unfold burden
  rw [(stays_wait rig r).navigator, hqueue, List.map_append, List.sum_append, List.map_map]
  simp only [Function.comp_def] at hjobs ⊢
  omega

omit [Scalar α] [Geodesy α] in
theorem burden_mono {W W' : Weights} (htimer : ∀ t, W'.timer t ≤ W.timer t)
    (hbatch : W'.batch ≤ W.batch) (r : Replay σ α) : r.burden W' ≤ r.burden W := by
  have htimers : r.navigator.timers.weigh W'.timer ≤ r.navigator.timers.weigh W.timer :=
    List.sum_le_sum fun t _ => htimer t
  have hjobs : (r.jobs.map W'.job).sum ≤ (r.jobs.map W.job).sum := by
    refine List.sum_le_sum fun job _ => ?_
    cases job <;> first | exact hbatch | exact le_rfl
  have hqueue : (r.queue.map W'.event).sum ≤ (r.queue.map W.event).sum := by
    refine List.sum_le_sum fun event _ => ?_
    cases event <;> first | exact hbatch | exact le_rfl
  unfold burden
  omega

omit [Scalar α] [Geodesy α] in
theorem burden_cons {event : Event α} {events : List (Event α)} (hqueue : r.queue = event :: events)
    (W : Weights) : r.burden W = ({ r with queue := events } : Replay σ α).burden W
      + W.event event := by
  unfold burden
  rw [hqueue, List.map_cons, List.sum_cons]
  dsimp only
  omega

variable {W : Weights} {cost : Nat}

/-- Nothing that the navigator is told on the way is refused. -/
theorem burden_handle (hnavigator : Navigator.Reachable rig.config r.navigator)
    (hgoes : r.halt = none) (hsuits : W.Suits cost rig.config.coverage.quiet r.clock)
    {event : Event α} (hevent : event.IsPassing)
    (hrange : ¬ r.navigator.Overflows rig.config r.clock event) :
    (r.handle rig event).halt = none
      ∧ (r.handle rig event).burden W < r.burden W + W.event event
        + (if event.isFailure then cost else 0)
      ∧ (event = .tick → (∃ t ∈ r.navigator.timers.toList, t.due ≤ r.clock) →
        (∀ t, r.navigator.tracker = some t → t.inFlight = none)
          ∨ W.IsStrict rig.config.coverage.quiet r.clock →
        (r.handle rig event).burden W < r.burden W) := by
  obtain ⟨o, hok, hburden, htick⟩ := hnavigator.burden_handle hsuits hevent hrange
  obtain ⟨hnav, -, hgone, hjobs, -⟩ := carries_out hgoes hrange hok
  have hqueue := queue_handle_other (r := r) rig event hevent.fix_ne
  have hafter : (r.handle rig event).burden W
      = o.burden W + (r.jobs.map W.job).sum + (r.queue.map W.event).sum := by
    unfold burden Outcome.burden
    rw [hnav, hjobs, hqueue, List.map_append, List.sum_append]
    omega
  have hbefore : r.burden W = r.navigator.timers.weigh W.timer + (r.jobs.map W.job).sum
      + (r.queue.map W.event).sum := rfl
  rw [hafter, hbefore]
  refine ⟨hgone.trans hgoes, by omega, fun heq hdue hfree => ?_⟩
  have hless := htick heq hdue hfree
  omega

/-- Weights for the times up to a last one, which suit the time and are less later on. -/
structure Weighs (config : Config α) (cost : Nat) (last : Int) (W : Int → Weights) : Prop where
  suits : ∀ now ≤ last, (W now).Suits cost config.coverage.quiet now
  timer : ∀ now later t, now ≤ later → later ≤ last → (W later).timer t ≤ (W now).timer t
  batch : ∀ now later, now ≤ later → later ≤ last → (W later).batch ≤ (W now).batch

variable {last : Int} {W : Int → Weights}

omit [Scalar α] [Geodesy α] in
theorem failures_call (hgoes : r.halt = none) (event : Event α) (cost : Nat) :
    cost * failures (r.call event) = if event.isFailure then cost else 0 := by
  rw [call_of_goes hgoes, failures, List.countP_singleton]
  split_ifs <;> simp

/-- A step leads the navigator on by the call that is made in it. -/
theorem step_navigator (hgoes : r.halt = none) (target : Int) :
    (r.step rig target).2.navigator
      = r.navigator.run rig.config (r.stepCalls rig target) := by
  rcases step_cases rig target r with ⟨-, heq, hcalls⟩ | ⟨event, events, -, heq, hcalls⟩
    | ⟨due, -, -, heq, hcalls⟩ | ⟨-, -, heq, hcalls⟩ <;> rw [heq, hcalls]
  · rfl
  · rw [call_of_goes hgoes]
    exact (handled (r := { r with queue := events }) hgoes rig event).1
  · have hmoved : ({ r with clock := max due r.clock } : Replay σ α).halt = none := hgoes
    rw [call_of_goes hmoved]
    exact (handled hmoved rig .tick).1
  · rfl

/-- Where nothing overflows on the way, nothing does in the first step nor after it. -/
theorem isInRange_steps {target : Int} (hgoes : r.halt = none) {k : Nat}
    (hrange : r.navigator.IsInRange rig.config (r.stepsCalls rig target (k + 1))) :
    (r.wait rig).navigator.IsInRange rig.config ((r.wait rig).stepCalls rig target)
      ∧ ∀ r', (r.wait rig).step rig target = (false, r') →
        r'.navigator.IsInRange rig.config (r'.stepsCalls rig target k) := by
  have hstays := stays_wait rig r
  unfold stepsCalls at hrange
  rw [if_neg (by simp [hgoes]), ← hstays.navigator] at hrange
  obtain ⟨hfirst, hmore⟩ := Navigator.isInRange_append.1 hrange
  refine ⟨hfirst, fun r' hstep => ?_⟩
  rw [← step_navigator (hstays.halt.trans hgoes), hstep] at hmore
  exact hmore

namespace IsAttended

/-- Every step that is not the last one brings down what there is to do, but for batches that were
not stored. Where a flush that is put off weighs as much as before, no job may be open. -/
theorem burden_step (hW : Weighs rig.config cost last W) (h : r.IsAttended rig)
    (hgoes : r.halt = none) {target : Int}
    (hrange : r.navigator.IsInRange rig.config (r.stepCalls rig target))
    (hlast : max target r.clock ≤ last)
    (hfree : r.jobs = [] ∨ ∀ now ≤ last, (W now).IsStrict rig.config.coverage.quiet now)
    {r' : Replay σ α} (hstep : r.step rig target = (false, r')) :
    r'.halt = none ∧ max target r'.clock ≤ last
      ∧ r'.burden (W r'.clock)
        < r.burden (W r.clock) + cost * failures (r.stepCalls rig target) := by
  rcases step_cases rig target r with ⟨-, heq, -⟩ | ⟨event, events, hqueue, heq, hcalls⟩
    | ⟨due, hqueue, hdeadline, heq, hcalls⟩ | ⟨-, -, heq, -⟩
  · cases hstep.symm.trans heq
  · obtain rfl : r' = { r with queue := events }.handle rig event :=
      congrArg Prod.snd (hstep.symm.trans heq)
    set popped : Replay σ α := { r with queue := events }
    have hclock : (popped.handle rig event).clock = r.clock := handle_clock rig popped event
    have hgives := h.queue
    rw [hqueue] at hgives
    have hpassing := (List.forall_mem_cons.1 hgives).1.isPassing
    have hsuits := hW.suits r.clock ((le_max_right _ _).trans hlast)
    have hgone : popped.halt = none := hgoes
    rw [hcalls, call_of_goes hgoes] at hrange
    obtain ⟨hstill, hburden, -⟩ :=
      burden_handle (r := popped) h.navigator hgone hsuits hpassing hrange.1
    rw [hclock, hcalls, burden_cons hqueue, failures_call hgoes]
    exact ⟨hstill, hlast, hburden⟩
  · obtain rfl : r' = { r with clock := max due r.clock }.handle rig .tick :=
      congrArg Prod.snd (hstep.symm.trans heq)
    set moved : Replay σ α := { r with clock := max due r.clock }
    obtain ⟨htarget, -, t, ht, rfl⟩ := of_deadlineBy?_eq_some hdeadline
    have hclock : (moved.handle rig .tick).clock = max t.due r.clock := handle_clock rig moved .tick
    have hmoved : max t.due r.clock ≤ last := (max_le_max_right _ htarget).trans hlast
    have heases : moved.burden (W (max t.due r.clock)) ≤ r.burden (W r.clock) :=
      burden_mono (fun t => hW.timer _ _ t (le_max_right _ _) hmoved)
        (hW.batch _ _ (le_max_right _ _) hmoved) r
    have hawaits : (∀ t, r.navigator.tracker = some t → t.inFlight = none)
        ∨ (W (max t.due r.clock)).IsStrict rig.config.coverage.quiet (max t.due r.clock) :=
      hfree.imp (fun hjobs t ht => h.inFlight_eq_none hgoes hjobs hqueue ht)
        fun hstrict => hstrict _ hmoved
    have htick : (Event.tick : Event α).IsPassing := trivial
    rw [hcalls, call_of_goes (r := moved) hgoes] at hrange
    obtain ⟨hstill, -, hburden⟩ :=
      burden_handle (r := moved) h.navigator hgoes (hW.suits _ hmoved) htick hrange.1
    have hless := hburden rfl ⟨t, ht, le_max_left _ _⟩ hawaits
    rw [hclock]
    exact ⟨hstill, max_le ((le_max_left _ _).trans hlast) hmoved,
      Nat.lt_add_right _ (hless.trans_le heases)⟩
  · cases hstep.symm.trans heq

/-- With more steps than there is to do the replay gets to the end of the way, or a pause there is
too long. -/
theorem ends_of_burden (hW : Weighs rig.config cost last W) {target : Int}
    (hfree : rig.schedule.IsPrompt ∨ ∀ now ≤ last, (W now).IsStrict rig.config.coverage.quiet now) :
    ∀ (k : Nat) {r : Replay σ α}, r.IsAttended rig → r.halt = none →
      r.navigator.IsInRange rig.config (r.stepsCalls rig target k) → max target r.clock ≤ last →
      r.burden (W r.clock) + cost * failures (r.stepsCalls rig target k) < k →
        (r.steps rig target k).halt = none ∨ (r.steps rig target k).halt = some .pause
  | 0, _, _, _, _, _, hless => absurd hless (Nat.not_lt_zero _)
  | k + 1, r, h, hgoes, hrange, hlast, hless => by
    have hstays := stays_wait rig r
    have hgone : (r.wait rig).halt = none := hstays.halt.trans hgoes
    have hclock : (r.wait rig).clock = r.clock := hstays.clock
    have hjobs : (r.wait rig).jobs = []
        ∨ ∀ now ≤ last, (W now).IsStrict rig.config.coverage.quiet now := by
      obtain ⟨-, -, -, -, hprompt⟩ := wait_answers rig r
      exact hfree.imp_left hprompt
    obtain ⟨hfirst, hmore⟩ := isInRange_steps hgoes hrange
    unfold stepsCalls at hless
    unfold Replay.steps
    rw [if_neg (by simp [hgoes])] at hless ⊢
    rcases hstep : (r.wait rig).step rig target with ⟨_ | _, r'⟩ <;> dsimp only
    · obtain ⟨hstill, hlast', hburden⟩ :=
        h.wait.burden_step hW hgone hfirst (hclock ▸ hlast) hjobs hstep
      have hattended : r'.IsAttended rig := by
        have hstepped := (isInvariant_isAttended rig).step h.wait target
        rwa [hstep] at hstepped
      refine ends_of_burden hW hfree k hattended hstill (hmore r' hstep) hlast' ?_
      rw [hstep] at hless
      rw [burden_wait, hclock] at hburden
      simp only [failures, List.countP_append, Nat.mul_add] at hless hburden ⊢
      omega
    · rcases step_cases rig target (r.wait rig) with ⟨-, heq, -⟩ | ⟨_, _, -, heq, -⟩
        | ⟨_, -, -, heq, -⟩ | ⟨-, -, heq, -⟩ <;> cases hstep.symm.trans heq
      · exact .inr rfl
      · exact .inl hgone

end IsAttended

end Replay

end Roadbook

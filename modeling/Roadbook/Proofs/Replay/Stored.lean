import Roadbook.Proofs.Coverage.Balance
import Roadbook.Proofs.Replay.Course
import Roadbook.Proofs.Replay.Replies

/-!
# What a replay stores

When storing always succeeds (`Rig.Fills`), a replay that does not halt stores what it shows to be
driven, each segment of it shown once, whatever the times at which jobs are done
(`Replay.run_stores`). The books of a replay (`Replay.Books`) are what it goes by: the balance of
the tracker, and the batch in flight, which is a job until it is done and an event in the queue
after that.
-/

namespace Roadbook

open Effect

variable {σ α : Type}

/-- The batch that a job stores. -/
def Job.batch? : Job α → Option Batch
  | .persist batch => some batch
  | .directions _ => none

/-- What hosts of a certain kind store for an area: what was stored before, which segments are new,
and which ones a host holds. -/
structure Shelf (σ : Type) where
  area : String
  before : IdSet
  IsNew : Nat → Prop
  Holds : σ → IdSet → Prop

/-- New segments of the area are stored without fail, and nothing else changes what is stored. -/
structure Rig.Fills (rig : Rig σ α) (shelf : Shelf σ) : Prop where
  persist : ∀ {h : σ} {S : IdSet} {batch : Batch}, shelf.Holds h S → batch.area = shelf.area →
    (∀ id ∈ batch.ids, shelf.IsNew id) → (rig.persist h batch).1 = true
      ∧ shelf.Holds (rig.persist h batch).2 (S.union (.ofList batch.ids))
  rememberArea : ∀ {h : σ} {S : IdSet} (area : String), shelf.Holds h S →
    shelf.Holds (rig.rememberArea h area) S
  display : ∀ {h : σ} {S : IdSet} (effect : Effect α), shelf.Holds h S →
    shelf.Holds (rig.display h effect) S

namespace Replay

variable {rig : Rig σ α} {shelf : Shelf (σ × List (Effect α))}
  {r r' r'' : Replay (σ × List (Effect α)) α}

def batches (jobs : List (Job α)) : List Batch := jobs.filterMap Job.batch?

def outcomes (events : List (Event α)) : List (String × Bool) := events.filterMap Event.outcome?

theorem batches_append (jobs more : List (Job α)) :
    batches (jobs ++ more) = batches jobs ++ batches more :=
  List.filterMap_append

theorem outcomes_append (events more : List (Event α)) :
    outcomes (events ++ more) = outcomes events ++ outcomes more :=
  List.filterMap_append

theorem outcomes_cons (event : Event α) (events : List (Event α)) :
    outcomes (event :: events) = event.outcome?.toList ++ outcomes events := by
  unfold outcomes
  rw [List.filterMap_cons]
  cases event.outcome? <;> rfl

section Dispatch

/-- A last batch is one of new segments of the area. -/
def Suits (shelf : Shelf σ) (effect : Effect α) : Prop :=
  ∀ batch, effect = .persist batch true →
    batch.area = shelf.area ∧ ∀ id ∈ batch.ids, shelf.IsNew id

/-- What carrying out some effects comes to. -/
structure Carried (shelf : Shelf (σ × List (Effect α))) (effects : List (Effect α))
    (r r' : Replay (σ × List (Effect α)) α) : Prop where
  navigator : r'.navigator = r.navigator
  halt : r'.halt = r.halt
  jobs : batches r'.jobs = batches r.jobs ++ effects.flatMap handedOut
  outcomes : outcomes r'.queue = outcomes r.queue
  queue : (∀ e ∈ r.queue, ¬ e.Unloads) → ∀ e ∈ r'.queue, ¬ e.Unloads
  shown : r'.host.2.flatMap drivenIds = r.host.2.flatMap drivenIds ++ effects.flatMap drivenIds
  held : ∀ S, shelf.Holds r.host S → ∃ S', shelf.Holds r'.host S'
    ∧ ∀ id, id ∈ S' ↔ id ∈ S ∨ id ∈ effects.flatMap lastIds

theorem Carried.refl (r : Replay (σ × List (Effect α)) α) : Carried shelf [] r r where
  navigator := rfl
  halt := rfl
  jobs := by simp
  outcomes := rfl
  queue := id
  shown := by simp
  held S hS := ⟨S, hS, by simp⟩

theorem Carried.trans {effects more : List (Effect α)} (h : Carried shelf effects r r')
    (h' : Carried shelf more r' r'') : Carried shelf (effects ++ more) r r'' where
  navigator := h'.navigator.trans h.navigator
  halt := h'.halt.trans h.halt
  jobs := by rw [h'.jobs, h.jobs, List.flatMap_append, List.append_assoc]
  outcomes := h'.outcomes.trans h.outcomes
  queue hqueue := h'.queue (h.queue hqueue)
  shown := by rw [h'.shown, h.shown, List.flatMap_append, List.append_assoc]
  held S hS := by
    obtain ⟨S', hS', hmem⟩ := h.held S hS
    obtain ⟨S'', hS'', hmem'⟩ := h'.held S' hS'
    refine ⟨S'', hS'', fun id => ?_⟩
    rw [hmem', hmem, List.flatMap_append, List.mem_append, or_assoc]

theorem carried_shown (hrig : rig.logged.Fills shelf) {effect : Effect α}
    (hshown : effect.isShown = true) (r : Replay (σ × List (Effect α)) α) :
    Carried shelf [effect] r (r.dispatch rig.logged effect) := by
  have hquiet : effect.handedOut = [] ∧ effect.lastIds = [] := by
    cases effect <;> first | exact ⟨rfl, rfl⟩ | cases hshown
  have hstays := stays_dispatch rig.logged r effect
  rw [dispatch_of_isShown hshown] at hstays ⊢
  refine ⟨rfl, rfl, ?_, ?_, hstays.forall_queue fun _ => Event.IsReply.not_unloads, ?_,
    fun S hS => ⟨S, ?_, ?_⟩⟩
  · simp [hquiet.1]
  · dsimp only
    rw [outcomes_append]
    split_ifs <;> simp [Replay.outcomes, Event.outcome?]
  · show (r.host.2 ++ [effect]).flatMap drivenIds = _
    rw [List.flatMap_append]
  · exact hrig.display effect hS
  · simp [hquiet.2]

theorem carried_dispatch (hrig : rig.logged.Fills shelf) {effect : Effect α}
    (hsuits : Suits shelf effect) (r : Replay (σ × List (Effect α)) α) :
    Carried shelf [effect] r (r.dispatch rig.logged effect) := by
  by_cases hshown : effect.isShown = true
  · exact carried_shown hrig hshown r
  cases effect with
  | requestDirections request =>
    refine ⟨rfl, rfl, ?_, rfl, id, by simp [dispatch, addJob, drivenIds], fun S hS => ⟨S, hS, ?_⟩⟩
    · exact batches_append _ _
    · simp [lastIds]
  | persist batch last =>
    cases last with
    | false =>
      refine ⟨rfl, rfl, ?_, rfl, id, by simp [dispatch, addJob, drivenIds], fun S hS => ⟨S, hS, ?_⟩⟩
      · exact batches_append _ _
      · simp [lastIds]
    | true =>
      obtain ⟨harea, hnew⟩ := hsuits batch rfl
      refine ⟨rfl, rfl, by simp [dispatch, handedOut], rfl, id, ?_, fun S hS => ?_⟩
      · simp [dispatch, Rig.logged, drivenIds]
      · refine ⟨_, (hrig.persist hS harea hnew).2, fun id => ?_⟩
        simp [lastIds]
  | rememberArea area =>
    refine ⟨rfl, rfl, by simp [dispatch, handedOut], rfl, id, ?_, fun S hS => ⟨S, ?_, ?_⟩⟩
    · simp [dispatch, Rig.logged, drivenIds]
    · exact hrig.rememberArea area hS
    · simp [lastIds]
  | _ => exact absurd rfl hshown

theorem carried_dispatches (hrig : rig.logged.Fills shelf) :
    ∀ {effects : List (Effect α)}, (∀ e ∈ effects, Suits shelf e) →
      ∀ r, Carried shelf effects r (effects.foldl (dispatch rig.logged) r)
  | [], _, r => .refl r
  | _ :: _, hsuits, r =>
    (carried_dispatch hrig (hsuits _ List.mem_cons_self) r).trans
      (carried_dispatches hrig (fun e he => hsuits e (List.mem_cons_of_mem _ he)) _)

end Dispatch

/-- The tracker is in balance with what is stored and what was shown to be driven, and the batch in
flight is among the jobs, or reported by an event. -/
structure Books (shelf : Shelf (σ × List (Effect α))) (n : Navigator α)
    (host : σ × List (Effect α)) (jobs : List (Job α)) (events : List (Event α)) (t : Tracker α)
    (S : IdSet) : Prop where
  tracker : n.tracker = some t
  area : t.area = shelf.area
  holds : shelf.Holds host S
  balanced : t.Balanced shelf.IsNew shelf.before S (host.2.flatMap drivenIds)
  awaits : t.Awaits S (batches jobs) (outcomes events)
  events : ∀ e ∈ events, ¬ e.Unloads

/-- Effects without a last batch keep the books in order when the tracker takes them into
account. -/
theorem Carried.books {effects : List (Effect α)} (h : Carried shelf effects r r') {t : Tracker α}
    {S : IdSet} (htracker : r.navigator.tracker = some t) (harea : t.area = shelf.area)
    (hholds : shelf.Holds r.host S) (hlast : ∀ batch, Effect.persist batch true ∉ effects)
    (hbalanced : t.Balanced shelf.IsNew shelf.before S
      (r.host.2.flatMap drivenIds ++ effects.flatMap drivenIds))
    (hawaits : t.Awaits S (batches r.jobs ++ effects.flatMap handedOut) (Replay.outcomes r.queue))
    (hqueue : ∀ e ∈ r.queue, ¬ e.Unloads) :
    Books shelf r'.navigator r'.host r'.jobs r'.queue t S := by
  obtain ⟨S', hholds', hmem⟩ := h.held S hholds
  obtain rfl : S' = S := by
    ext id
    rw [hmem, lastIds_eq_nil hlast]
    simp
  refine ⟨?_, harea, hholds', ?_, ?_, h.queue hqueue⟩
  · rw [h.navigator, htracker]
  · rwa [h.shown]
  · rwa [h.jobs, h.outcomes]

/-- The books are in order, unless the replay has halted. -/
def IsSound (shelf : Shelf (σ × List (Effect α))) (r : Replay (σ × List (Effect α)) α) : Prop :=
  r.halt = none → ∃ t S, Books shelf r.navigator r.host r.jobs r.queue t S

section Wait

theorem Books.perform (hrig : rig.logged.Fills shelf) {job : Job α} {jobs : List (Job α)}
    {t : Tracker α} {S : IdSet}
    (h : Books shelf r.navigator r.host (job :: jobs) r.queue t S) :
    ∃ S', Books shelf r.navigator (r.perform rig.logged job).host jobs
      (r.perform rig.logged job).queue t S' := by
  have hevents : ∀ e ∈ (r.perform rig.logged job).queue, ¬ e.Unloads :=
    (stays_perform rig.logged r job).forall_queue (fun _ => Event.IsReply.not_unloads) h.events
  cases job with
  | directions request =>
    refine ⟨S, h.tracker, h.area, h.holds, h.balanced, ?_, hevents⟩
    have houtcomes : outcomes (r.perform rig.logged (.directions request)).queue
        = outcomes r.queue := by
      show outcomes (r.queue ++ [.directions _ _]) = _
      rw [outcomes_append]
      exact List.append_nil _
    rw [houtcomes]
    exact h.awaits
  | persist batch =>
    -- a batch that is still a job is the one in flight, and neither a job nor an event is another
    obtain ⟨hjobs, houtcomes, ids, hflight, rfl⟩ := h.awaits.next
    have hdriven : ∀ id ∈ ids.toList, id ∈ r.host.2.flatMap drivenIds :=
      fun id hid => h.balanced.owed id (.inr ⟨ids, hflight, hid⟩)
    have hnew : ∀ id ∈ (t.batch ids).ids, shelf.IsNew id :=
      fun id hid => h.balanced.new id (hdriven id hid)
    obtain ⟨hok, hholds⟩ := hrig.persist h.holds h.area hnew
    have hstored : ∀ id, id ∈ S.union (.ofList (t.batch ids).ids) ↔ id ∈ S ∨ id ∈ ids.toList := by
      intro id
      rw [IdSet.mem_union, IdSet.mem_ofList]
      rfl
    have hqueue : (r.perform rig.logged (.persist (t.batch ids))).queue
        = r.queue ++ [.flushed t.area true] := by
      rw [← hok]
      rfl
    refine ⟨_, h.tracker, h.area, hholds, ?_, ?_, hevents⟩
    · exact h.balanced.store hdriven hstored
    · have hreported : outcomes (r.queue ++ [.flushed t.area true]) = [(t.area, true)] := by
        rw [outcomes_append, houtcomes]
        rfl
      rw [hqueue, hreported]
      have hnone : batches jobs = [] := hjobs
      rw [hnone]
      exact .report hflight fun id hid => (hstored id).2 (.inr hid)

theorem books_performs (hrig : rig.logged.Fills shelf) {left : List (Job α)} {t : Tracker α} :
    ∀ (done : List (Job α)) {r : Replay (σ × List (Effect α)) α} {S : IdSet},
      Books shelf r.navigator r.host (done ++ left) r.queue t S →
        ∃ S', Books shelf r.navigator (done.foldl (perform rig.logged) r).host left
          (done.foldl (perform rig.logged) r).queue t S'
  | [], _, S, h => ⟨S, h⟩
  | job :: done, r, S, h => by
    obtain ⟨S', h'⟩ := h.perform hrig
    have hnavigator := (stays_perform rig.logged r job).navigator
    rw [← hnavigator] at h' ⊢
    exact books_performs hrig done h'

theorem jobs_performs (rig : Rig σ α) : ∀ (done : List (Job α)) (r : Replay σ α),
    (done.foldl (perform rig) r).jobs = r.jobs
  | [], _ => rfl
  | .directions _ :: done, _ => jobs_performs rig done _
  | .persist _ :: done, _ => jobs_performs rig done _

/-- Which jobs are done, and in which order, is of no importance. -/
theorem IsSound.wait (hrig : rig.logged.Fills shelf) (h : r.IsSound shelf) :
    (r.wait rig.logged).IsSound shelf := by
  unfold Replay.wait
  have hperm := rig.logged.schedule.perm_split r.waits r.jobs
  rcases hsplit : rig.logged.schedule.split r.waits r.jobs with ⟨done, left⟩
  rw [hsplit] at hperm
  dsimp only at hperm ⊢
  have hstays := stays_performs rig.logged done { r with jobs := left, waits := r.waits + 1 }
  intro hhalt
  rw [hstays.halt] at hhalt
  obtain ⟨t, S, hbooks⟩ := h hhalt
  -- the jobs to be done come first, whatever their order was
  have hopen : Books shelf r.navigator r.host (done ++ left) r.queue t S := by
    refine { hbooks with awaits := ?_ }
    have hbatches : (batches (done ++ left)).Perm (batches r.jobs) := hperm.filterMap _
    exact hbooks.awaits.perm hbatches.symm
  obtain ⟨S', hbooks'⟩ :=
    books_performs (r := { r with jobs := left, waits := r.waits + 1 }) hrig done hopen
  rw [hstays.navigator, jobs_performs]
  exact ⟨t, S', hbooks'⟩

end Wait

section Handle

theorem suits_of_not_last {effects : List (Effect α)}
    (h : ∀ batch, Effect.persist batch true ∉ effects) : ∀ e ∈ effects, Suits shelf e := by
  rintro e he batch rfl
  exact absurd he (h batch)

variable [Scalar α] [Geodesy α]

/-- A call keeps the books in order, whether the event has waited in the queue or comes from
elsewhere. -/
theorem Books.handle (hrig : rig.logged.Fills shelf) {event : Event α} {events : List (Event α)}
    {t : Tracker α} {S : IdSet}
    (h : Books shelf r.navigator r.host r.jobs (event :: events) t S) (hqueue : r.queue = events) :
    (r.handle rig.logged event).IsSound shelf := by
  intro hhalt
  subst hqueue
  obtain ⟨effects, n, hcall, -, hcarries⟩ := ok_of_handle hhalt
  rw [hcarries]
  obtain ⟨t₁, ht₁, hflushed⟩ := Navigator.flushed_due h.tracker rig.logged.config r.clock
  rcases r.navigator.handle_cases rig.logged.config r.clock event with
    ⟨o, hok, heq⟩ | ⟨refusal, -, heq⟩ <;> cases heq.symm.trans hcall
  · obtain ⟨t', new, ht', hbooked, hanswered⟩ :=
      Navigator.answered_respond ht₁ hok (h.events event List.mem_cons_self)
    have hawaits := h.awaits
    rw [outcomes_cons] at hawaits
    obtain ⟨harea, hbalanced', hawaits'⟩ :=
      (h.balanced.flushed hflushed).answered (hawaits.flushed hflushed) hanswered
    have hlast : ∀ batch, Effect.persist batch true ∉ o.effects := by
      intro batch
      rw [← persist_mem_booked, hbooked]
      exact hanswered.not_last hflushed batch
    have hcarried := carried_dispatches hrig (suits_of_not_last hlast)
      { r with navigator := o.navigator }
    have hname := harea.trans (hflushed.coversAlike.area.trans h.area)
    refine ⟨t', S, hcarried.books ht' hname h.holds hlast ?_ ?_
      fun e he => h.events e (List.mem_cons_of_mem _ he)⟩
    · rw [flatMap_booked (fun _ => drivenIds_of_not_isBooked) o.effects, hbooked,
        List.flatMap_append, hflushed.drivenIds, List.nil_append]
      exact hbalanced'
    · rw [flatMap_booked (fun _ => handedOut_of_not_isBooked) o.effects, hbooked,
        List.flatMap_append, ← List.append_assoc]
      exact hawaits'

/-- An event that comes from elsewhere reports no outcome. -/
theorem IsSound.handle (hrig : rig.logged.Fills shelf) (h : r.IsSound shelf) {event : Event α}
    (hfree : event.outcome? = none) (hkeeps : ¬ event.Unloads) :
    (r.handle rig.logged event).IsSound shelf := by
  intro hhalt
  obtain ⟨t, S, hbooks⟩ := h (halt_of_handle hhalt)
  have hcall : Books shelf r.navigator r.host r.jobs (event :: r.queue) t S := by
    refine { hbooks with awaits := ?_, events := List.forall_mem_cons.2 ⟨hkeeps, hbooks.events⟩ }
    rw [outcomes_cons, hfree]
    exact hbooks.awaits
  exact hcall.handle hrig rfl hhalt

theorem IsSound.pop (hrig : rig.logged.Fills shelf) (h : r.IsSound shelf) {event : Event α}
    {events : List (Event α)} (hqueue : r.queue = event :: events) :
    ({ r with queue := events }.handle rig.logged event).IsSound shelf := by
  intro hhalt
  have hnone : r.halt = none := halt_of_handle (r := { r with queue := events }) hhalt
  obtain ⟨t, S, hbooks⟩ := h hnone
  rw [hqueue] at hbooks
  exact Books.handle (r := { r with queue := events }) hrig hbooks rfl hhalt

end Handle

section Run

variable [Scalar α] [Geodesy α]

omit [Scalar α] [Geodesy α] in
theorem isSound_haltWith (r : Replay (σ × List (Effect α)) α) (halt : Halt α) :
    (r.haltWith halt).IsSound shelf :=
  fun hnone => nomatch hnone

/-- The books stay in order in the course of a replay. -/
theorem isInvariant_isSound (hrig : rig.logged.Fills shelf) :
    IsInvariant rig.logged (IsSound shelf) where
  wait h := h.wait hrig
  clock _ h := h
  giveUp r halt _ _ := isSound_haltWith r halt
  pop hqueue h := h.pop hrig hqueue
  fix _ h := h.handle hrig rfl id
  begin h := h.handle hrig rfl id
  tick h := h.handle hrig rfl id

/-- An area that is loaded is in balance with what is stored for it. -/
theorem isSound_areaLoaded (hrig : rig.logged.Fills shelf) {host : σ} {n : Navigator α}
    {area : Area α} (hsession : n.session = none) (htimers : n.timers = .empty)
    (hholds : shelf.Holds (host, []) shelf.before) (harea : area.name = shelf.area)
    (hnew : ∀ id ∈ (Tracker.ofArea area).undriven, shelf.IsNew id) :
    ({ start (host, []) with navigator := n }.handle rig.logged
      (.areaLoaded area rig.ranks)).IsSound shelf := by
  intro hhalt
  obtain ⟨session, tracker, timers, view⟩ := n
  obtain rfl : session = none := hsession
  obtain rfl : timers = .empty := htimers
  obtain ⟨told, n, hcall, -, hcarries⟩ := ok_of_handle hhalt
  rw [hcarries]
  rcases Navigator.handle_cases rig.logged.config ⟨none, tracker, .empty, view⟩ 0
    (.areaLoaded area rig.ranks) with ⟨o, hok, heq⟩ | ⟨refusal, -, heq⟩ <;>
    cases heq.symm.trans hcall
  · obtain ⟨route, smoother, rfl⟩ := Outcome.respond_areaLoaded hok
    set t := Tracker.ofArea area rig.ranks
    let effects : List (Effect α) := [.showRoute route,
      .showCoverage t.driven.toList t.undriven.toList, .phaseChanged .setup .preview,
      .rememberArea area.name]
    let r : Replay (σ × List (Effect α)) α := { start (host, []) with
      navigator := ⟨some (.ofRoute area.name route smoother), some t, .empty, view⟩ }
    have hlast : ∀ batch, Effect.persist batch true ∉ effects := by simp [effects]
    have hbooks := (carried_dispatches hrig (suits_of_not_last hlast) r).books rfl
      ((Tracker.ofArea_area area rig.ranks).trans harea) hholds hlast (Tracker.balanced_ofArea hnew)
      (.nothing (Tracker.ofArea_inFlight area rig.ranks)) (by simp [r, start])
    exact ⟨t, _, hbooks⟩

theorem isSound_load (hrig : rig.logged.Fills shelf) {host : σ} {area : Area α}
    (hholds : shelf.Holds (host, []) shelf.before) (harea : area.name = shelf.area)
    (hnew : ∀ id ∈ (Tracker.ofArea area).undriven, shelf.IsNew id) :
    ((start (host, [])).load rig.logged area).IsSound shelf := by
  rw [load_eq]
  exact isSound_areaLoaded hrig rfl rfl hholds harea hnew

/-- At the end all that is owed is stored. -/
theorem Books.finish (hrig : rig.logged.Fills shelf) {t : Tracker α} {S : IdSet}
    (h : Books shelf r.navigator r.host r.jobs r.queue t S)
    (hhalt : (r.handle rig.logged .finish).halt = none) :
    ∃ S', shelf.Holds (r.handle rig.logged .finish).host S'
      ∧ (∀ id, id ∈ S' ↔ id ∈ S ∨ t.Owes id)
      ∧ (r.handle rig.logged .finish).host.2.flatMap drivenIds = r.host.2.flatMap drivenIds := by
  obtain ⟨t₁, ht₁, hflushed⟩ := Navigator.flushed_due h.tracker rig.logged.config r.clock
  obtain ⟨last, hbooked, hlast⟩ :=
    Outcome.booked_unload rig.logged.config r.clock ht₁
  set o := (r.navigator.due rig.logged.config r.clock).unload rig.logged.config r.clock
  have hhandled : r.handle rig.logged .finish
      = o.effects.foldl (dispatch rig.logged) { r with navigator := o.navigator } := by
    obtain ⟨effects, n, hcall, -, hcarries⟩ := ok_of_handle hhalt
    cases hcall
    exact hcarries
  have hsuits : ∀ e ∈ o.effects, Suits shelf e := by
    rintro e he batch rfl
    rw [← persist_mem_booked, hbooked, List.mem_append] at he
    have hmem := he.resolve_left (hflushed.not_last batch)
    rcases hlast with ⟨rfl, -⟩ | rfl
    · cases hmem
    · cases List.mem_singleton.1 hmem
      refine ⟨hflushed.coversAlike.area.trans h.area,
        fun id hid => h.balanced.new id (h.balanced.owed id ?_)⟩
      exact (hflushed.owes id).1 (Tracker.mem_unconfirmed.1 hid)
  have hcarried := carried_dispatches hrig hsuits { r with navigator := o.navigator }
  obtain ⟨S', hholds, hmem⟩ := hcarried.held S h.holds
  have hstored : ∀ id, id ∈ o.effects.flatMap lastIds ↔ t.Owes id := by
    intro id
    rw [flatMap_booked (fun _ => lastIds_of_not_isBooked) o.effects, hbooked, List.flatMap_append,
      lastIds_eq_nil hflushed.not_last, List.nil_append, ← hflushed.owes]
    rcases hlast with ⟨rfl, hnone⟩ | rfl
    · simp [hnone]
    · rw [← Tracker.mem_unconfirmed]
      simp [lastIds, Tracker.batch, IdSet.mem_def]
  rw [hhandled]
  refine ⟨S', hholds, fun id => by rw [hmem, hstored], ?_⟩
  rw [hcarried.shown, flatMap_booked (fun _ => drivenIds_of_not_isBooked) o.effects, hbooked,
    List.flatMap_append, hflushed.drivenIds]
  rcases hlast with ⟨rfl, -⟩ | rfl <;> simp [drivenIds]

/-- A replay stores what it tells to be driven, each segment once. -/
theorem run_stores (hrig : rig.logged.Fills shelf) {host : σ} {area : Area α}
    (hholds : shelf.Holds (host, []) shelf.before) (harea : area.name = shelf.area)
    (hnew : ∀ id ∈ (Tracker.ofArea area).undriven, shelf.IsNew id) {fixes : List (Fix α)}
    (hhalt : (run rig host area fixes).halt = none) :
    ((told rig host area fixes).flatMap drivenIds).Nodup
      ∧ (∀ id ∈ (told rig host area fixes).flatMap drivenIds, shelf.IsNew id)
      ∧ ∃ S, shelf.Holds (run rig.logged (host, []) area fixes).host S
        ∧ ∀ id, id ∈ S ↔ id ∈ shelf.before
          ∨ id ∈ (told rig host area fixes).flatMap drivenIds := by
  unfold told
  have hsame : (run rig.logged (host, []) area fixes).halt = none :=
    (congrArg Replay.halt (unlogged_run rig host area fixes)).trans hhalt
  have hsound :=
    (isInvariant_isSound hrig).ending (isSound_load hrig hholds harea hnew) fixes
  unfold run finish at hsame ⊢
  set r := ((((start (host, ([] : List (Effect α)))).load rig.logged area).drive rig.logged
    fixes).wait rig.logged).emptyQueue rig.logged patience
  obtain ⟨t, S, hbooks⟩ := hsound (halt_of_handle hsame)
  obtain ⟨S', hholds', hmem, hshown⟩ := hbooks.finish hrig hsame
  rw [hshown]
  refine ⟨hbooks.balanced.nodup, hbooks.balanced.new, S', hholds', fun id => ?_⟩
  rw [hmem]
  constructor
  · rintro (hid | hid)
    · exact hbooks.balanced.stored id hid
    · exact .inr (hbooks.balanced.owed id hid)
  · rintro (hid | hid)
    · exact .inl (hbooks.balanced.before id hid)
    · exact hbooks.balanced.kept id hid

end Run

end Replay

end Roadbook

import Roadbook.Proofs.Guidance.Run
import Roadbook.Proofs.Replay.Log

/-!
# What joins the queue of a replay

Carrying out effects and doing jobs leave the navigator and the clock of a replay alone, and what
joins the queue is told of outcomes, or accepts an offer (`Replay.Stays`). Each job that is done has
one event join the queue, which tells of its outcome (`Replay.wait_answers`).
-/

namespace Roadbook

variable {σ α : Type}

/-- What comes back from those who carry out the effects. -/
def Event.IsReply : Event α → Prop
  | .acceptOffer | .directions .. | .flushed .. => True
  | _ => False

theorem Event.IsReply.not_unloads {event : Event α} (h : event.IsReply) : ¬ event.Unloads := by
  cases event <;> first | exact id | cases h

/-- An event tells of the outcome of a job. -/
def Rig.Answers (rig : Rig σ α) : Job α → Event α → Prop
  | .directions request, event => event = .directions request.id (rig.directions request)
  | .persist batch, event => ∃ host, event = .flushed batch.area (rig.persist host batch).1

/-- Whatever is open when the replay waits is done then. -/
def Schedule.IsPrompt (schedule : Schedule α) : Prop :=
  ∀ wait jobs, (schedule.split wait jobs).2 = []

namespace Replay

/-- Alike but for what those who carry out the effects do. -/
structure Stays (r r' : Replay σ α) : Prop where
  navigator : r'.navigator = r.navigator
  clock : r'.clock = r.clock
  halt : r'.halt = r.halt
  queue : ∃ replies, r'.queue = r.queue ++ replies ∧ ∀ e ∈ replies, e.IsReply

namespace Stays

variable {r r' r'' : Replay σ α}

/-- Nothing has joined the queue. -/
theorem of_queue (hnavigator : r'.navigator = r.navigator) (hclock : r'.clock = r.clock)
    (hhalt : r'.halt = r.halt) (hqueue : r'.queue = r.queue) : r.Stays r' :=
  ⟨hnavigator, hclock, hhalt, [], by rw [hqueue, List.append_nil], by simp⟩

theorem refl (r : Replay σ α) : r.Stays r := of_queue rfl rfl rfl rfl

theorem trans (h : r.Stays r') (h' : r'.Stays r'') : r.Stays r'' := by
  obtain ⟨replies, hqueue, hreplies⟩ := h.queue
  obtain ⟨more, hqueue', hmore⟩ := h'.queue
  refine ⟨h'.navigator.trans h.navigator, h'.clock.trans h.clock, h'.halt.trans h.halt,
    replies ++ more, ?_, List.forall_mem_append.2 ⟨hreplies, hmore⟩⟩
  rw [hqueue', hqueue, List.append_assoc]

/-- What is true of replies stays true of all that is in the queue. -/
theorem forall_queue (h : r.Stays r') {P : Event α → Prop} (hP : ∀ e : Event α, e.IsReply → P e)
    (hr : ∀ e ∈ r.queue, P e) : ∀ e ∈ r'.queue, P e := by
  obtain ⟨replies, hqueue, hreplies⟩ := h.queue
  rw [hqueue]
  exact List.forall_mem_append.2 ⟨hr, fun e he => hP e (hreplies e he)⟩

end Stays

variable (rig : Rig σ α)

theorem stays_dispatch (r : Replay σ α) (effect : Effect α) :
    r.Stays (r.dispatch rig effect) := by
  by_cases hshown : effect.isShown = true
  · rw [dispatch_of_isShown hshown]
    refine ⟨rfl, rfl, rfl, _, rfl, fun e he => ?_⟩
    split_ifs at he
    · obtain rfl := List.mem_singleton.1 he
      exact trivial
    · cases he
  cases effect with
  | requestDirections | rememberArea => exact .of_queue rfl rfl rfl rfl
  | persist batch last => cases last <;> exact .of_queue rfl rfl rfl rfl
  | _ => exact absurd rfl hshown

theorem stays_dispatches : ∀ (effects : List (Effect α)) (r : Replay σ α),
    r.Stays (effects.foldl (dispatch rig) r)
  | [], r => .refl r
  | effect :: effects, r => (r.stays_dispatch rig effect).trans (stays_dispatches effects _)

theorem stays_perform (r : Replay σ α) (job : Job α) : r.Stays (r.perform rig job) := by
  cases job with
  | directions | persist =>
    exact ⟨rfl, rfl, rfl, _, rfl, List.forall_mem_singleton.2 trivial⟩

theorem stays_performs : ∀ (done : List (Job α)) (r : Replay σ α),
    r.Stays (done.foldl (perform rig) r)
  | [], r => .refl r
  | job :: done, r => (r.stays_perform rig job).trans (stays_performs done _)

theorem performs_answers : ∀ (done : List (Job α)) (r : Replay σ α),
    (done.foldl (perform rig) r).jobs = r.jobs
      ∧ ∃ outcomes : List (Job α × Event α), outcomes.map (·.1) = done
        ∧ (done.foldl (perform rig) r).queue = r.queue ++ outcomes.map (·.2)
        ∧ ∀ outcome ∈ outcomes, rig.Answers outcome.1 outcome.2
  | [], r => ⟨rfl, [], rfl, (List.append_nil _).symm, nofun⟩
  | job :: done, r => by
    obtain ⟨hjobs, outcomes, hdone, hqueue, hanswers⟩ := performs_answers done (r.perform rig job)
    rw [List.foldl_cons]
    cases job with
    | directions request =>
      refine ⟨hjobs, (.directions request, .directions request.id (rig.directions request))
        :: outcomes, congrArg _ hdone, hqueue.trans (List.append_assoc _ [_] _),
        List.forall_mem_cons.2 ⟨rfl, hanswers⟩⟩
    | persist batch =>
      refine ⟨hjobs, (.persist batch, .flushed batch.area (rig.persist r.host batch).1)
        :: outcomes, congrArg _ hdone, hqueue.trans (List.append_assoc _ [_] _),
        List.forall_mem_cons.2 ⟨⟨r.host, rfl⟩, hanswers⟩⟩

/-- Jobs that are done are no longer open, and the queue tells of their outcomes. -/
theorem wait_answers (r : Replay σ α) :
    ∃ outcomes : List (Job α × Event α),
      (outcomes.map (·.1) ++ (r.wait rig).jobs).Perm r.jobs
      ∧ (r.wait rig).queue = r.queue ++ outcomes.map (·.2)
      ∧ (∀ outcome ∈ outcomes, rig.Answers outcome.1 outcome.2)
      ∧ (rig.schedule.IsPrompt → (r.wait rig).jobs = []) := by
  set done := (rig.schedule.split r.waits r.jobs).1
  set left : Replay σ α :=
    { r with jobs := (rig.schedule.split r.waits r.jobs).2, waits := r.waits + 1 }
  have hwait : r.wait rig = done.foldl (perform rig) left := rfl
  obtain ⟨hjobs, outcomes, hdone, hqueue, hanswers⟩ := performs_answers rig done left
  rw [hwait, hjobs]
  refine ⟨outcomes, ?_, hqueue, hanswers, fun hprompt => hprompt r.waits r.jobs⟩
  rw [hdone]
  exact rig.schedule.perm_split r.waits r.jobs

theorem stays_wait (r : Replay σ α) : r.Stays (r.wait rig) := by
  have hcounted : r.Stays
      { r with jobs := (rig.schedule.split r.waits r.jobs).2, waits := r.waits + 1 } :=
    .of_queue rfl rfl rfl rfl
  exact hcounted.trans (stays_performs rig _ _)

end Replay

end Roadbook

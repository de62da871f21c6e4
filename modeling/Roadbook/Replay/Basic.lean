import Roadbook.Guidance.Reckoning
import Roadbook.Number.Power
import Roadbook.Replay.Schedule

/-!
# Replays

A replay hands recorded fixes to a navigator and carries out its effects. Directions and the storing
of batches are jobs: they are handed out at once and done later, and their outcomes are events that
wait in a queue. The time of a replay is that of the fixes. Before each fix but the first the clock
moves on to it (`Replay.advance`), stopping at every deadline of the navigator in between. Where
times are checked a replay goes no further once one of them does not fit (`Replay.answer`).
-/

namespace Roadbook

/-- What stays the same throughout a replay: the configuration, the choices made for it, and those
who carry out the effects. They keep a state of their own, of type `σ`. -/
structure Rig (σ α : Type) where
  config : Config α
  /-- How many times faster than recorded the fixes go by; no time passes when this is not above
  zero. -/
  speedup : α
  /-- Whether every offer to resume is accepted. -/
  autoResume : Bool
  follow : Bool
  schedule : Schedule α
  /-- A path for a request, or nothing when there is none. -/
  directions : Request α → Option (List (Point α))
  /-- Stores a batch; the answer says whether that succeeded. -/
  persist : σ → Batch → Bool × σ
  rememberArea : σ → String → σ
  /-- Shows an effect to the driver. -/
  display : σ → Effect α → σ
  /-- The order in which the tracks of an area are listed. -/
  ranks : Nat → Nat := fun _ => 0

/-- Why a replay goes no further. -/
inductive Halt (α : Type) where
  /-- The navigator refuses an event. -/
  | refusal (reason : Refusal α)
  /-- A pause is too long to be waited for, or its length is no number or does not fit. -/
  | pause
  /-- There seems to be no end of deadlines and events. -/
  | endless
  deriving DecidableEq, Repr

/-- Whether more is asked for than can be dealt with. -/
def Halt.isBeyondLimits {α : Type} : Halt α → Bool
  | refusal reason => reason.isBeyondLimits
  | pause => true
  | endless => false

structure Replay (σ α : Type) where
  navigator : Navigator α
  clock : Int
  /-- What is still to be done, oldest first. -/
  jobs : List (Job α)
  /-- How often the replay has waited for jobs. -/
  waits : Nat
  /-- The events that wait for the navigator. -/
  queue : List (Event α)
  halt : Option (Halt α)
  /-- The state of those who carry out the effects. -/
  host : σ

namespace Replay

variable {σ α : Type}

def start [Scalar α] [Geodesy α] (host : σ) : Replay σ α := ⟨.fresh, 0, [], 0, [], none, host⟩

def enqueue (r : Replay σ α) (event : Event α) : Replay σ α :=
  { r with queue := r.queue ++ [event] }

def addJob (r : Replay σ α) (job : Job α) : Replay σ α := { r with jobs := r.jobs ++ [job] }

def haltWith (r : Replay σ α) (halt : Halt α) : Replay σ α := { r with halt := some halt }

/-- Whether an effect tells that a point to resume at is offered. -/
def isOffer : Effect α → Bool
  | .phaseChanged _ .resume => true
  | _ => false

/-- Carries out an effect. The last batch is stored at once, for there is nobody left to be told of
the outcome. -/
def dispatch (rig : Rig σ α) (r : Replay σ α) : Effect α → Replay σ α
  | .requestDirections request => r.addJob (.directions request)
  | .persist batch false => r.addJob (.persist batch)
  | .persist batch true => { r with host := (rig.persist r.host batch).2 }
  | .rememberArea area => { r with host := rig.rememberArea r.host area }
  | effect =>
    let answered := if rig.autoResume && isOffer effect then r.enqueue .acceptOffer else r
    { answered with host := rig.display answered.host effect }

/-- Does a job, the outcome of which joins the queue. -/
def perform (rig : Rig σ α) (r : Replay σ α) : Job α → Replay σ α
  | .directions request => r.enqueue (.directions request.id (rig.directions request))
  | .persist batch =>
    let (success, host) := rig.persist r.host batch
    { r with host := host }.enqueue (.flushed batch.area success)

/-- Waits while jobs are done. -/
def wait (rig : Rig σ α) (r : Replay σ α) : Replay σ α :=
  let (done, left) := rig.schedule.split r.waits r.jobs
  done.foldl (perform rig) { r with jobs := left, waits := r.waits + 1 }

variable [Scalar α] [Geodesy α]

/-- How the navigator answers an event. Where times are checked an overflow is a refusal. -/
def answer (rig : Rig σ α) (r : Replay σ α) (event : Event α) :
    Except (Refusal α) (List (Effect α)) × Navigator α :=
  let (result, n) := r.navigator.handle rig.config r.clock event
  (if Scalar.checked α ∧ r.navigator.Overflows rig.config r.clock event then .error .noRoom
    else result, n)

/-- Hands an event to the navigator, unless the replay has halted. -/
def handle (rig : Rig σ α) (r : Replay σ α) (event : Event α) : Replay σ α :=
  if r.halt.isSome then r
  else match r.answer rig event with
    | (.ok effects, n) => effects.foldl (dispatch rig) { r with navigator := n }
    | (.error reason, n) => { r with navigator := n }.haltWith (.refusal reason)

/-- A pause of fewer seconds than this can be waited for. -/
def longestPause : Int := twoTo 64

/-- Whether a pause of some milliseconds of the replay can be waited for: as much of it as is kept,
and where times are checked that has to be all of it. -/
def canWait (rig : Rig σ α) (ms : Int) : Prop :=
  (Scalar.checked α → Scalar.Fits α ms) ∧ (Scalar.wrap α ms ≤ 0 ∨ rig.speedup ≤ 0
    ∨ Scalar.ofInt (Scalar.wrap α ms) / 1000 / rig.speedup < Scalar.ofInt longestPause)

instance (rig : Rig σ α) (ms : Int) : Decidable (canWait rig ms) :=
  inferInstanceAs (Decidable ((_ → _) ∧ (_ ∨ _ ∨ _)))

/-- The first deadline up to a time. -/
def deadlineBy? (r : Replay σ α) (target : Int) : Option Int :=
  r.navigator.nextDeadline?.filter fun d => d ≤ target

/-- A step on the way to a time, with whether it was the last one. The first event in the queue is
handled, or if there is none the clock moves on, and the navigator is told at a deadline. -/
def step (rig : Rig σ α) (target : Int) (r : Replay σ α) : Bool × Replay σ α :=
  let deadline := r.deadlineBy? target
  let next := max (deadline.getD target) r.clock
  if ¬ canWait rig (next - r.clock) then (true, r.haltWith .pause)
  else match r.queue with
    | event :: events => (false, { r with queue := events }.handle rig event)
    | [] =>
      let r := { r with clock := next }
      if deadline.isSome then (false, r.handle rig .tick) else (true, r)

/-- Waits before each step, up to a number of steps, until the replay halts or a step is the last
one. -/
def steps (rig : Rig σ α) (target : Int) : Nat → Replay σ α → Replay σ α
  | 0, r => r.haltWith .endless
  | n + 1, r =>
    if r.halt.isSome then r
    else match (r.wait rig).step rig target with
      | (true, r) => r
      | (false, r) => steps rig target n r

/-- After this many steps or events without an end the replay is given up. -/
def patience : Nat := twoTo 62

/-- Moves the clock on to a time, or leaves it where it is when it is past that time. -/
def advance (rig : Rig σ α) (target : Int) (r : Replay σ α) : Replay σ α :=
  r.steps rig target patience

/-- Shows an area that is to be driven. -/
def load (rig : Rig σ α) (r : Replay σ α) (area : Area α) : Replay σ α :=
  (r.handle rig (.view ⟨rig.follow, false⟩)).handle rig (.areaLoaded area rig.ranks)

/-- Whether nothing is left to do for further fixes. -/
def isOver (r : Replay σ α) : Bool := r.halt.isSome || r.navigator.phase = .arrived

/-- Replays fixes after the first one, until the driver has arrived. -/
def driveOn (rig : Rig σ α) (r : Replay σ α) : List (Fix α) → Replay σ α
  | [] => r
  | fix :: fixes =>
    let r := (r.advance rig fix.time).handle rig (.fix fix)
    if r.isOver then r else r.driveOn rig fixes

/-- Replays fixes in order. Guidance begins right after the first one. -/
def drive (rig : Rig σ α) (r : Replay σ α) : List (Fix α) → Replay σ α
  | [] => r
  | first :: fixes =>
    if r.halt.isSome then r
    else
      let begun := ({ r with clock := first.time }.handle rig (.fix first)).handle rig .begin
      begun.driveOn rig fixes

/-- Handles the events in the queue, up to a number of them. -/
def emptyQueue (rig : Rig σ α) : Nat → Replay σ α → Replay σ α
  | 0, r => r.haltWith .endless
  | n + 1, r =>
    if r.halt.isSome then r
    else match r.queue with
      | [] => r
      | event :: events => emptyQueue rig n ({ r with queue := events }.handle rig event)

/-- Ends the replay, after waiting once more and handling all that has happened. -/
def finish (rig : Rig σ α) (r : Replay σ α) : Replay σ α :=
  ((r.wait rig).emptyQueue rig patience).handle rig .finish

/-- A whole replay. -/
def run (rig : Rig σ α) (host : σ) (area : Area α) (fixes : List (Fix α)) : Replay σ α :=
  (((start host).load rig area).drive rig fixes).finish rig

end Replay

end Roadbook

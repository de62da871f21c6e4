import Roadbook.Guidance.Navigator

/-!
# The times a call reckons with

To carry out an event a navigator reckons with times: how old a fix is and how long after the one
before it was taken, how long ago there was a sign of life, and when something will be due. Each of
these is a sum or a difference of times (`Navigator.reckoned`), of which a device keeps only so much
(`Scalar.wrap`). A call overflows if one of them does not fit (`Navigator.Overflows`).
-/

namespace Roadbook

variable {α : Type} [Scalar α] [Geodesy α]

/-- How long after the sample before a fix was taken, which is asked while guiding. -/
def Session.reckoned (s : Session α) (fix : Fix α) : List Int :=
  if s.phase.IsGuiding then s.smoother.time.toList.map (fix.time - ·) else []

namespace Outcome

/-- A flush that has to wait for the batch in flight is put off. -/
def reckonedTask (config : Config α) (now : Int) (o : Outcome α) : Task → List Int
  | .settle => []
  | .flush area =>
    match o.navigator.tracker with
    | some t =>
      if t.area = area ∧ t.inFlight.isSome then [now + config.coverage.quiet] else []
    | none => []

def reckonedTasks (config : Config α) (now : Int) (o : Outcome α) : List Task → List Int
  | [] => []
  | task :: tasks =>
    o.reckonedTask config now task ++ reckonedTasks config now (o.runTask config now task) tasks

/-- When the settle delay will be over, where it begins. -/
def reckonedStart (config : Config α) (now : Int) (before : Phase) (o : Outcome α) : List Int :=
  if before ≠ .atStart ∧ o.navigator.phase = .atStart then [now + config.guidance.settleDelay]
  else []

/-- When what a fix makes driven will be stored. -/
def reckonedCover (config : Config α) (now : Int) (fix : Fix α) (o : Outcome α) : List Int :=
  match o.navigator.tracker with
  | some t =>
    if ¬ o.navigator.phase.IsUnderway then []
    else match t.observation? config.coverage fix.point with
      | some (hits, _) => if hits.isEmpty then [] else [now + config.coverage.quiet]
      | none => []
  | none => []

def reckonedFix (config : Config α) (now : Int) (fix : Fix α) (o : Outcome α) : List Int :=
  match o.navigator.session with
  | none => []
  | some s =>
    if ¬ fix.point.IsValid then []
    else (now - fix.time) ::
      match fix.check now config.guidance.maxAge config.guidance.maxAccuracy with
      | some _ => []
      | none =>
        let moved := o.inSession (·.applyFix config now fix)
        s.reckoned fix ++ (moved.reckonedStart config now s.phase
          ++ moved.reckonedCover config now fix)

/-- When what is pending once the outcome of a batch is known will be stored. -/
def reckonedFlushed (config : Config α) (now : Int) (area : String) (success : Bool)
    (o : Outcome α) : List Int :=
  match o.navigator.tracker with
  | some t =>
    if t.area = area ∧ (t.completeFlush success).2.pending.isEmpty = false
        ∧ o.navigator.timers.isScheduled (.flush area) = false then
      [now + config.coverage.quiet]
    else []
  | none => []

/-- How long ago the last sign of life was, which is asked where one is missed. -/
def reckonedTick (now : Int) (o : Outcome α) : List Int :=
  match o.navigator.session with
  | some s =>
    if s.waiting = false ∧ s.ExpectsFixes then s.lastSignal.toList.map (now - ·) else []
  | none => []

def reckonedEvent (config : Config α) (now : Int) (o : Outcome α) : Event α → List Int
  | .fix fix => o.reckonedFix config now fix
  | .flushed area success => o.reckonedFlushed config now area success
  | .tick => o.reckonedTick now
  | _ => []

end Outcome

namespace Navigator

def reckonedDue (config : Config α) (now : Int) (n : Navigator α) : List Int :=
  let (tasks, timers) := n.timers.popDue now
  Outcome.reckonedTasks config now (Outcome.withTimers ⟨n, []⟩ timers) tasks

/-- The sums and differences of times that a call computes. -/
def reckoned (config : Config α) (n : Navigator α) (now : Int) (event : Event α) : List Int :=
  n.reckonedDue config now ++ (n.due config now).reckonedEvent config now event

/-- Not all that a call reckons with fits. -/
def Overflows (config : Config α) (n : Navigator α) (now : Int) (event : Event α) : Prop :=
  ∃ time ∈ n.reckoned config now event, ¬ Scalar.Fits α time

instance (config : Config α) (n : Navigator α) (now : Int) (event : Event α) :
    Decidable (n.Overflows config now event) :=
  inferInstanceAs (Decidable (∃ time ∈ _, _))

end Navigator

end Roadbook

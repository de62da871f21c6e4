import Roadbook.Guidance.Session

/-!
# The navigator

A navigator holds the session and the tracker of the area that is loaded, if any, the timers and
what the map shows. `Navigator.handle` carries out one event at a time of the caller's clock, after
the tasks that are due by then, and answers with the effects. An event that is refused is answered
with the reason, and the effects of the tasks that were due are then not told.
-/

namespace Roadbook

structure Navigator (α : Type) where
  session : Option (Session α)
  tracker : Option (Tracker α)
  timers : Timers
  view : View

/-- A navigator with the effects of the event it is carrying out. -/
structure Outcome (α : Type) where
  navigator : Navigator α
  effects : List (Effect α)

variable {α : Type} [Scalar α] [Geodesy α]

namespace Navigator

/-- Nothing is loaded. -/
def fresh : Navigator α := ⟨none, none, .empty, .standard⟩

/-- What is held for the area that is loaded. -/
def loaded (n : Navigator α) : Option (Session α × Tracker α) :=
  match n.session, n.tracker with
  | some session, some tracker => some (session, tracker)
  | _, _ => none

def phase (n : Navigator α) : Phase :=
  match n.session with
  | some session => session.phase
  | none => .setup

/-- When the caller should send a tick at the latest. -/
def nextDeadline? (n : Navigator α) : Option Int := n.timers.next?

end Navigator

namespace Outcome

def emit (o : Outcome α) (e : Effect α) : Outcome α := { o with effects := o.effects ++ [e] }

def withTimers (o : Outcome α) (timers : Timers) : Outcome α :=
  { o with navigator := { o.navigator with timers := timers } }

def withSession (o : Outcome α) (session : Option (Session α)) : Outcome α :=
  { o with navigator := { o.navigator with session := session } }

def withTracker (o : Outcome α) (tracker : Option (Tracker α)) : Outcome α :=
  { o with navigator := { o.navigator with tracker := tracker } }

/-- Lets the session that is loaded carry out an operation. -/
def inSession (operation : Dispatch α → Dispatch α) (o : Outcome α) : Outcome α :=
  match o.navigator.session with
  | none => o
  | some session =>
    let d := operation ⟨session, o.navigator.timers, o.effects⟩
    ⟨{ o.navigator with session := some d.session, timers := d.timers }, d.effects⟩

/-- Stores what is pending for an area at the end of another quiet period from now on. -/
def scheduleFlush (config : Config α) (now : Int) (area : String) (o : Outcome α) : Outcome α :=
  o.withTimers
    (o.navigator.timers.schedule (.flush area) (Scalar.wrap α (now + config.coverage.quiet)))

/-- Has what is pending stored, or tries again later when a batch is in flight. -/
def flush (config : Config α) (now : Int) (area : String) (o : Outcome α) : Outcome α :=
  match o.navigator.tracker with
  | none => o
  | some t =>
    if t.area ≠ area then o
    else if t.inFlight.isSome then o.scheduleFlush config now area
    else match t.beginFlush with
      | (some batch, tracker) => (o.withTracker (some tracker)).emit (.persist batch false)
      | (none, _) => o

def runTask (config : Config α) (now : Int) (o : Outcome α) : Task → Outcome α
  | .settle => o.inSession (·.settle config now)
  | .flush area => o.flush config now area

/-- Runs the tasks that are due. -/
def runDue (config : Config α) (now : Int) (o : Outcome α) : Outcome α :=
  let (tasks, timers) := o.navigator.timers.popDue now
  tasks.foldl (runTask config now) (o.withTimers timers)

/-- Follows a fix with the camera, when the map is to follow the driver. -/
def aim (fix : Fix α) (o : Outcome α) : Outcome α :=
  match o.navigator.session with
  | some session =>
    if o.navigator.view.follow && !o.navigator.view.overview then
      o.emit (.camera fix.point session.heading)
    else o
  | none => o

/-- Keeps a tracker in which some segments were made driven. Each time some are, the quiet period
before they are stored starts anew. -/
def promote (config : Config α) (now : Int) (hits : IdSet) (tracker : Tracker α) (o : Outcome α) :
    Outcome α :=
  let observed := o.withTracker (some tracker)
  if hits.isEmpty then observed
  else (observed.emit (.segmentsDriven tracker.area hits.toList tracker.percent)).scheduleFlush
    config now tracker.area

/-- Makes the segments near a fix driven, while underway. -/
def cover (config : Config α) (now : Int) (fix : Fix α) (o : Outcome α) :
    Except (Refusal α) (Outcome α) :=
  match o.navigator.session, o.navigator.tracker with
  | some session, some t =>
    if ¬ session.phase.IsUnderway then .ok o
    else match t.observation? config.coverage fix.point with
      | some (hits, tracker) => .ok (o.promote config now hits tracker)
      | none => .error .noBounds
  | _, _ => .ok o

def onFix (config : Config α) (now : Int) (fix : Fix α) (o : Outcome α) :
    Except (Refusal α) (Outcome α) :=
  match fix.check now config.guidance.maxAge config.guidance.maxAccuracy with
  | some _ => .ok (o.inSession (·.loseSignal config))
  | none => ((o.inSession (·.applyFix config now fix)).aim fix).cover config now fix

/-- Takes in the outcome of a batch, and sees to it that what is pending has a deadline. -/
def onFlushed (config : Config α) (now : Int) (area : String) (success : Bool) (o : Outcome α) :
    Outcome α :=
  match o.navigator.tracker with
  | none => o
  | some t =>
    if t.area ≠ area then o
    else
      let (_, tracker) := t.completeFlush success
      let completed := o.withTracker (some tracker)
      if !tracker.pending.isEmpty && !o.navigator.timers.isScheduled (.flush area) then
        completed.scheduleFlush config now area
      else completed

/-- Hands out everything not known to be stored for a last time, and gives up the tracker. -/
def drain (o : Outcome α) : Outcome α :=
  match o.navigator.tracker with
  | none => o
  | some t =>
    match t.drain.1 with
    | some batch => (o.withTracker none).emit (.persist batch true)
    | none => o.withTracker none

/-- Unloads the area. -/
def unload (config : Config α) (now : Int) (o : Outcome α) : Outcome α :=
  ((o.inSession (·.finish config now)).withSession none).drain.withTimers .empty

/-- Shows a route and the coverage of its area, and starts a session on it. -/
def load (area : Area α) (ranks : Nat → Nat) (session : Session α) (o : Outcome α) : Outcome α :=
  let tracker := Tracker.ofArea area ranks
  ((o.withSession (some session)).withTracker (some tracker))
    |>.emit (.showRoute session.route)
    |>.emit (.showCoverage tracker.driven.toList tracker.undriven.toList)
    |>.emit (.phaseChanged .setup .preview)
    |>.emit (.rememberArea area.name)

/-- Loads an area in place of the one that is loaded. -/
def replace (config : Config α) (now : Int) (area : Area α) (ranks : Nat → Nat)
    (session : Session α) (o : Outcome α) : Outcome α :=
  let vacated := if o.navigator.session.isSome then o.unload config now else o
  vacated.load area ranks session

def withView (view : View) (o : Outcome α) : Outcome α :=
  { o with navigator := { o.navigator with view := view } }

end Outcome

namespace Navigator

/-- The navigator once the tasks due by a time have run. -/
def due (config : Config α) (now : Int) (n : Navigator α) : Outcome α :=
  Outcome.runDue config now ⟨n, []⟩

/-- What becomes of an event that is not refused. -/
def respond (config : Config α) (now : Int) (o : Outcome α) :
    Event α → Except (Refusal α) (Outcome α)
  | .areaLoaded area ranks =>
    match Route.ofPoints config.turns area.route with
    | .error fault => .error (.route fault)
    | .ok route =>
      match Session.start? config area.name route with
      | some session => .ok (o.replace config now area ranks session)
      | none => .error .noRoom
  | .fix fix => o.onFix config now fix
  | .begin => .ok (o.inSession (·.begin config now))
  | .acceptOffer => .ok (o.inSession (·.accept config now))
  | .dismissOffer => .ok (o.inSession (·.dismiss config now))
  | .directions id path => .ok (o.inSession (·.resolve id path))
  | .flushed area success => .ok (o.onFlushed config now area success)
  | .view view => .ok (o.withView view)
  | .tick => .ok (o.inSession (·.checkSignal config now))
  | .finish => .ok (o.unload config now)

/-- Carries out an event at a time. -/
def handle (config : Config α) (n : Navigator α) (now : Int) (event : Event α) :
    Except (Refusal α) (List (Effect α)) × Navigator α :=
  let o := n.due config now
  match respond config now o event with
  | .ok o => (.ok o.effects, o.navigator)
  | .error refusal => (.error refusal, o.navigator)

end Navigator

end Roadbook

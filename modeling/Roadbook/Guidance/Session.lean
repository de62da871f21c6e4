import Roadbook.Guidance.Effect
import Roadbook.Guidance.Timers
import Roadbook.Progress.Smoother
import Roadbook.Route.Matching

/-!
# Sessions

A session is the guidance along the route of one loaded area. While an event is carried out it is
part of a `Dispatch`, together with the timers and the effects that have been emitted so far. Every
change of phase goes through `Dispatch.transition`, which takes care of what belongs to the phase
left and the phase entered, and every operation ends by announcing what has changed for the driver.
-/

namespace Roadbook

structure Session (α : Type) where
  area : String
  route : Route α
  phase : Phase
  matcher : Matcher
  smoother : Smoother α
  /-- The point further along the route that the driver may resume at. -/
  offer : Option (Match α)
  /-- The driver is on a part of the route far ahead of progress. -/
  rejoined : Bool
  /-- The driver declined an offer and has not been back on the route since. -/
  dismissed : Bool
  /-- The request for directions that is not answered yet. -/
  pending : Option (Request α)
  nextRequest : Nat
  position : Option (Point α)
  heading : Option α
  /-- When the last fix was accepted, or the driver began. -/
  lastSignal : Option Int
  /-- The driver has been told that there is no signal. -/
  waiting : Bool
  announced : Option Announcement

/-- A session while an event is carried out. -/
structure Dispatch (α : Type) where
  session : Session α
  timers : Timers
  effects : List (Effect α)

variable {α : Type} [Scalar α] [Geodesy α]

namespace Session

/-- The session of a freshly loaded area. -/
def ofRoute (area : String) (route : Route α) (smoother : Smoother α) : Session α where
  area := area
  route := route
  phase := .preview
  matcher := .fresh
  smoother := smoother
  offer := none
  rejoined := false
  dismissed := false
  pending := none
  nextRequest := 1
  position := none
  heading := none
  lastSignal := none
  waiting := false
  announced := none

/-- The session of a freshly loaded area, if there is room for the samples it is to keep. -/
def start? (config : Config α) (area : String) (route : Route α) : Option (Session α) :=
  (Smoother.start? config.smoothing).map (ofRoute area route)

def progress (s : Session α) : α := s.smoother.progress

def remaining (s : Session α) : α := s.route.remaining s.progress

def distanceToStart (s : Session α) (p : Point α) : α := Geodesy.distance p s.route.start

/-- Whether the driver was seen near the start. -/
def isAtStart (config : Config α) (s : Session α) : Bool :=
  match s.position with
  | some p => decide (s.distanceToStart p ≤ config.guidance.startRadius)
  | none => false

/-- Fixes are being waited for. -/
def ExpectsFixes (s : Session α) : Prop := s.phase.IsUnderway ∧ s.phase ≠ .arrived

instance (s : Session α) : Decidable s.ExpectsFixes := inferInstanceAs (Decidable (_ ∧ _))

/-- Meters that a driver has to move before a heading is taken from the two positions. -/
def leastMove : α := 2

/-- The heading after a fix: the one it reports, else that of the move, else the last one. -/
def headingAfter (s : Session α) (fix : Fix α) : Option α :=
  let moved : Option α :=
    match s.position with
    | some p => if leastMove ≤ Geodesy.distance p fix.point then
        some (Geodesy.bearing p fix.point) else none
    | none => none
  (fix.heading <|> moved) <|> s.heading

/-- A session with the position, heading and time of a fix. -/
def withFix (s : Session α) (fix : Fix α) (now : Int) : Session α :=
  { s with
    heading := s.headingAfter fix
    position := some fix.point
    lastSignal := some now
    waiting := false }

/-- Whether the driver is on the route ahead of progress, after a sample taken so far ahead: not
once progress has caught up, and since a sample no vehicle could have got to. -/
def rejoinedAfter (rules : Config.Guidance α) (was outran : Bool) (ahead : α) : Bool :=
  if ahead ≤ rules.resumeAhead then false else was || outran

/-- Finds a position on the route and lets progress follow it. -/
def follow (config : Config α) (s : Session α) (p : Point α) (time : Int) :
    Match α × Session α :=
  let found := s.matcher.locate config.matching s.route p
  let smoother := s.smoother.update config.smoothing found.1.along time
  let rejoined := rejoinedAfter config.guidance s.rejoined smoother.outran
    (found.1.along - smoother.progress)
  (found.1, { s with matcher := found.2, smoother := smoother, rejoined := rejoined })

/-- Drops a dismissal when the driver is on the route, and looks for a point to resume at when the
driver is far off it and has declined none. -/
def seekOffer (config : Config α) (s : Session α) (p : Point α) (offset : α) : Session α :=
  let dismissed := s.dismissed && decide (config.guidance.IsOff offset s.rejoined)
  let offer :=
    if config.guidance.IsFar offset s.rejoined ∧ dismissed = false then
      s.route.resume? p s.progress config.guidance.resumeRadius
    else none
  { s with dismissed := dismissed, offer := offer }

def reading (s : Session α) (p : Point α) (offset : α) : Reading α where
  remaining := s.remaining
  offset := offset
  rejoined := s.rejoined
  canResume := s.offer.isSome
  toStart := s.distanceToStart p

/-- Takes in a position while guiding; the answer is the phase it leads to. -/
def track (config : Config α) (s : Session α) (p : Point α) (time : Int) : Phase × Session α :=
  let (found, followed) := s.follow config p time
  let tracked := followed.seekOffer config p found.distance
  (tracked.phase.next config.guidance (tracked.reading p found.distance), tracked)

def situation (config : Config α) (s : Session α) : Situation α where
  phase := s.phase
  progress := s.progress
  toStart := s.position.map s.distanceToStart
  waiting := s.waiting
  deadBand := config.guidance.deadBand

/-- What the driver is to be told at present. -/
def announcement (config : Config α) (s : Session α) : Announcement :=
  .make s.route (s.situation config)

/-- A session in another phase, without what is of no use there. -/
def enter (s : Session α) (phase : Phase) : Session α :=
  { s with
    phase := phase
    pending := s.pending.filter fun r => r.purpose.phase = phase
    offer := if phase = .resume then s.offer else none }

/-- Guidance starts over at the start of the route. -/
def restart (s : Session α) : Session α :=
  { s with matcher := .fresh, smoother := .fresh, rejoined := false }

/-- Progress moves to a point on offer. -/
def resumeAt (s : Session α) (m : Match α) : Session α :=
  { s with
    smoother := s.smoother.force m.along
    matcher := ⟨some m.leg⟩
    offer := none
    rejoined := false
    dismissed := false }

end Session

namespace Dispatch

def emit (d : Dispatch α) (e : Effect α) : Dispatch α := { d with effects := d.effects ++ [e] }

def withSession (d : Dispatch α) (s : Session α) : Dispatch α := { d with session := s }

/-- Asks for directions, in place of those asked for before. -/
def request (d : Dispatch α) (purpose : Purpose) (start finish : Point α) : Dispatch α :=
  let r : Request α := ⟨d.session.nextRequest, purpose, start, finish⟩
  (d.withSession { d.session with
    pending := some r
    nextRequest := d.session.nextRequest + 1 }).emit (.requestDirections r)

/-- What is done on the way into a phase. -/
def arrange (config : Config α) (now : Int) (before : Phase) (d : Dispatch α) : Dispatch α :=
  match d.session.phase with
  | .toStart =>
    match d.session.position with
    | some p => d.request .toStart p d.session.route.start
    | none => d
  | .atStart =>
    let due := Scalar.wrap α (now + config.guidance.settleDelay)
    { d with timers := d.timers.schedule .settle due }
  | .active => if before.IsGuiding then d else d.withSession d.session.restart
  | .resume =>
    match d.session.position, d.session.offer with
    | some p, some m => d.request .resume p m.foot
    | _, _ => d
  | _ => d

/-- Moves to a phase, unless the session is in it. -/
def transition (config : Config α) (now : Int) (phase : Phase) (d : Dispatch α) : Dispatch α :=
  let before := d.session.phase
  if before = phase then d
  else
    let timers := if before = .atStart then d.timers.cancel .settle else d.timers
    let entered : Dispatch α := { d with session := d.session.enter phase, timers := timers }
    (entered.emit (.phaseChanged before phase)).arrange config now before

/-- Tells the driver what is to be told, unless it is what was told last. -/
def announce (config : Config α) (d : Dispatch α) : Dispatch α :=
  let a := d.session.announcement config
  if d.session.announced = some a then d
  else (d.withSession { d.session with announced := some a }).emit (.instruction a)

/-- Shows a position and the part of the route travelled. -/
def showPosition (d : Dispatch α) (p : Point α) : Dispatch α :=
  d.emit (.position p d.session.heading d.session.progress
    (d.session.route.between 0 d.session.progress))

/-- On the way to the start, asks how to get there if nothing was ever asked. -/
def askForStart (p : Point α) (d : Dispatch α) : Dispatch α :=
  if d.session.phase = .toStart ∧ d.session.pending.isNone ∧ d.session.nextRequest = 1 then
    d.request .toStart p d.session.route.start
  else d

/-- Takes in the point of a fix; the answer is the phase it leads to. -/
def advance (config : Config α) (p : Point α) (time : Int) (d : Dispatch α) :
    Phase × Dispatch α :=
  let s := d.session
  if s.phase.IsGuiding then
    let (phase, tracked) := s.track config p time
    (phase, d.withSession tracked)
  else (s.phase.next config.guidance (s.reading p (s.distanceToStart p)), d.askForStart p)

/-- Carries out a fix that has been found good. Far off without anything on offer, the driver is
merely off the route. -/
def applyFix (config : Config α) (now : Int) (fix : Fix α) (d : Dispatch α) : Dispatch α :=
  let received := d.withSession (d.session.withFix fix now)
  let restored := if d.session.waiting then received.emit .signalRestored else received
  let (phase, advanced) := restored.advance config fix.point fix.time
  let moved := advanced.transition config now phase
  let settled :=
    if moved.session.phase = .resume ∧ moved.session.offer.isNone then
      moved.transition config now .offRoute
    else moved
  (settled.showPosition fix.point).announce config

/-- The driver begins. -/
def begin (config : Config α) (now : Int) (d : Dispatch α) : Dispatch α :=
  if d.session.phase = .preview then
    let phase : Phase := if d.session.isAtStart config then .active else .toStart
    ((d.withSession { d.session with lastSignal := some now }).transition config now phase).announce
      config
  else d

/-- The settle delay is over. -/
def settle (config : Config α) (now : Int) (d : Dispatch α) : Dispatch α :=
  if d.session.phase = .atStart then (d.transition config now .active).announce config else d

/-- The driver resumes at the point on offer. -/
def accept (config : Config α) (now : Int) (d : Dispatch α) : Dispatch α :=
  match d.session.offer with
  | some m =>
    if d.session.phase = .resume then
      let resumed := (d.withSession (d.session.resumeAt m)).transition config now .active
      let shown :=
        match resumed.session.position with
        | some p => resumed.showPosition p
        | none => resumed
      shown.announce config
    else d
  | none => d

/-- The driver declines the point on offer. -/
def dismiss (config : Config α) (now : Int) (d : Dispatch α) : Dispatch α :=
  if d.session.phase = .resume then
    let s := { d.session with dismissed := true, offer := none }
    ((d.withSession s).transition config now .offRoute).announce config
  else d

/-- The path to show for a request: the one found, or a straight line. -/
def path (r : Request α) (found : Option (List (Point α))) : List (Point α) × Bool :=
  match found with
  | some path => if 2 ≤ path.length then (path, false) else ([r.start, r.finish], true)
  | none => ([r.start, r.finish], true)

/-- Directions have been found, or not. They are of use only for the request that is pending, in the
phase it was made for. -/
def resolve (id : Nat) (found : Option (List (Point α))) (d : Dispatch α) : Dispatch α :=
  match d.session.pending with
  | some r =>
    if r.id = id ∧ d.session.phase = r.purpose.phase then
      let (line, straight) := path r found
      (d.withSession { d.session with pending := none }).emit
        (.guidancePath r.purpose line straight)
    else d
  | none => d

/-- There is no usable fix. -/
def loseSignal (config : Config α) (d : Dispatch α) : Dispatch α :=
  if d.session.waiting = false ∧ d.session.ExpectsFixes then
    ((d.withSession { d.session with waiting := true }).emit .signalLost).announce config
  else d

/-- Loses the signal when the last one is too old. -/
def checkSignal (config : Config α) (now : Int) (d : Dispatch α) : Dispatch α :=
  match d.session.lastSignal with
  | some last =>
    if config.guidance.signalTimeout < Scalar.wrap α (now - last) then d.loseSignal config else d
  | none => d

/-- Guidance is over. -/
def finish (config : Config α) (now : Int) (d : Dispatch α) : Dispatch α :=
  d.transition config now .setup

end Dispatch

end Roadbook

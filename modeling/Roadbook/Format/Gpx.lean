import Roadbook.Format.DateTime
import Roadbook.Ground.Point
import Roadbook.Text.Xml.Reader

/-!
# GPX documents

The points of a GPX document, of version 1.0 or 1.1: those of its tracks in order, or when there are
none those of its routes. Every element has to be one that may stand where it stands, and to hold
what it should; text between elements is passed over. What an element should hold is said by tables
of checks. Reading ends at the first fault.
-/

namespace Roadbook.Gpx

inductive Version where
  | v10
  | v11
  deriving DecidableEq, Repr

def Version.ofText? : String → Option Version
  | "1.0" => some .v10
  | "1.1" => some .v11
  | _ => none

/-- What is wrong with a document. -/
inductive Fault where
  | malformed
  /-- A time is in no year of the calendar when it is told in universal time. -/
  | timeOutOfRange
  deriving DecidableEq, Repr

/-- The first fault of an element with some attributes and children, if there is one. -/
abbrev Check := List (String × String) → List Xml → Except Fault Unit

/-- The checks for the elements of some names. -/
abbrev Table := List (List String × Check)

section Checks

def malformedUnless (holds : Bool) : Except Fault Unit :=
  if holds then .ok () else .error .malformed

def isNumber (s : String) : Bool := (Literal.read? s).isSome

/-- Whether a text is an unsigned number of some bits. -/
def isUnsigned (bits : Nat) (s : String) : Bool :=
  let cs := s.toList
  let ds := if cs.head? = some '+' then cs.tail else cs
  !ds.isEmpty && ds.all Literal.isDigit && digitsValue ds < twoTo bits

/-- The element holds no other, and of its texts the last one is looked at. -/
def lastText (check : Option String → Except Fault Unit) : Check := fun _ children =>
  match Xml.lastText? children with
  | some last => check last
  | none => .error .malformed

def anyText : Check := lastText fun _ => .ok ()

def someText : Check := lastText fun last => malformedUnless last.isSome

/-- The element holds a text that passes a test. -/
def textThat (test : String → Bool) : Check := lastText fun last => malformedUnless (last.any test)

/-- The element holds a text that passes a test, or none. -/
def noneOr (test : String → Bool) : Check := lastText fun last => malformedUnless (last.all test)

/-- The element holds a date and time. -/
def time : Check := lastText fun last =>
  match last.bind DateTime.read? with
  | some d => if d.universalDay.IsInCalendar then .ok () else .error .timeOutOfRange
  | none => .error .malformed

/-- The node is a text, or an element that passes the check in a table. -/
def entry (table : Table) : Xml → Except Fault Unit
  | .text _ => .ok ()
  | .fault => .error .malformed
  | .element name attributes children =>
    match table.find? fun entry => entry.1.contains name with
    | some (_, check) => check attributes children
    | none => .error .malformed

/-- The elements in the element are those of a table. -/
def group (table : Table) : Check := fun _ children => children.forM (entry table)

/-- The element has some attributes. -/
def having (names : List String) (check : Check) : Check := fun attributes children => do
  malformedUnless (names.all fun name => (Xml.valueOf? name attributes).isSome)
  check attributes children

def nothing : Check := fun _ children => malformedUnless children.isEmpty

def anything : Check := fun _ children => malformedUnless (Xml.areWhole children)

end Checks

section Tables

def link : Check := having ["href"] (group [(["text", "type"], anyText)])

def email : Check := having ["id", "domain"] nothing

def person : Check := group [(["name"], someText), (["email"], email), (["link"], link)]

def copyright : Check := group [(["year", "license"], someText)]

def numberOf? (name : String) (attributes : List (String × String)) : Option Float := do
  Literal.read? (← Xml.valueOf? name attributes)

/-- The element says between which latitudes and longitudes everything is. -/
def bounds : Check := fun attributes children => do
  let limits := ["minlat", "maxlat", "minlon", "maxlon"].mapM fun name => numberOf? name attributes
  malformedUnless <| match limits with
    | some [south, north, west, east] => !(north < south) && !(east < west)
    | _ => false
  group [] attributes children

def metadata : Check :=
  group [(["name", "desc", "keywords"], anyText), (["author"], person), (["time"], time),
    (["link"], link), (["bounds"], bounds), (["copyright"], copyright), (["extensions"], anything)]

/-- What may stand at a point. -/
def pointTable (version : Version) : Table :=
  [(["ele"], noneOr isNumber), (["time"], time), (["name", "cmt", "desc", "src"], anyText),
    (["sym", "type", "fix"], someText),
    (["geoidheight", "hdop", "vdop", "pdop", "ageofdgpsdata"], textThat isNumber),
    (["sat"], textThat (isUnsigned 64)), (["dgpsid"], textThat (isUnsigned 16)), (["link"], link),
    (["extensions"], anything)] ++
  if version = .v10 then [(["speed"], textThat isNumber)] else []

/-- What may stand in a track or a route beside its name and its points. -/
def lineTable : Table :=
  [(["type"], someText), (["cmt", "desc", "src"], anyText), (["number"], textThat (isUnsigned 32)),
    (["link"], link), (["extensions"], anything)]

/-- What may stand in a track beside its segments. -/
def trackTable : Table := (["name"], anyText) :: lineTable

/-- What may stand in a route beside its points. -/
def routeTable : Table := (["name"], someText) :: lineTable

/-- What may stand at the top beside tracks, routes and points. -/
def topTable : Version → Table
  | .v10 =>
    [(["name", "author", "email", "url", "urlname"], someText), (["desc", "keywords"], anyText),
      (["time"], time), (["bounds"], bounds), (["extensions"], anything)]
  | .v11 => [(["metadata"], metadata), (["extensions"], anything)]

end Tables

section Points

/-- The points of the tracks and of the routes of a document. -/
structure Content where
  tracks : List (Point Float)
  routes : List (Point Float)

def Content.points (c : Content) : List (Point Float) :=
  if c.tracks.isEmpty then c.routes else c.tracks

/-- The contents of parts of a document, one after the other. -/
def Content.join (parts : List Content) : Content :=
  ⟨parts.flatMap (·.tracks), parts.flatMap (·.routes)⟩

/-- The position that attributes give: a latitude up to either pole, and a longitude from -180 up to
but not including 180. -/
def position? (attributes : List (String × String)) : Option (Point Float) := do
  let lat ← numberOf? "lat" attributes
  let lon ← numberOf? "lon" attributes
  if -90 ≤ lat ∧ lat ≤ 90 ∧ -180 ≤ lon ∧ lon < 180 then some ⟨lon, lat⟩ else none

variable (version : Version)

/-- The point that an element stands for. -/
def point (attributes : List (String × String)) (children : List Xml) :
    Except Fault (Point Float) := do
  match position? attributes with
  | some p =>
    group (pointTable version) attributes children
    return p
  | none => throw .malformed

/-- The points among some nodes, which are elements of one name or of a table. -/
def points (name : String) (table : Table) (nodes : List Xml) :
    Except Fault (List (Point Float)) := do
  let parts ← nodes.mapM fun node =>
    match node with
    | .element n attributes children =>
      if n = name then return [← point version attributes children]
      else do
        entry table node
        return []
    | _ => do
      entry table node
      return []
  return parts.flatten

/-- The points of the segments of a track. -/
def trackPoints (nodes : List Xml) : Except Fault (List (Point Float)) := do
  let parts ← nodes.mapM fun node =>
    match node with
    | .element "trkseg" _ children => points version "trkpt" [] children
    | _ => do
      entry trackTable node
      return []
  return parts.flatten

def routePoints : List Xml → Except Fault (List (Point Float)) := points version "rtept" routeTable

/-- What a node at the top of a document holds. -/
def content : Xml → Except Fault Content
  | .element "trk" _ children => return ⟨← trackPoints version children, []⟩
  | .element "rte" _ children => return ⟨[], ← routePoints version children⟩
  | .element "wpt" attributes children => do
    let _ ← point version attributes children
    return ⟨[], []⟩
  | node => do
    entry (topTable version) node
    return ⟨[], []⟩

end Points

/-- The points of a document, or its first fault. -/
def read (document : String) : Except Fault (List (Point Float)) :=
  match Xml.read document with
  | .element "gpx" attributes children =>
    match (Xml.valueOf? "version" attributes).bind Version.ofText? with
    | some version => return (Content.join (← children.mapM (content version))).points
    | none => throw .malformed
  | _ => throw .malformed

end Roadbook.Gpx

import Roadbook.Format.AreaFile
import Roadbook.Format.ConfigFile
import Roadbook.Format.FixLog
import Roadbook.Format.Gpx
import Roadbook.Storage.Disk

/-!
# Areas, fixes and configurations on a disk

The route of an area is a GPX document named after the area; what else is known of the area may
stand beside it. Fixes are a GPX document, when the name of the file says so, or else a log.
-/

namespace Roadbook

inductive FileFault where
  | disk (fault : DiskFault)
  /-- There is no route for the area. -/
  | noRoute (area : String)
  /-- The route of the area is no GPX document that can be used. -/
  | routeInvalid (fault : Gpx.Fault)
  /-- What is known of the area has not the right form. -/
  | areaInvalid (fault : DecodeError)
  /-- The fixes are no GPX document that can be used. -/
  | fixesInvalid (fault : Gpx.Fault)
  /-- At this interval there is no time for a point of a track. -/
  | intervalTooLong
  /-- A line of a log is no fix. -/
  | badFix (line : Nat)
  | configInvalid
  deriving DecidableEq, Repr

def FileFault.message? : FileFault → Option String
  | .noRoute area => some ("No route found for area " ++ area)
  | .badFix line => some ("Invalid fix on line " ++ toString line)
  | _ => none

/-- Whether a file asks for more than can be dealt with. -/
def FileFault.isBeyondLimits : FileFault → Bool
  | .routeInvalid .timeOutOfRange | .fixesInvalid .timeOutOfRange | .intervalTooLong => true
  | _ => false

/-- What stands after the last dot in the name of a file, if anything stands before that dot. -/
def fileKind? (path : String) : Option String :=
  match ((pathNames path).filter fun name => !stays name).getLast? with
  | none | some ".." => none
  | some name =>
    match (splitAt '.' name.toList).reverse with
    | [] | [_] | [_, []] => none
    | kind :: _ => some (String.ofList kind)

namespace Disk

def routePath (folder area : String) : String := pathIn folder (area ++ ".gpx")

def coveragePath (folder area : String) : String := pathIn folder (area ++ ".coverage.json")

/-- The area of a name, from the files in a folder. -/
def area (disk : Disk) (folder name : String) : Except FileFault (Area Float) := do
  let some document ← (disk.readIfPresent (routePath folder name)).mapError .disk
    | throw (.noRoute name)
  let route ← (Gpx.read document).mapError .routeInvalid
  match ← (disk.readIfPresent (coveragePath folder name)).mapError .disk with
  | some text => (Json.decode (Area.coverageDecoder name route) text).mapError .areaInvalid
  | none => return ⟨name, route, [], 0⟩

/-- The fixes in a file. Those of a GPX document are one interval apart. -/
def fixes (disk : Disk) (path : String) (interval : Int) : Except FileFault (List (Fix Float)) :=
  if (fileKind? path).map String.toLower = some "gpx" then
    match disk.read path with
    | .ok document => do
      let points ← (Gpx.read document).mapError .fixesInvalid
      let some fixes := Fix.ofTrack? interval points | throw .intervalTooLong
      return fixes
    | .error .isFolder => .error (.fixesInvalid .malformed)
    | .error e => .error (.disk e)
  else
    match disk.read path with
    | .ok text => (Fix.readLog Fix.ofLine? text.toList).mapError .badFix
    | .error e => .error (.disk e)

/-- The configuration in a file, or the standard one when no file is named. -/
def config (disk : Disk) : Option String → Except FileFault (Config Float)
  | none => .ok .standard
  | some path =>
    match disk.read path with
    | .ok text => (Json.decode Config.decoder text).mapError fun _ => .configInvalid
    | .error e => .error (.disk e)

end Disk

/-- Numbers in which configurations, areas and fixes are read from a disk. -/
class Files (α : Type) where
  config : Disk → Option String → Except FileFault (Config α)
  /-- The area of a name, from the files in a folder. -/
  area (disk : Disk) (folder name : String) : Except FileFault (Area α)
  fixes (disk : Disk) (path : String) (interval : Int) : Except FileFault (List (Fix α))

instance : Files Float := ⟨Disk.config, Disk.area, Disk.fixes⟩

end Roadbook

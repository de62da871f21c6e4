import Roadbook.CommandLine.Run

/-!
# What the program says

The texts for those who use the program: how it is used, why a run stopped, and what it came to.
-/

namespace Roadbook

/-- Whole meters, and percentages to one place. -/
def metersPlaces : Decimal.Places := ⟨0, false⟩

def percentPlaces : Decimal.Places := ⟨1, false⟩

def DiskFault.message : DiskFault → String
  | .notFound => "there is no such file"
  | .isFolder => "this is a folder"
  | .notFolder => "this is in no folder"
  | .nameTooLong => "this name is too long"
  | .notPath => "this is no path"

def FileFault.message (fault : FileFault) : String :=
  match fault with
  | .disk e => "A file cannot be read: " ++ e.message
  | .routeInvalid .malformed => "The route of the area is no GPX document"
  | .fixesInvalid .malformed => "The fixes are no GPX document"
  | .routeInvalid .timeOutOfRange | .fixesInvalid .timeOutOfRange =>
    "A time in a GPX document is in no year of the calendar"
  | .intervalTooLong => "The interval between the points of the track is too long"
  | .areaInvalid _ => "What is known of the area has not the right form"
  | .configInvalid => "The configuration has not the right form"
  | .noRoute _ | .badFix _ => fault.message?.getD ""

def StoreFault.message : StoreFault → String
  | .unreadable => "The storage cannot be read"
  | .invalid => "The storage has not the right form"

def RunFault.message (fault : RunFault) : String :=
  match fault with
  | .file e => e.message
  | .store e => e.message
  | .halt .pause => "There is no pause of this length"
  | .halt .endless => "The replay does not come to an end"
  | .halt (.refusal .noRoom) => "There is no room for so many samples, or for a time"
  | .halt (.refusal .noBounds) => "It cannot be told where a segment is"
  | .noArea | .halt (.refusal (.route _)) => fault.message?.getD ""

def helpLines : List String :=
  ["Replays a drive along the route of an area.", "",
    "  -a, --area NAME          the area, or else the one loaded last",
    "  -d, --data-dir DIR       the folder with the files of the areas",
    "  -f, --fixes FILE         the fixes to replay",
    "  -c, --config FILE        the configuration",
    "      --storage FILE       the file with what is stored",
    "      --speedup X          how many times faster to replay; 0 for at once",
    "      --gpx-interval-ms N  the milliseconds between the points of a track",
    "      --no-follow          the map does not follow the driver",
    "      --auto-resume        every offer to resume is accepted",
    "      --ignore-persisted   nothing stored by earlier runs counts",
    "  -h, --help               this text",
    "  -V, --version            the version"]

def Usage.message : Usage → String
  | .fixesMissing => "No fixes are named"
  | .valueMissing => "An option has no value"
  | .badNumber => "The value of an option is no number"
  | .unknownWord => "There is no such option"
  | .givenTwice => "An option is given twice"
  | .needlessValue => "This option takes no value"
  | .help => "\n".intercalate helpLines
  | .version => "roadbook 1"

def Stats.message (s : Stats Float) : String :=
  let coverage := match s.percent with
    | some x => Decimal.fixed percentPlaces x ++ " % driven"
    | .none => "nothing driven"
  "Replayed to " ++ Decimal.fixed metersPlaces s.progress ++ " m, with " ++
    toString s.instructions ++ " instructions, " ++ toString s.segmentsDriven ++
    " newly driven segments, and " ++ coverage

end Roadbook

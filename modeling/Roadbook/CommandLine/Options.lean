import Roadbook.Number.Literal

/-!
# Options of the command line

What a run is told on the command line. An option takes its value from the same word, after an
equals sign or, for a short name, right behind it, or else from the next word. Such a value is
looked at only when the next option or the end of the line is reached, so that a word that means
nothing is told first. Each option may be given once.
-/

namespace Roadbook

structure Options (α : Type := Float) where
  /-- The area to load, when it is not the one loaded last. -/
  area : Option String
  /-- The folder with the files of the areas. -/
  folder : String
  fixes : String
  config : Option String
  storage : Option String
  /-- How much faster than the fixes were taken they are replayed; at once when this is not more
  than zero. -/
  speedup : α
  /-- Milliseconds between the points of a track. -/
  interval : Int
  noFollow : Bool
  autoResume : Bool
  ignoreStored : Bool

/-- What a command line is answered when it is not carried out. -/
inductive Usage where
  | fixesMissing
  /-- An option has no value, or an empty path. -/
  | valueMissing
  /-- The value of an option is not the number it should be. -/
  | badNumber
  | unknownWord
  | givenTwice
  /-- A value is given to an option that takes none. -/
  | needlessValue
  | help
  | version
  deriving DecidableEq, Repr

namespace Options

inductive Key where
  | area
  | folder
  | fixes
  | config
  | storage
  | speedup
  | interval
  deriving DecidableEq, Repr

inductive Switch where
  | noFollow
  | autoResume
  | ignoreStored
  deriving DecidableEq, Repr

/-- What the name of an option stands for. -/
inductive Word where
  | key (key : Key)
  | switch (switch : Switch)
  | help
  | version
  deriving DecidableEq, Repr

def long? : String → Option Word
  | "area" => some (.key .area)
  | "data-dir" => some (.key .folder)
  | "fixes" => some (.key .fixes)
  | "config" => some (.key .config)
  | "storage" => some (.key .storage)
  | "speedup" => some (.key .speedup)
  | "gpx-interval-ms" => some (.key .interval)
  | "no-follow" => some (.switch .noFollow)
  | "auto-resume" => some (.switch .autoResume)
  | "ignore-persisted" => some (.switch .ignoreStored)
  | "help" => some .help
  | "version" => some .version
  | _ => none

def short? : Char → Option Word
  | 'a' => some (.key .area)
  | 'd' => some (.key .folder)
  | 'f' => some (.key .fixes)
  | 'c' => some (.key .config)
  | 'h' => some .help
  | 'V' => some .version
  | _ => none

/-- The options when none is given. -/
def standard : Options := ⟨none, ".", "", none, none, 0, 1000, false, false, false⟩

def path (value : String) : Except Usage String :=
  if value.isEmpty then .error .valueMissing else .ok value

def float (value : String) : Except Usage Float :=
  match Literal.read? value with
  | some x => .ok x
  | none => .error .badNumber

/-- A signed integer of 64 bits. -/
def int (value : String) : Except Usage Int :=
  match Literal.readInt? value with
  | some n => if -twoTo 63 ≤ n ∧ n < twoTo 63 then .ok n else .error .badNumber
  | none => .error .badNumber

def set (o : Options) (key : Key) (value : String) : Except Usage Options :=
  match key with
  | .area => .ok { o with area := some value }
  | .folder => (path value).map fun p => { o with folder := p }
  | .fixes => (path value).map fun p => { o with fixes := p }
  | .config => (path value).map fun p => { o with config := some p }
  | .storage => (path value).map fun p => { o with storage := some p }
  | .speedup => (float value).map fun x => { o with speedup := x }
  | .interval => (int value).map fun n => { o with interval := n }

def turnOn (o : Options) : Switch → Options
  | .noFollow => { o with noFollow := true }
  | .autoResume => { o with autoResume := true }
  | .ignoreStored => { o with ignoreStored := true }

/-- The same options with each of the paths changed. -/
def mapPaths (change : String → String) (o : Options) : Options :=
  { o with
    folder := change o.folder
    fixes := change o.fixes
    config := o.config.map change
    storage := o.storage.map change }

/-- What is known after some words of a command line. -/
structure Draft where
  options : Options
  given : List Word
  /-- The option that comes last, with its value once that is there. -/
  pending : Option (Key × Option String)

namespace Draft

def empty : Draft := ⟨standard, [], none⟩

/-- Sets an option that is not set yet. -/
def store (d : Draft) (key : Key) (value : String) : Except Usage Draft :=
  if d.given.contains (.key key) then .error .givenTwice
  else (d.options.set key value).map fun o => ⟨o, .key key :: d.given, d.pending⟩

/-- Looks at the value that is pending. -/
def settle (d : Draft) : Except Usage Draft :=
  match d.pending with
  | none => .ok d
  | some (_, none) => .error .valueMissing
  | some (key, some value) => store { d with pending := none } key value

def turnOn (d : Draft) (switch : Switch) : Except Usage Draft :=
  if d.given.contains (.switch switch) then .error .givenTwice
  else .ok ⟨d.options.turnOn switch, .switch switch :: d.given, d.pending⟩

/-- Takes in an option, with the value that comes in the same word. -/
def take (d : Draft) (word : Word) (value : Option String) : Except Usage Draft :=
  match word, value with
  | .key key, some v => d.settle.bind fun d => d.store key v
  | .key key, none => d.settle.map fun d => { d with pending := some (key, none) }
  | _, some _ => .error .needlessValue
  | .switch switch, none => d.settle.bind fun d => d.turnOn switch
  | .help, none => d.settle.bind fun _ => .error .help
  | .version, none => d.settle.bind fun _ => .error .version

/-- A value without the equals sign before it. -/
def withoutEquals : List Char → List Char
  | '=' :: cs => cs
  | cs => cs

def takeLong (d : Draft) (cs : List Char) : Except Usage Draft :=
  match long? (String.ofList (cs.takeWhile (· != '='))) with
  | none => .error .unknownWord
  | some word =>
    d.take word (match cs.dropWhile (· != '=') with
      | [] => none
      | value => some (String.ofList (withoutEquals value)))

/-- Takes in a run of short names, the last of which may have its value behind it. -/
def takeShort (d : Draft) : List Char → Except Usage Draft
  | [] => .ok d
  | c :: cs =>
    match short? c with
    | none => .error .unknownWord
    | some (.key key) =>
      d.take (.key key) (if cs.isEmpty then none else some (String.ofList (withoutEquals cs)))
    | some word => (d.take word none).bind fun d => d.takeShort cs

def takeWord (d : Draft) (word : String) : Except Usage Draft :=
  match word.toList with
  | '-' :: '-' :: cs => d.takeLong cs
  | '-' :: c :: cs => d.takeShort (c :: cs)
  | _ =>
    match d.pending with
    | some (key, none) => .ok { d with pending := some (key, some word) }
    | _ => .error .unknownWord

/-- The options, which have to name the fixes. -/
def finish (d : Draft) : Except Usage Options :=
  d.settle.bind fun d =>
    if d.given.contains (.key .fixes) then .ok d.options else .error .fixesMissing

/-- Takes in words up to the end of the line. Two hyphens alone end the options, and nothing else
may follow them. -/
def takeWords (d : Draft) : List String → Except Usage Options
  | [] => d.finish
  | "--" :: words => if words.isEmpty then d.finish else .error .unknownWord
  | word :: words => (d.takeWord word).bind fun d => d.takeWords words

end Draft

/-- The options that the words of a command line stand for. -/
def ofWords (words : List String) : Except Usage Options := Draft.empty.takeWords words

end Options

end Roadbook

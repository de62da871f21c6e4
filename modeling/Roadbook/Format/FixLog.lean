import Roadbook.Fix
import Roadbook.Text.Blank
import Roadbook.Text.Json.Decoder

/-!
# Logs of fixes

A log holds one fix on each line, as JSON. Empty lines and lines that start with a number sign say
nothing. The fixes of a log are in the order of their times, those of one time in the order of the
log; a line that is no fix spoils the log and is named by its number.
-/

namespace Roadbook.Fix

open Decoder

def decoder : Decoder (Fix Float) :=
  record
    [field "lat" float fun x f => { f with lat := x },
      field "lon" float fun x f => { f with lon := x },
      (field "accuracy_meters" (optional float) fun x f => { f with accuracy := x }).orElse,
      (field "heading_deg" (optional float) fun x f => { f with heading := x }).orElse,
      (field "speed_mps" (optional float) fun x f => { f with speed := x }).orElse,
      field "timestamp_ms" int fun n f => { f with time := n }]
    ⟨0, 0, none, none, none, 0⟩

/-- The fix a line stands for. -/
def ofLine? (line : List Char) : Option (Fix Float) :=
  (Json.decode decoder (String.ofList line)).toOption

variable {α : Type}

/-- Whether a line says something. -/
def isEntry (line : List Char) : Bool := !line.isEmpty && line.head? != some '#'

/-- The fixes on some lines, the first of which has this number, or the number of the first line
that is none. -/
def readLines (decode : List Char → Option (Fix α)) (number : Nat) :
    List (List Char) → Except Nat (List (Fix α))
  | [] => .ok []
  | line :: rest =>
    if isEntry (trimmed line) then
      match decode (trimmed line) with
      | some f => (readLines decode (number + 1) rest).map (f :: ·)
      | none => .error number
    else readLines decode (number + 1) rest

def inOrder (fixes : List (Fix α)) : List (Fix α) :=
  fixes.mergeSort fun f g => decide (f.time ≤ g.time)

/-- The fixes of a log, or the number of its first bad line. -/
def readLog (decode : List Char → Option (Fix α)) (text : List Char) :
    Except Nat (List (Fix α)) :=
  (readLines decode 1 (linesOf text)).map inOrder

/-- Fixes at the points of a track, one each interval from time zero on. Where times are checked
there are none unless all the times fit. -/
def ofTrack? [Scalar α] (interval : Int) (points : List (Point α)) : Option (List (Fix α)) :=
  if Scalar.checked α → ∀ i < points.length, Scalar.Fits α (i * interval) then
    some (points.zipIdx.map fun (p, i) => ofPoint p (Scalar.wrap α (i * interval)))
  else none

end Roadbook.Fix

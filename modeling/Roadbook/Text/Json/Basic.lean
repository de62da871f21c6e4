/-!
# JSON values

A JSON value as it is read from a text. A text may stop being JSON somewhere: then the value holds
all that came before, and at that place says what is wrong (`Json.Fault`). So a reader of values can
tell which comes first in the text, a value it has no use for or the end of what can be read
(`Json.fault?` is for values that are skipped).
-/

namespace Roadbook

namespace Json

inductive Fault where
  /-- The text ends too early. -/
  | truncated
  | malformed
  /-- The text ends in a number that needs another digit. -/
  | openNumber
  /-- The text ends in a string that has half of a surrogate pair in it. -/
  | openUnpaired
  deriving DecidableEq, Repr

end Json

inductive Json where
  | null
  | bool (value : Bool)
  /-- An integer of at most 64 bits, written as one. -/
  | int (value : Int)
  /-- Any other number; infinite when it is out of range. -/
  | real (value : Float)
  | string (value : String)
  /-- A string with half of a surrogate pair in it. -/
  | unpaired
  | array (items : List Json) (fault : Option Json.Fault)
  /-- A key with half of a surrogate pair in it is missing. -/
  | object (members : List (Option String × Json)) (fault : Option Json.Fault)
  | broken (fault : Json.Fault)
  deriving Repr

namespace Json

def list (items : List Json) : Json := array items none

def record (members : List (String × Json)) : Json :=
  object (members.map fun (key, j) => (some key, j)) none

mutual

/-- What is wrong with a value, where it stops being JSON. -/
def fault? : Json → Option Fault
  | array items fault => itemsFault? items <|> fault
  | object members fault => membersFault? members <|> fault
  | broken fault => some fault
  | _ => none

def itemsFault? : List Json → Option Fault
  | [] => none
  | j :: js => j.fault? <|> itemsFault? js

def membersFault? : List (Option String × Json) → Option Fault
  | [] => none
  | (_, j) :: js => j.fault? <|> membersFault? js

end

end Json

end Roadbook

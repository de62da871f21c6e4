import Roadbook.Text.Json.Reader

/-!
# Values from JSON

A decoder makes a value of a type from a JSON value. Of several faults the one that comes first in
the text is reported. Records (`Decoder.record`) are written as objects, whose unknown members are
ignored and whose known ones occur at most once, or as arrays of their fields in order; fields that
may be missing may also be missing at the end of the array.
-/

namespace Roadbook

/-- Why a text is not a value of the type that is wanted. -/
inductive DecodeError where
  /-- The text ends too early. -/
  | truncated
  /-- The text is not JSON, or not of the right form. -/
  | invalid
  deriving DecidableEq, Repr

/-- The error for a fault in a value that is wanted. -/
def Json.Fault.whenRead : Json.Fault → DecodeError
  | .truncated | .openNumber => .truncated
  | .malformed | .openUnpaired => .invalid

/-- The error for a fault in a value that is skipped: surrogates are then not looked at, and an end
in a number counts as a number of the wrong form. -/
def Json.Fault.whenSkipped : Json.Fault → DecodeError
  | .truncated | .openUnpaired => .truncated
  | .malformed | .openNumber => .invalid

abbrev Decoder (β : Type) := Json → Except DecodeError β

namespace Decoder

variable {β γ : Type}

/-- The answer for a value of the wrong kind. -/
def refuse (j : Json) : Except DecodeError γ :=
  match j with
  | .broken fault => .error fault.whenRead
  | _ => .error .invalid

def bool : Decoder Bool
  | .bool b => .ok b
  | j => refuse j

def string : Decoder String
  | .string s => .ok s
  | j => refuse j

/-- A number in the range of 64-bit binary numbers. -/
def float : Decoder Float
  | .int n => .ok (Float.ofInt n)
  | .real x => if x.isFinite then .ok x else .error .invalid
  | j => refuse j

def intIn (low bound : Int) : Decoder Int
  | .int n => if low ≤ n ∧ n < bound then .ok n else .error .invalid
  | j => refuse j

/-- A signed integer of 64 bits. -/
def int : Decoder Int := intIn (-twoTo 63) (twoTo 63)

/-- An unsigned integer of 64 bits. -/
def nat : Decoder Nat := fun j => (intIn 0 (twoTo 64) j).map Int.toNat

def optional (decode : Decoder β) : Decoder (Option β)
  | .null => .ok none
  | j => (decode j).map some

def failOn : Option Json.Fault → Except DecodeError Unit
  | some fault => .error fault.whenRead
  | none => .ok ()

/-- Passes over a value that is not wanted. -/
def skip : Decoder Unit := fun j =>
  match j.fault? with
  | some fault => .error fault.whenSkipped
  | none => .ok ()

def list (decode : Decoder β) : Decoder (List β)
  | .array items fault => do
    let bs ← items.mapM decode
    failOn fault
    return bs
  | j => refuse j

def key : Option String → Except DecodeError String
  | some name => .ok name
  | none => .error .invalid

/-- The members of an object in order. -/
def members (decode : Decoder β) : Decoder (List (String × β))
  | .object members fault => do
    let bs ← members.mapM fun (k, j) => do
      let name ← key k
      return (name, ← decode j)
    failOn fault
    return bs
  | j => refuse j

/-- A field of a record, with what storing its value does to the record. -/
structure Member (β : Type) where
  name : String
  required : Bool
  read : Json → β → Except DecodeError β

def field (name : String) (decode : Decoder γ) (store : γ → β → β) : Member β :=
  ⟨name, true, fun j b => (decode j).map fun c => store c b⟩

/-- The same field, which may be missing. -/
def Member.orElse (f : Member β) : Member β := { f with required := false }

def Member.missing (fields : List (Member β)) (seen : List String) : Bool :=
  fields.any fun f => f.required && !seen.contains f.name

/-- Reads the members of a record in the order of the text. -/
def readMembers (fields : List (Member β)) (seen : List String) (b : β) :
    List (Option String × Json) → Except DecodeError (List String × β)
  | [] => .ok (seen, b)
  | (k, j) :: rest => do
    let name ← key k
    match fields.find? fun f => f.name == name with
    | some f =>
      if seen.contains name then .error .invalid
      else do
        let b ← f.read j b
        readMembers fields (name :: seen) b rest
    | none => do
      skip j
      readMembers fields seen b rest

/-- Reads the items of an array as the fields of a record; the answer has the fields left over. -/
def readItems (b : β) : List (Member β) → List Json → Except DecodeError (List (Member β) × β)
  | fields, [] => .ok (fields, b)
  | [], _ :: _ => .error .invalid
  | f :: fields, j :: rest => do
    let b ← f.read j b
    readItems b fields rest

def record (fields : List (Member β)) (initial : β) : Decoder β
  | .object members fault => do
    let (seen, b) ← readMembers fields [] initial members
    failOn fault
    if Member.missing fields seen then .error .invalid else return b
  | .array items fault => do
    let (left, b) ← readItems initial fields items
    failOn fault
    if Member.missing left [] then .error .invalid else return b
  | j => refuse j

end Decoder

/-- The value that a whole text stands for. -/
def Json.decode {β : Type} (decode : Decoder β) (text : String) : Except DecodeError β :=
  match Json.read text with
  | (j, rest) => do
    let b ← decode j
    match rest with
    | some cs => if (Json.skipBlank cs).isEmpty then return b else .error .invalid
    | none => .error .invalid

end Roadbook

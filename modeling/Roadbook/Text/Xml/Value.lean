import Roadbook.Text.Xml.Name

/-!
# References and values

A reference names a character, by its number or by one of five words, or an entity that the document
type has declared. Values of attributes stand between quotes and may have references in them.
-/

namespace Roadbook.Xml

/-- What the head of a document lays down for the rest. -/
structure Prolog where
  version : Version
  /-- The texts of the entities, by their names. -/
  entities : List (List Char × List Char)

section References

def digit? (base : Nat) (c : Char) : Option Nat :=
  let n :=
    if '0' ≤ c ∧ c ≤ '9' then c.toNat - '0'.toNat
    else if 'a' ≤ c ∧ c ≤ 'f' then c.toNat - 'a'.toNat + 10
    else if 'A' ≤ c ∧ c ≤ 'F' then c.toNat - 'A'.toNat + 10
    else base
  if n < base then some n else none

/-- The character with a code point written in a base, with a plus sign or without. -/
def codePoint? (v : Version) (base : Nat) (cs : List Char) : Option Char := do
  let ds ← (if cs.head? = some '+' then cs.tail else cs).mapM (digit? base)
  let n := ds.foldl (fun n d => base * n + d) 0
  let c := Char.ofNat n
  if ds.isEmpty || c.toNat != n || !v.admits c then none else some c

/-- The character with a number, which is hexadecimal after an x. -/
def numbered? (v : Version) : List Char → Option Char
  | 'x' :: ds => codePoint? v 16 ds
  | ds => codePoint? v 10 ds

def named? (name : List Char) : Option Char :=
  match String.ofList name with
  | "amp" => some '&'
  | "lt" => some '<'
  | "gt" => some '>'
  | "quot" => some '"'
  | "apos" => some '\''
  | _ => none

/-- What a reference stands for. -/
inductive Meaning where
  | char (c : Char)
  | entity (cs : List Char)

def Meaning.chars : Meaning → List Char
  | char c => [c]
  | entity cs => cs

/-- The meaning of what stands between the ampersand and the semicolon. -/
def Prolog.meaning? (p : Prolog) (name : List Char) : Option Meaning :=
  match name with
  | '#' :: number => (numbered? p.version number).map .char
  | _ =>
    match named? name with
    | some c => some (.char c)
    | none => (p.entities.lookup name).map .entity

/-- Reads what follows an ampersand, up to the semicolon. -/
def referenceStep (reversed : List Char) : Token → Option (Turn (List Char) (List Char))
  | .char c =>
    if continuesName reversed c || (reversed.isEmpty && c = '#') then some (.more (c :: reversed))
    else none
  | .referenceEnd => if reversed.isEmpty then none else some (.done reversed.reverse)
  | _ => none

end References

/-- A value that is being read. -/
structure Value where
  /-- The quote that it started with and will end with. -/
  quote : Option Quote
  reversed : List Char
  /-- What has been read of a reference. -/
  reference : Option (List Char)

namespace Value

def empty : Value := ⟨none, [], none⟩

def push (x : Value) (cs : List Char) : Value :=
  { x with reversed := cs.reverse ++ x.reversed, reference := none }

/-- Reads a value after any blanks. Tokens in it stand for their characters, except those that open
a tag or an instruction. -/
def step (p : Prolog) (x : Value) (t : Token) : Option (Turn Value (List Char)) :=
  match x.reference, x.quote, t with
  | some reversed, _, _ => do
    (← referenceStep reversed t).within (fun reversed => { x with reference := some reversed })
      fun name => (p.meaning? name).map fun m => .more (x.push m.chars)
  | none, none, .quote q => some (.more { x with quote := some q })
  | none, none, _ => if t.isBlank then some (.more x) else none
  | none, some _, .tagStart | none, some _, .instructionStart => none
  | none, some _, .referenceStart => some (.more { x with reference := some [] })
  | none, some _, .char c => if p.version.admitsInText c then some (.more (x.push [c])) else none
  | none, some q, _ =>
    if t = .quote q then some (.done x.reversed.reverse) else some (.more (x.push t.chars))

end Value

end Roadbook.Xml

import Roadbook.Number.Literal
import Roadbook.Text.Json.Basic

/-!
# Reading JSON

`Json.read` reads one value from the start of a text. It follows the grammar to the letter: no
comments, no commas before a closing bracket, no leading zeros, no control characters in strings.
Each reader answers with what it read and the rest of the text, which is missing where the text
stops being JSON.
-/

namespace Roadbook.Json

/-- A value and the rest of the text after it. -/
abbrev Reading (β : Type) := β × Option (List Char)

def isBlank (c : Char) : Bool := c = ' ' ∨ c = '\n' ∨ c = '\t' ∨ c = '\x0d'

def skipBlank (cs : List Char) : List Char := cs.dropWhile isBlank

def fail (fault : Fault) : Reading Json := (broken fault, none)

/-- What is wrong where something else was expected than `cs`. -/
def faultAt (cs : List Char) : Fault := if cs.isEmpty then .truncated else .malformed

/-- What is wrong where a digit was expected. -/
def digitFault (cs : List Char) : Fault := if cs.isEmpty then .openNumber else .malformed

/-- The value that a word stands for, once all of the word has been read. -/
def word (value : Json) : List Char → List Char → Reading Json
  | [], cs => (value, some cs)
  | w :: ws, c :: cs => if w = c then word value ws cs else fail .malformed
  | _ :: _, [] => fail .truncated

section Numbers

/-- The bounds of what is an integer, from below and from above. -/
def least : Int := -twoTo 63

def bound : Int := twoTo 64

/-- A number without point and exponent. -/
def ofDigits (negative : Bool) (digits : Nat) : Json :=
  let n : Int := if negative then -digits else digits
  if (negative && digits == 0) || n < least || bound ≤ n then
    real (Literal.toFloat ⟨negative, digits, 0⟩)
  else int n

/-- The digits after a point, of which there is at least one. -/
def fraction : List Char → Reading (Except Fault (List Char))
  | '.' :: cs =>
    let ds := cs.takeWhile Literal.isDigit
    if ds.isEmpty then (.error (digitFault cs), none)
    else (.ok ds, some (cs.dropWhile Literal.isDigit))
  | cs => (.ok [], some cs)

/-- The exponent, of at least one digit. -/
def exponent : List Char → Reading (Except Fault (Option Int))
  | c :: cs =>
    if c = 'e' ∨ c = 'E' then
      let (negative, cs) := Literal.splitSign cs
      let ds := cs.takeWhile Literal.isDigit
      let n : Int := digitsValue ds
      if ds.isEmpty then (.error (digitFault cs), none)
      else (.ok (some (if negative then -n else n)), some (cs.dropWhile Literal.isDigit))
    else (.ok none, some (c :: cs))
  | [] => (.ok none, some [])

/-- A number after the digits before its point. -/
def numberFrom (negative : Bool) (whole : List Char) (cs : List Char) : Reading Json :=
  match fraction cs with
  | (.ok ds, some cs) =>
    match exponent cs with
    | (.ok e, some cs) =>
      if ds.isEmpty && e.isNone then (ofDigits negative (digitsValue whole), some cs)
      else
        let l : Literal := ⟨negative, digitsValue (whole ++ ds), e.getD 0 - ds.length⟩
        (real l.toFloat, some cs)
    | (.error fault, _) => fail fault
    | _ => fail .malformed
  | (.error fault, _) => fail fault
  | _ => fail .malformed

def unsigned (negative : Bool) : List Char → Reading Json
  | '0' :: cs =>
    match cs with
    | c :: _ => if Literal.isDigit c then fail .malformed else numberFrom negative ['0'] cs
    | [] => numberFrom negative ['0'] []
  | cs =>
    let ds := cs.takeWhile Literal.isDigit
    if ds.isEmpty then fail (digitFault cs)
    else numberFrom negative ds (cs.dropWhile Literal.isDigit)

def number : List Char → Reading Json
  | '-' :: cs => unsigned true cs
  | cs => unsigned false cs

end Numbers

section Strings

/-- The value of a hexadecimal digit. -/
def hexDigit? (c : Char) : Option Nat :=
  if '0' ≤ c ∧ c ≤ '9' then some (c.toNat - '0'.toNat)
  else if 'a' ≤ c ∧ c ≤ 'f' then some (c.toNat - 'a'.toNat + 10)
  else if 'A' ≤ c ∧ c ≤ 'F' then some (c.toNat - 'A'.toNat + 10)
  else none

def hexValue? (a b c d : Char) : Option Nat := do
  return (((← hexDigit? a) * 16 + (← hexDigit? b)) * 16 + (← hexDigit? c)) * 16 + (← hexDigit? d)

/-- The character that a letter after a backslash stands for. -/
def escape? : Char → Option Char
  | '"' => some '"'
  | '\\' => some '\\'
  | '/' => some '/'
  | 'b' => some '\x08'
  | 'f' => some '\x0c'
  | 'n' => some '\n'
  | 'r' => some '\x0d'
  | 't' => some '\t'
  | _ => none

/-- What has been read of a string. -/
structure Scanned where
  /-- The characters so far, the last one first. -/
  reversed : List Char
  /-- The first half of a surrogate pair, if it came last. -/
  half : Option Nat
  /-- Some half came without its other half. -/
  unpaired : Bool

namespace Scanned

def empty : Scanned := ⟨[], none, false⟩

def push (p : Scanned) (c : Char) : Scanned :=
  ⟨c :: p.reversed, none, p.unpaired || p.half.isSome⟩

/-- Adds a 16-bit unit, which may be either half of a pair. -/
def pushUnit (p : Scanned) (unit : Nat) : Scanned :=
  if 0xD800 ≤ unit ∧ unit < 0xDC00 then
    ⟨p.reversed, some unit, p.unpaired || p.half.isSome⟩
  else if 0xDC00 ≤ unit ∧ unit < 0xE000 then
    match p.half with
    | some high =>
      let c := Char.ofNat (0x10000 + (high - 0xD800) * 0x400 + (unit - 0xDC00))
      ⟨c :: p.reversed, none, p.unpaired⟩
    | none => ⟨p.reversed, none, true⟩
  else p.push (Char.ofNat unit)

/-- What is wrong with the string, where the text breaks off. -/
def cut (p : Scanned) : Fault := if p.unpaired then .openUnpaired else .truncated

/-- The string, at its closing quote. -/
def close (p : Scanned) : Option String :=
  if p.unpaired || p.half.isSome then none else some (String.ofList p.reversed.reverse)

end Scanned

/-- Whether fewer than four bytes are left, in the encoding of one to four bytes a character. -/
def isShort (cs : List Char) : Bool :=
  (cs.take 4).foldl (fun n c => n + c.utf8Size) 0 < 4

/-- The characters up to the closing quote. -/
def stringBody (p : Scanned) : List Char → Reading (Except Fault (Option String))
  | [] => (.error p.cut, none)
  | '"' :: cs => (.ok p.close, some cs)
  | '\\' :: cs =>
    match cs with
    | [] => (.error p.cut, none)
    | 'u' :: a :: b :: c :: d :: rest =>
      match hexValue? a b c d with
      | some unit => stringBody (p.pushUnit unit) rest
      | none =>
        (.error (if isShort (a :: b :: c :: d :: rest) then p.cut else .malformed), none)
    | 'u' :: rest => (.error (if isShort rest then p.cut else .malformed), none)
    | c :: rest =>
      match escape? c with
      | some e => stringBody (p.push e) rest
      | none => (.error .malformed, none)
  | c :: cs => if c < ' ' then (.error .malformed, none) else stringBody (p.push c) cs

/-- A string after its opening quote; nothing in place of one with an unpaired surrogate. -/
def stringRest (cs : List Char) : Reading (Except Fault (Option String)) := stringBody .empty cs

end Strings

section Values

mutual

/-- A value, where `fuel` is at least twice the length of the text. -/
def value : Nat → List Char → Reading Json
  | 0, _ => fail .malformed
  | fuel + 1, cs =>
    match skipBlank cs with
    | [] => fail .truncated
    | 'n' :: cs => word null ['u', 'l', 'l'] cs
    | 't' :: cs => word (bool true) ['r', 'u', 'e'] cs
    | 'f' :: cs => word (bool false) ['a', 'l', 's', 'e'] cs
    | '"' :: cs =>
      match stringRest cs with
      | (.ok (some s), rest) => (string s, rest)
      | (.ok none, rest) => (unpaired, rest)
      | (.error fault, _) => fail fault
    | '[' :: cs =>
      match skipBlank cs with
      | ']' :: cs => (array [] none, some cs)
      | _ =>
        let ((items, fault), rest) := items fuel cs
        (array items fault, rest)
    | '\x7b' :: cs =>
      match skipBlank cs with
      | '\x7d' :: cs => (object [] none, some cs)
      | _ =>
        let ((members, fault), rest) := members fuel cs
        (object members fault, rest)
    | c :: cs => if c = '-' ∨ Literal.isDigit c then number (c :: cs) else fail .malformed

/-- The items of an array, up to its closing bracket. -/
def items : Nat → List Char → Reading (List Json × Option Fault)
  | 0, _ => (([], some .malformed), none)
  | fuel + 1, cs =>
    match value fuel cs with
    | (v, none) => (([v], none), none)
    | (v, some cs) =>
      match skipBlank cs with
      | ',' :: cs =>
        let ((vs, fault), rest) := items fuel cs
        ((v :: vs, fault), rest)
      | ']' :: cs => (([v], none), some cs)
      | cs => (([v], some (faultAt cs)), none)

/-- The members of an object, up to its closing brace. -/
def members : Nat → List Char → Reading (List (Option String × Json) × Option Fault)
  | 0, _ => (([], some .malformed), none)
  | fuel + 1, cs =>
    match skipBlank cs with
    | '"' :: cs =>
      match stringRest cs with
      | (.ok key, some cs) =>
        match skipBlank cs with
        | ':' :: cs =>
          match value fuel cs with
          | (v, none) => (([(key, v)], none), none)
          | (v, some cs) =>
            match skipBlank cs with
            | ',' :: cs =>
              let ((vs, fault), rest) := members fuel cs
              (((key, v) :: vs, fault), rest)
            | '\x7d' :: cs => (([(key, v)], none), some cs)
            | cs => (([(key, v)], some (faultAt cs)), none)
        | cs => (([(key, broken (faultAt cs))], none), none)
      | (.error fault, _) => (([], some fault), none)
      | _ => (([], some .malformed), none)
    | cs => (([], some (faultAt cs)), none)

end

/-- The value at the start of a text, and the text after it. -/
def read (text : String) : Reading Json :=
  let cs := text.toList
  value (2 * cs.length + 2) cs

end Values

end Roadbook.Json

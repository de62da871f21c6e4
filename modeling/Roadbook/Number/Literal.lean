import Roadbook.Number.Binary

/-!
# Decimal literals

A decimal literal is a sign, an integer and a power of ten; `Literal.toFloat` is the nearest
64-bit binary number. `Literal.read?` takes the whole of a text that is a number in free form:
digits with an optional point and exponent, or one of the words for an infinity or no number.
-/

namespace Roadbook

/-- The value of a run of decimal digits. -/
def digitsValue (cs : List Char) : Nat := cs.foldl (fun n c => 10 * n + (c.toNat - '0'.toNat)) 0

/-- The number `± digits · 10 ^ exponent`. -/
structure Literal where
  negative : Bool
  digits : Nat
  exponent : Int
  deriving DecidableEq, Repr

namespace Literal

/-- Past these sizes every literal is out of the range of 64-bit binary numbers or rounds to zero,
whatever its digits are. -/
def largestSize : Int := 400

def toFloat (l : Literal) : Float :=
  let size : Int := (Nat.toDigits 10 l.digits).length + l.exponent
  let magnitude : Float :=
    if l.digits = 0 ∨ size < -largestSize then 0
    else if largestSize < size then 1.0 / 0.0
    else Float.ofScientific l.digits (l.exponent < 0) l.exponent.natAbs
  if l.negative then -magnitude else magnitude

def isDigit (c : Char) : Bool := '0' ≤ c && c ≤ '9'

def splitSign : List Char → Bool × List Char
  | '-' :: cs => (true, cs)
  | '+' :: cs => (false, cs)
  | cs => (false, cs)

/-- An optional sign and at least one digit, to the end of the text. -/
def exponent? (cs : List Char) : Option Int :=
  let (negative, ds) := splitSign cs
  if ds.isEmpty || !ds.all isDigit then none
  else some (if negative then -(digitsValue ds : Int) else digitsValue ds)

/-- Digits with at most one point among or beside them, then perhaps an exponent. -/
def unsigned? (negative : Bool) (cs : List Char) : Option Literal :=
  let whole := cs.takeWhile isDigit
  let (fraction, rest) :=
    match cs.dropWhile isDigit with
    | '.' :: r => (r.takeWhile isDigit, r.dropWhile isDigit)
    | r => ([], r)
  if whole.isEmpty && fraction.isEmpty then none
  else
    let digits := digitsValue (whole ++ fraction)
    match rest with
    | [] => some ⟨negative, digits, -fraction.length⟩
    | c :: r =>
      if c = 'e' ∨ c = 'E' then
        (exponent? r).map fun e => ⟨negative, digits, e - fraction.length⟩
      else none

def read? (text : String) : Option Float :=
  let (negative, cs) := splitSign text.toList
  match String.ofList (cs.map Char.toLower) with
  | "inf" | "infinity" => some (if negative then -1.0 / 0.0 else 1.0 / 0.0)
  | "nan" => some (0.0 / 0.0)
  | _ => (unsigned? negative cs).map toFloat

/-- An integer with an optional sign. -/
def readInt? (text : String) : Option Int := exponent? text.toList

end Literal

end Roadbook

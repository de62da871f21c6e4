import Roadbook.Number.Binary

/-!
# Decimal text of binary numbers

Two ways to write a number. `fixed` gives a set number of places, rounded from the exact value
with ties to the even digit. `shortest` gives the fewest digits that lie closer to the number
than to any other (`Shortest.select?`), never with an exponent. What is not finite has a word.
-/

namespace Roadbook

namespace Decimal

/-- The decimal digits of `n`, with zeros in front up to `width` of them. -/
def padded (width n : Nat) : List Char :=
  let digits := Nat.toDigits 10 n
  List.replicate (width - digits.length) '0' ++ digits

/-- The text of `n / 10 ^ places`, with exactly that many places. -/
def positional (n places : Nat) : List Char :=
  if places = 0 then Nat.toDigits 10 n
  else Nat.toDigits 10 (n / tenTo places) ++ '.' :: padded places (n % tenTo places)

def word (negative : Bool) (digits : List Char) : String :=
  String.ofList (if negative then '-' :: digits else digits)

def infinity : List Char := ['i', 'n', 'f']

/-- How numbers with a set number of places are written. -/
structure Places where
  count : Nat
  /-- Whether a negative number that rounds to zero keeps its sign. -/
  signedZero : Bool

def fixed (places : Places) (x : Float) : String :=
  match Binary.ofFloat x with
  | .undefined => "NaN"
  | .infinite negative => word negative infinity
  | .finite negative m =>
    let n := roundDiv .toEven (tenTo places.count * m.ratio.1) m.ratio.2
    word (negative && (places.signedZero || n != 0)) (positional n places.count)

/-- An integer with a set number of places, all of them zero. -/
def fixedInt (places : Places) (n : Int) : String :=
  word (n < 0) (positional (n.natAbs * tenTo places.count) places.count)

namespace Shortest

/-- The number `digits · 10 ^ exponent`. -/
structure Candidate where
  digits : Nat
  exponent : Int
  deriving DecidableEq, Repr

/-- Numerator and denominator of `10 ^ x`. -/
def power (x : Int) : Nat × Nat := (tenTo x.toNat, tenTo (-x).toNat)

/-- The least `d` with `num / den < 10 ^ d`, for a quotient that is a binary number and not zero. -/
def size (num den : Nat) : Int :=
  if den ≤ num then (Nat.toDigits 10 (num / den)).length
  else 1 - ((Nat.toDigits 10 (den / num)).length : Int)

/-- Whether a candidate rounds to the number: it lies between the middles towards the two
neighbours, which count as inside when the significand is even. The gap below a power of two is
half the gap above it. -/
def roundsTo (m : Binary.Magnitude) (c : Candidate) : Bool :=
  let quarter : Binary.Magnitude := ⟨1, m.exponent - 2⟩
  let low := if m.significand = twoTo 52 ∧ -1074 < m.exponent then 4 * m.significand - 1
    else 4 * m.significand - 2
  let high := 4 * m.significand + 2
  let (pn, pd) := power c.exponent
  let value := c.digits * pn * quarter.ratio.2
  let unit := quarter.ratio.1 * pd
  if m.significand % 2 = 0 then low * unit ≤ value && value ≤ high * unit
  else low * unit < value && value < high * unit

/-- The candidate with `count` digits that rounds to the number and is nearest to it, the upper one
of two equally near. -/
def select? (m : Binary.Magnitude) (count : Nat) : Option Candidate :=
  let (num, den) := m.ratio
  let exponent := size num den - count
  let (pn, pd) := power exponent
  let below := num * pd / (den * pn)
  let rest := num * pd % (den * pn)
  let lower : Candidate := ⟨below, exponent⟩
  let upper : Candidate :=
    if below + 1 = tenTo count then ⟨1, exponent + count⟩ else ⟨below + 1, exponent⟩
  match roundsTo m lower, roundsTo m upper with
  | true, true => some (if 2 * rest < den * pn then lower else upper)
  | true, false => some lower
  | false, true => some upper
  | false, false => none

/-- Seventeen digits are enough for every 64-bit binary number. -/
def candidate (m : Binary.Magnitude) : Candidate :=
  ((List.range 17).findSome? fun k => select? m (k + 1)).getD ⟨0, 0⟩

def text (c : Candidate) : List Char :=
  positional (c.digits * tenTo c.exponent.toNat) (-c.exponent).toNat

end Shortest

def shortest (x : Float) : String :=
  match Binary.ofFloat x with
  | .undefined => "NaN"
  | .infinite negative => word negative infinity
  | .finite negative m =>
    word negative (if m.significand = 0 then ['0'] else Shortest.text (Shortest.candidate m))

end Decimal

end Roadbook

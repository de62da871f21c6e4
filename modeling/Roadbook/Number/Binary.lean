import Roadbook.Number.Power
import Roadbook.Number.Scalar

/-!
# Binary numbers, exactly

`Binary.ofFloat` takes a 64-bit binary number apart into its sign, an integer and a power of two,
so that rounding it, dividing it with remainder and writing it in decimal are done in integer
arithmetic (`Binary.Magnitude.ratio`, `roundDiv`). The instance at the end makes these numbers the
ones the library runs on.
-/

namespace Roadbook

/-- Where a quotient half way between two integers goes. -/
inductive Tie where
  | toEven
  | awayFromZero
  deriving DecidableEq, Repr

/-- The integer nearest to `num / den`. -/
def roundDiv (tie : Tie) (num den : Nat) : Nat :=
  let q := num / den
  let r := num % den
  if 2 * r < den then q
  else if 2 * r = den then
    match tie with
    | .toEven => q + q % 2
    | .awayFromZero => q + 1
  else q + 1

namespace Binary

/-- The number `significand · 2 ^ exponent`. -/
structure Magnitude where
  significand : Nat
  exponent : Int
  deriving DecidableEq, Repr

/-- What a 64-bit binary number stands for; the sign tells the two zeros apart. -/
inductive Value where
  | undefined
  | infinite (negative : Bool)
  | finite (negative : Bool) (magnitude : Magnitude)
  deriving DecidableEq, Repr

/-- Numerator and denominator of a magnitude. -/
def Magnitude.ratio (m : Magnitude) : Nat × Nat :=
  (m.significand * twoTo m.exponent.toNat, twoTo (-m.exponent).toNat)

/-- The value of 64 bits: a sign, eleven bits of exponent, fifty-two of fraction. -/
def ofBits (bits : Nat) : Value :=
  let negative := decide (twoTo 63 ≤ bits)
  let exponent : Nat := bits / twoTo 52 % twoTo 11
  let fraction : Nat := bits % twoTo 52
  if exponent = 2047 then
    if fraction = 0 then .infinite negative else .undefined
  else if exponent = 0 then .finite negative ⟨fraction, -1074⟩
  else .finite negative ⟨twoTo 52 + fraction, (exponent : Int) - 1075⟩

def ofFloat (x : Float) : Value := ofBits x.toBits.toNat

/-- The bits of a magnitude, exact when its significand has at most 53 bits once its factors of
two are taken out; what does not fit is cut off. -/
def toBits (negative : Bool) (m : Magnitude) : Nat :=
  let wanted : Int := m.exponent + Nat.log2 m.significand - 52
  let exponent := if wanted < -1074 then -1074 else wanted
  let significand :=
    if m.exponent ≤ exponent then m.significand / twoTo (exponent - m.exponent).toNat
    else m.significand * twoTo (m.exponent - exponent).toNat
  let field := if significand < twoTo 52 then 0 else (exponent + 1075).toNat
  (if negative then twoTo 63 else 0) + field * twoTo 52 + significand % twoTo 52

def toFloat (negative : Bool) (m : Magnitude) : Float :=
  Float.ofBits (UInt64.ofNat (toBits negative m))

/-- The integer nearest to `scale` times the value; zero for what is not finite. -/
def nearest (tie : Tie) (scale : Nat) : Value → Int
  | .finite negative m =>
    let (num, den) := m.ratio
    let n : Int := roundDiv tie (scale * num) den
    if negative then -n else n
  | _ => 0

/-- The remainder of the division cut off towards zero, exact and with the sign of the dividend. -/
def rem (a b : Float) : Float :=
  match ofFloat a, ofFloat b with
  | .finite negative m, .finite _ n =>
    if n.significand = 0 then 0.0 / 0.0
    else
      let low := if m.exponent ≤ n.exponent then m.exponent else n.exponent
      let left := m.significand * twoTo (m.exponent - low).toNat
      let right := n.significand * twoTo (n.exponent - low).toNat
      toFloat negative ⟨left % right, low⟩
  | .finite _ _, .infinite _ => a
  | _, _ => 0.0 / 0.0

end Binary

instance : Scalar Float where
  ofInt := Float.ofInt
  decLt := inferInstance
  decLe := inferInstance
  rem := Binary.rem
  isFinite := Float.isFinite
  nearest x := Binary.nearest .awayFromZero 1 (Binary.ofFloat x)
  tenths x := Binary.nearest .toEven 10 (Binary.ofFloat x)
  wrap t := t.bmod (twoTo 64)
  checked := true

end Roadbook

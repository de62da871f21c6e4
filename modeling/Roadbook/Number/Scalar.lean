/-!
# The numbers a journey is measured in

Lengths, angles and speeds are values of any type with the operations of `Scalar`. The class asks
for no laws, because the numbers a device computes with round and have a value that is not
comparable to itself. Theorems that need laws take the real numbers.

Times are integers, but a device has only so many bits for them. So the class also says what is kept
of a time that is computed (`Scalar.wrap`): all of it, if it fits (`Scalar.Fits`). A device may
check that, and go no further where a time does not fit (`Scalar.checked`).

`Scalar.Before` is the order in which a nearest thing is looked for: numbers by size, and what is
no number after all of them. `nearestBy?` keeps the first of several equally near things.
-/

namespace Roadbook

class Scalar (α : Type) extends Add α, Sub α, Mul α, Div α, Neg α, LT α, LE α where
  ofInt : Int → α
  decLt (a b : α) : Decidable (a < b)
  decLe (a b : α) : Decidable (a ≤ b)
  /-- What is left of a division whose quotient is cut off towards zero. -/
  rem : α → α → α
  isFinite : α → Bool
  /-- The nearest integer, a half going away from zero. -/
  nearest : α → Int
  /-- The nearest number of tenths, a tie going to the even one. -/
  tenths : α → Int
  /-- What is kept of a time that is computed. -/
  wrap : Int → Int
  /-- Whether a program goes no further where that is not all of the time. -/
  checked : Bool

attribute [reducible, instance] Scalar.decLt Scalar.decLe

namespace Scalar

/-- Nothing is lost of a time. -/
def Fits (α : Type) [Scalar α] (time : Int) : Prop := wrap α time = time

instance (α : Type) [Scalar α] (time : Int) : Decidable (Fits α time) :=
  inferInstanceAs (Decidable (_ = _))

variable {α : Type} [Scalar α]

instance (priority := low) instOfNat (n : Nat) : OfNat α n := ⟨ofInt n⟩

def abs (a : α) : α := if a < 0 then -a else a

/-- The smaller of two numbers, or the only one of the two that is a number. -/
def min (a b : α) : α := if a ≤ b ∨ ¬ b ≤ b then a else b

/-- The larger of two numbers, or the only one of the two that is a number. -/
def max (a b : α) : α := if b ≤ a ∨ ¬ b ≤ b then a else b

def clamp (lo hi a : α) : α := if a < lo then lo else if hi < a then hi else a

/-- The remainder of least non-negative value. -/
def modulo (a b : α) : α :=
  let r := rem a b
  if r < 0 then r + abs b else r

/-- `a` comes before `b` in the order of sizes that puts what is no number last. -/
def Before (a b : α) : Prop := a < b ∨ (a ≤ a ∧ ¬ b ≤ b)

instance (a b : α) : Decidable (Before a b) := inferInstanceAs (Decidable (_ ∨ _))

/-- The first of the things that nothing else in the list comes before. -/
def firstBy? {β : Type} (before : β → β → Prop) [DecidableRel before] : List β → Option β
  | [] => none
  | b :: bs => some (bs.foldl (fun best c => if before c best then c else best) b)

/-- The first of the things with the least key. -/
def nearestBy? {β : Type} (key : β → α) (bs : List β) : Option β :=
  firstBy? (fun b c => Before (key b) (key c)) bs

def sum (as : List α) : α := as.foldl (· + ·) 0

end Scalar

end Roadbook

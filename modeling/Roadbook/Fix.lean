import Roadbook.Ground.Point

/-!
# Fixes

A fix is one reading of the positioning device. It is used only after `Fix.check` has found nothing
wrong with it, which names the first of its faults.
-/

namespace Roadbook

structure Fix (α : Type) where
  lat : α
  lon : α
  /-- Meters. -/
  accuracy : Option α
  /-- Degrees. -/
  heading : Option α
  /-- Meters per second. -/
  speed : Option α
  /-- Milliseconds. -/
  time : Int
  deriving DecidableEq, Repr

/-- Why a fix is not used. -/
inductive FixFault (α : Type) where
  | invalidCoordinates
  | stale (age : Int)
  | inaccurate (accuracy : α)
  deriving DecidableEq, Repr

namespace Fix

variable {α : Type}

def point (f : Fix α) : Point α := ⟨f.lon, f.lat⟩

/-- A fix that is nothing but a place and a time. -/
def ofPoint (p : Point α) (time : Int) : Fix α := ⟨p.lat, p.lon, none, none, none, time⟩

/-- The first fault of a fix at a time. -/
def check [Scalar α] (f : Fix α) (now maxAge : Int) (maxAccuracy : α) : Option (FixFault α) :=
  if ¬ f.point.IsValid then some .invalidCoordinates
  else
    let age := Scalar.wrap α (now - f.time)
    if maxAge < age then some (.stale age)
    else match f.accuracy with
      | some a => if maxAccuracy < a then some (.inaccurate a) else none
      | none => none

end Fix

end Roadbook

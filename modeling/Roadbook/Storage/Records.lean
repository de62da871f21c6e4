import Roadbook.Coverage.Tracker
import Roadbook.Storage.KeyStore

/-!
# What is stored

A store remembers the area that was loaded last, and for each area the numbers of the segments that
were driven, as a list. Storing a batch adds it to what is stored for its area.
-/

namespace Roadbook.KeyStore

variable {δ : Type}

def lastAreaKey : String := "last_area"

/-- The key of what is stored for an area. -/
def areaKey (area : String) : String := "coverage/" ++ area

def idsText (ids : List Nat) : String := Json.compact (.list (ids.map fun n : Nat => .int n))

def lastArea? (store : KeyStore δ) : Option String := store.get? lastAreaKey

/-- Stores the name of the area that was loaded last, if that can be written. -/
def rememberArea [Medium δ] (store : KeyStore δ) (area : String) : Bool × KeyStore δ :=
  store.set lastAreaKey area

/-- The list stored for an area, if there is one. -/
def ids? (store : KeyStore δ) (area : String) : Except StoreFault (Option (List Nat)) :=
  match store.get? (areaKey area) with
  | none => .ok none
  | some text =>
    match Json.decode (Decoder.list Decoder.nat) text with
    | .ok ids => .ok (some ids)
    | .error _ => .error .invalid

def setIds [Medium δ] (store : KeyStore δ) (area : String) (ids : List Nat) :
    Bool × KeyStore δ :=
  store.set (areaKey area) (idsText ids)

/-- The segments of an area that are stored as driven. -/
def driven (store : KeyStore δ) (area : String) : Except StoreFault IdSet :=
  match store.ids? area with
  | .ok ids => .ok (IdSet.ofList (ids.getD []))
  | .error e => .error e

/-- Adds a batch to what is stored for its area; the answer says whether that succeeded. -/
def persist [Medium δ] (store : KeyStore δ) (batch : Batch) : Bool × KeyStore δ :=
  match store.driven batch.area with
  | .ok ids => store.setIds batch.area (ids.union (IdSet.ofList batch.ids)).toList
  | .error _ => (false, store)

end Roadbook.KeyStore

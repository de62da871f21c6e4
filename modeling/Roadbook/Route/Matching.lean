import Roadbook.Route.Basic

/-!
# Finding a position on a route

A `Match` is the foot of a position on one leg of a route. `Matcher.locate` looks for the nearest
one among the legs around the last leg found, since drivers mostly move on, and among all legs when
that one is too far away or there is none. `Route.resume?` is the nearest match that lies ahead of
a given progress.
-/

namespace Roadbook

variable {α : Type} [Scalar α] [Geodesy α]

structure Match (α : Type) where
  /-- The number of the leg. -/
  leg : Nat
  /-- Meters from the position to its foot. -/
  distance : α
  foot : Point α
  /-- Meters along the route to the foot. -/
  along : α
  deriving DecidableEq, Repr

def Leg.locate (l : Leg α) (p : Point α) : Match α :=
  let q := project p l.start l.finish
  ⟨l.index, q.distance, q.foot, l.along + q.fraction * l.length⟩

namespace Match

/-- The first of the matches on some legs that no other is nearer than. -/
def best? (p : Point α) (legs : List (Leg α)) : Option (Match α) :=
  Scalar.firstBy? (fun m n => m.distance < n.distance) (legs.map (·.locate p))

/-- The best match among a leg and others after it. -/
def best (p : Point α) (leg : Leg α) (legs : List (Leg α)) : Match α :=
  (best? p (leg :: legs)).getD (leg.locate p)

end Match

/-- The leg on which the last position was found. -/
structure Matcher where
  cursor : Option Nat
  deriving DecidableEq, Repr

namespace Matcher

/-- Before the first position. -/
def fresh : Matcher := ⟨none⟩

/-- The legs around a cursor, which counts as the last leg when it is beyond it. -/
def window (rules : Config.Matching α) (route : Route α) (cursor : Nat) : List (Leg α) :=
  let cursor := min cursor route.rest.length
  let start := cursor - rules.lookBehind
  (route.legs.take (cursor + rules.lookAhead + 1)).drop start

/-- The best match around the cursor, where it is near enough. -/
def nearby? (m : Matcher) (rules : Config.Matching α) (route : Route α) (p : Point α) :
    Option (Match α) := do
  let found ← Match.best? p (window rules route (← m.cursor))
  if found.distance ≤ rules.fullScanDistance then some found else none

def locate (m : Matcher) (rules : Config.Matching α) (route : Route α) (p : Point α) :
    Match α × Matcher :=
  let found := (m.nearby? rules route p).getD (Match.best p route.first route.rest)
  (found, ⟨some found.leg⟩)

end Matcher

/-- The nearest match beyond `progress` and within `radius` of the position, the first of several
equally near ones. -/
def Route.resume? (route : Route α) (p : Point α) (progress radius : α) : Option (Match α) :=
  let ahead := (route.legs.drop (route.legAt progress).index).map (·.locate p)
  Scalar.nearestBy? (·.distance) (ahead.filter fun m => progress < m.along ∧ m.distance ≤ radius)

end Roadbook

import Roadbook.Route.Maneuver

/-!
# Routes

A route is made from a list of points (`Route.ofPoints`), which is refused with the first fault of
`RouteError`. It is its legs, of which there is at least one, and its maneuvers. A distance along
the route is turned into a leg by `Route.legAt`, into a point by `Route.pointAt` and into the part
travelled by `Route.between`; distances off either end stand for that end.
-/

namespace Roadbook

variable {α : Type} [Scalar α] [Geodesy α]

/-- Why a list of points is no route. -/
inductive RouteError (α : Type) where
  | tooFewPoints (count : Nat)
  | invalidPoint (index : Nat) (point : Point α)
  | noLength
  deriving DecidableEq, Repr

structure Route (α : Type) where
  first : Leg α
  rest : List (Leg α)
  maneuvers : List (Maneuver α)
  deriving DecidableEq, Repr

namespace Route

def legs (r : Route α) : List (Leg α) := r.first :: r.rest

def last (r : Route α) : Leg α := r.rest.getLastD r.first

def start (r : Route α) : Point α := r.first.start

def finish (r : Route α) : Point α := r.last.finish

/-- The length of the route in meters. -/
def total (r : Route α) : α := r.last.alongEnd

def points (r : Route α) : List (Point α) := r.start :: r.legs.map (·.finish)

/-- Meters along the route to each of its points. -/
def distances (r : Route α) : List α := r.legs.map (·.along) ++ [r.total]

def lengths (r : Route α) : List α := r.legs.map (·.length)

/-- The two ends and the turns between them. -/
def maneuversOf (rules : Config.Turns α) (first : Leg α) (rest : List (Leg α)) :
    List (Maneuver α) :=
  let last := rest.getLastD first
  ⟨0, 0, .depart, 0⟩ :: Leg.turns rules 0 (stretches (first :: rest)) ++
    [⟨last.index + 1, last.alongEnd, .arrive, 0⟩]

def ofPoints (rules : Config.Turns α) (points : List (Point α)) :
    Except (RouteError α) (Route α) :=
  match Leg.chain 0 0 points with
  | [] => .error (.tooFewPoints points.length)
  | first :: rest =>
    match points.zipIdx.find? fun (p, _) => !decide p.IsValid with
    | some (p, i) => .error (.invalidPoint i p)
    | none =>
      let route : Route α := ⟨first, rest, maneuversOf rules first rest⟩
      if route.total ≤ 0 then .error .noLength else .ok route

def remaining (r : Route α) (progress : α) : α := Scalar.max (r.total - progress) 0

/-- The last leg that starts at or before a distance along the route, else the first. -/
def legAt (r : Route α) (d : α) : Leg α :=
  (r.rest.takeWhile fun l => decide (l.along ≤ d)).getLastD r.first

def clamp (r : Route α) (d : α) : α := Scalar.clamp 0 r.total d

def pointAt (r : Route α) (d : α) : Point α :=
  let d := r.clamp d
  let leg := r.legAt d
  if leg.length ≤ 0 then leg.start
  else leg.start.between leg.finish (Scalar.clamp 0 1 ((d - leg.along) / leg.length))

/-- The line along the route from one distance to another. -/
def between (r : Route α) (d e : α) : List (Point α) :=
  let d := r.clamp d
  let e := r.clamp e
  if e ≤ d then [r.pointAt d]
  else
    let inner := r.legs.filter fun l => decide (d < l.along ∧ l.along < e)
    r.pointAt d :: inner.map (·.start) ++ [r.pointAt e]

end Route

end Roadbook

import Roadbook.Fix
import Roadbook.Number.Decimal
import Roadbook.Route.Basic

/-!
# Messages

What is said of a route that is refused and of a fix that is not used.
-/

namespace Roadbook

namespace RouteError

/-- What is wrong with the points. -/
def reason : RouteError Float → String
  | .tooFewPoints n => "a route needs at least 2 points, got " ++ toString n
  | .invalidPoint i p =>
    "point " ++ toString i ++ " is not a valid coordinate: (" ++ Decimal.shortest p.lon ++ ", " ++
      Decimal.shortest p.lat ++ ")"
  | .noLength => "route has zero length"

def message (e : RouteError Float) : String := "Invalid route: " ++ e.reason

end RouteError

/-- Accuracies are told in whole meters, a half going to the even one. -/
def accuracyPlaces : Decimal.Places := ⟨0, true⟩

def FixFault.message : FixFault Float → String
  | .invalidCoordinates => "invalid coordinates"
  | .stale age => "stale by " ++ toString age ++ " ms"
  | .inaccurate a => "accuracy " ++ Decimal.fixed accuracyPlaces a ++ " m"

end Roadbook

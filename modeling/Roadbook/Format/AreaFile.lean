import Roadbook.Area
import Roadbook.Text.Json.Decoder

/-!
# Areas as JSON

The decoders of points, segments and areas, and of the file that holds what is known of an area
besides its route.
-/

namespace Roadbook

open Decoder

def Point.decoder : Decoder (Point Float) :=
  record
    [field "x" float fun x p => { p with lon := x },
      field "y" float fun y p => { p with lat := y }]
    ⟨0, 0⟩

def Segment.decoder : Decoder (Segment Float) :=
  record
    [field "segment_id" nat fun n s => { s with id := n },
      field "geometry" (list Point.decoder) fun ps s => { s with line := ps },
      field "length_meters" float fun x s => { s with length := x },
      (field "driven" bool fun b s => { s with driven := b }).orElse,
      (field "undriveable" bool fun b s => { s with undriveable := b }).orElse]
    ⟨0, [], 0, false, false⟩

namespace Area

def withSegments (segments : List (Segment Float)) (a : Area Float) : Area Float :=
  { a with segments := segments }

def withBaseline (x : Float) (a : Area Float) : Area Float := { a with baseline := x }

/-- The fields of an area besides its name and route. -/
def coverageFields : List (Member (Area Float)) :=
  [(field "segments" (list Segment.decoder) withSegments).orElse,
    (field "baseline_percent" float withBaseline).orElse]

def decoder : Decoder (Area Float) :=
  record
    (field "area_id" string (fun s a => { a with name := s }) ::
      field "route" (list Point.decoder) (fun ps a => { a with route := ps }) :: coverageFields)
    ⟨"", [], [], 0⟩

/-- What is known of an area, added to its name and route. -/
def coverageDecoder (name : String) (route : List (Point Float)) : Decoder (Area Float) :=
  record coverageFields ⟨name, route, [], 0⟩

end Area

end Roadbook

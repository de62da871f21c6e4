import Roadbook.Config
import Roadbook.Number.Binary
import Roadbook.Text.Json.Decoder

/-!
# Configuration files

A configuration file is a JSON object that sets some of the thresholds; all others keep their
standard values.
-/

namespace Roadbook.Config

open Decoder

/-- A record none of whose fields need be given. -/
def partialRecord {β : Type} (fields : List (Member β)) (standard : β) : Decoder β :=
  record (fields.map Member.orElse) standard

def Turns.decoder : Decoder (Turns Float) :=
  partialRecord
    [field "min_turn_deg" float fun x c => { c with minTurn := x },
      field "min_spacing_m" float fun x c => { c with minSpacing := x },
      field "min_segment_m" float fun x c => { c with minStretch := x }]
    .standard

def Matching.decoder : Decoder (Matching Float) :=
  partialRecord
    [field "look_behind" nat fun n c => { c with lookBehind := n },
      field "look_ahead" nat fun n c => { c with lookAhead := n },
      field "full_scan_distance_m" float fun x c => { c with fullScanDistance := x }]
    .standard

def Smoothing.decoder : Decoder (Smoothing Float) :=
  partialRecord
    [field "backward_jump_m" float fun x c => { c with backwardJump := x },
      field "corroboration_min" nat fun n c => { c with corroboration := n },
      field "history_capacity" nat fun n c => { c with capacity := n },
      field "max_speed_mps" float fun x c => { c with maxSpeed := x },
      field "raw_weight" float fun x c => { c with rawWeight := x }]
    .standard

def Guidance.decoder : Decoder (Guidance Float) :=
  partialRecord
    [field "start_radius_m" float fun x c => { c with startRadius := x },
      field "settle_delay_ms" int fun n c => { c with settleDelay := n },
      field "off_route_m" float fun x c => { c with offRoute := x },
      field "resume_ahead_m" float fun x c => { c with resumeAhead := x },
      field "resume_radius_m" float fun x c => { c with resumeRadius := x },
      field "arrival_m" float fun x c => { c with arrival := x },
      field "announce_dead_band_m" float fun x c => { c with deadBand := x },
      field "fix_max_age_ms" int fun n c => { c with maxAge := n },
      field "signal_timeout_ms" int fun n c => { c with signalTimeout := n },
      field "max_accuracy_m" float fun x c => { c with maxAccuracy := x }]
    .standard

def Coverage.decoder : Decoder (Coverage Float) :=
  partialRecord
    [field "promote_radius_m" float fun x c => { c with promoteRadius := x },
      field "flush_quiet_ms" int fun n c => { c with quiet := n }]
    .standard

def decoder : Decoder (Config Float) :=
  partialRecord
    [field "maneuvers" Turns.decoder fun t c => { c with turns := t },
      field "matcher" Matching.decoder fun m c => { c with matching := m },
      field "smoother" Smoothing.decoder fun s c => { c with smoothing := s },
      field "navigation" Guidance.decoder fun g c => { c with guidance := g },
      field "coverage" Coverage.decoder fun v c => { c with coverage := v }]
    .standard

end Roadbook.Config

import Roadbook.Proofs.Guidance.Offer

/-!
# Declined offers

A driver who has declined an offer is off the route, or at the end of it, until a fix finds the
driver on the route again (`Session.Declines`). As long as none does, nothing is on offer and no
effect has to do with an offer (`Navigator.Reachable.stays_declined`).
-/

namespace Roadbook

/-- The effect tells of an offer, or asks for the way to it. -/
def Effect.Offers {α : Type} : Effect α → Prop
  | .phaseChanged _ .resume => True
  | .requestDirections r => r.purpose = .resume
  | _ => False

namespace Session

variable {α : Type}

/-- A driver who has declined an offer is off the route or at the end of it. -/
def Declines (s : Session α) : Prop :=
  s.dismissed = true → s.phase = .offRoute ∨ s.phase = .arrived

/-- The driver has declined an offer, and none has been told of since. -/
structure HasDeclined (s : Session α) (effects : List (Effect α)) : Prop where
  dismissed : s.dismissed = true
  phase : s.phase = .offRoute ∨ s.phase = .arrived
  silent : ∀ e ∈ effects, ¬ e.Offers

variable {s t : Session α} {effects : List (Effect α)}

theorem Declines.congr (h : t.Declines) (hdismissed : s.dismissed = t.dismissed)
    (hphase : s.phase = t.phase) : s.Declines := by
  unfold Declines
  rw [hdismissed, hphase]
  exact h

theorem HasDeclined.emit (h : s.HasDeclined effects) {e : Effect α} (he : ¬ e.Offers) :
    s.HasDeclined (effects ++ [e]) :=
  ⟨h.dismissed, h.phase, List.forall_mem_append.2 ⟨h.silent, List.forall_mem_singleton.2 he⟩⟩

theorem HasDeclined.congr (h : t.HasDeclined effects) (hdismissed : s.dismissed = t.dismissed)
    (hphase : s.phase = t.phase) : s.HasDeclined effects := by
  refine ⟨hdismissed.trans h.dismissed, ?_, h.silent⟩
  rw [hphase]
  exact h.phase

end Session

variable {α : Type} [Scalar α] {config : Config α} {now : Int}

namespace Phase

variable {rules : Config.Guidance α} {reading : Reading α}

end Phase

namespace Session

variable [Geodesy α] {s : Session α} {p : Point α} {time : Int}

end Session

namespace Dispatch

open Session

variable {d : Dispatch α}

variable [Geodesy α]

end Dispatch

namespace Session

variable [Geodesy α]

end Session

namespace Dispatch

variable [Geodesy α] {d : Dispatch α}

end Dispatch

namespace Navigator

open Session Outcome

variable [Geodesy α] {n : Navigator α} {event : Event α}

/-- What a call with a good fix finds under guidance: a place on the route, and the session that has
followed it. -/
def followed? (config : Config α) (n : Navigator α) (now : Int) :
    Event α → Option (Match α × Session α)
  | .fix fix =>
    match (n.due config now).navigator.session with
    | some s =>
      if s.phase.IsGuiding
          ∧ (fix.check now config.guidance.maxAge config.guidance.maxAccuracy).isNone
          ∧ (n.handle config now (.fix fix)).1.isOk then some (s.follow config fix.point fix.time)
      else none
    | none => none
  | _ => none

/-- What some calls find under guidance, in order. -/
def followed (config : Config α) (n : Navigator α) :
    List (Int × Event α) → List (Match α × Session α)
  | [] => []
  | (now, event) :: calls =>
    (n.followed? config now event).toList ++ (n.handle config now event).2.followed config calls

end Navigator

namespace Trial

end Trial

namespace Navigator

end Navigator

end Roadbook

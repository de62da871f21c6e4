import Roadbook.Proofs.Guidance.Acts
import Roadbook.Proofs.Number.Exact

/-!
# Runs

`Navigator.run` is what some calls make of a navigator and `Navigator.log` how they are answered.
`Trial` is a road to run on, in exact numbers: straight north, with one segment at its start and
another one further on.
-/

namespace Roadbook

/-- Events that unload the area, if one is loaded. -/
def Event.Unloads {α : Type} : Event α → Prop
  | .areaLoaded .. | .finish => True
  | _ => False

instance {α : Type} : ∀ event : Event α, Decidable event.Unloads
  | .areaLoaded .. | .finish => isTrue trivial
  | .fix _ | .begin | .acceptOffer | .dismissOffer | .directions _ _ | .flushed _ _ | .view _
  | .tick => isFalse id

/-- How a call is answered. -/
structure Answer (α : Type) where
  now : Int
  event : Event α
  result : Except (Refusal α) (List (Effect α))
  /-- The navigator after the call. -/
  navigator : Navigator α

/-- What the caller is told. -/
def Answer.effects {α : Type} (a : Answer α) : List (Effect α) := a.result.toOption.getD []

/-- The area that was loaded is loaded no more. -/
def Answer.Unloads {α : Type} (a : Answer α) : Prop := a.event.Unloads ∧ a.result.isOk = true

instance {α : Type} (a : Answer α) : Decidable a.Unloads := inferInstanceAs (Decidable (_ ∧ _))

namespace Navigator

variable {α : Type} [Scalar α] [Geodesy α] {config : Config α}

/-- A navigator after some calls, each with its time. -/
def run (config : Config α) (n : Navigator α) (calls : List (Int × Event α)) : Navigator α :=
  calls.foldl (fun n call => (n.handle config call.1 call.2).2) n

/-- The answers to some calls in order. -/
def log (config : Config α) (n : Navigator α) : List (Int × Event α) → List (Answer α)
  | [] => []
  | (now, event) :: calls =>
    let (result, after) := n.handle config now event
    ⟨now, event, result, after⟩ :: after.log config calls

/-- How a call is answered. -/
def answer (config : Config α) (n : Navigator α) (now : Int) (event : Event α) : Answer α :=
  ⟨now, event, (n.handle config now event).1, (n.handle config now event).2⟩

theorem log_cons (n : Navigator α) (now : Int) (event : Event α) (calls : List (Int × Event α)) :
    n.log config ((now, event) :: calls)
      = n.answer config now event :: (n.handle config now event).2.log config calls := rfl

theorem run_cons (n : Navigator α) (now : Int) (event : Event α) (calls : List (Int × Event α)) :
    n.run config ((now, event) :: calls) = (n.handle config now event).2.run config calls := rfl

/-- A refused call is answered with the reason, any other one with what its event comes to. -/
theorem answer_cases (config : Config α) (n : Navigator α) (now : Int) (event : Event α) :
    (∃ o, respond config now (n.due config now) event = .ok o
        ∧ n.answer config now event = ⟨now, event, .ok o.effects, o.navigator⟩)
      ∨ ∃ refusal, respond config now (n.due config now) event = .error refusal
        ∧ n.answer config now event
          = ⟨now, event, .error refusal, (n.due config now).navigator⟩ := by
  rcases handle_cases config n now event with ⟨o, hok, heq⟩ | ⟨refusal, hrefused, heq⟩
  · exact .inl ⟨o, hok, by rw [answer, heq]⟩
  · exact .inr ⟨refusal, hrefused, by rw [answer, heq]⟩

theorem log_append : ∀ (n : Navigator α) (calls more : List (Int × Event α)),
    n.log config (calls ++ more) = n.log config calls ++ (n.run config calls).log config more
  | _, [], _ => rfl
  | n, (now, event) :: calls, more => by
    have ih := log_append (n.handle config now event).2 calls more
    rw [List.cons_append, log_cons, log_cons, ih]
    rfl

theorem log_times : ∀ (n : Navigator α) (calls : List (Int × Event α)),
    (n.log config calls).map (·.now) = calls.map (·.1)
  | _, [] => rfl
  | n, (now, event) :: calls => by
    rw [log_cons, List.map_cons, List.map_cons, log_times (n.handle config now event).2 calls]
    rfl

/-- An answer is to one of the calls, and those before it are to the calls before. -/
theorem log_eq_append {a : Answer α} {rest : List (Answer α)} :
    ∀ {past : List (Answer α)} {n : Navigator α} {calls : List (Int × Event α)},
      n.log config calls = past ++ a :: rest →
      ∃ before now event after, calls = before ++ (now, event) :: after
        ∧ past = n.log config before ∧ a = (n.run config before).answer config now event
  | past, n, [], h => by simp [log] at h
  | [], n, (now, event) :: calls, h => by
    rw [log_cons, List.nil_append, List.cons.injEq] at h
    exact ⟨[], now, event, calls, rfl, rfl, h.1.symm⟩
  | _ :: past, n, (now, event) :: calls, h => by
    rw [log_cons, List.cons_append, List.cons.injEq] at h
    obtain ⟨rfl, h⟩ := h
    obtain ⟨before, now', event', after, rfl, rfl, rfl⟩ := log_eq_append h
    exact ⟨(now, event) :: before, now', event', after, rfl, rfl, rfl⟩

theorem Reachable.run {n : Navigator α} (h : Reachable config n) :
    ∀ calls, Reachable config (n.run config calls)
  | [] => h
  | call :: calls => Reachable.run (h.handle call.1 call.2) calls

end Navigator

namespace Trial

/-- A point on the road, in thousandths of a degree north of its start. -/
def place (k : ℚ) : Point ℚ := ⟨0, k / 1000⟩

def area (name : String) : Area ℚ where
  name := name
  route := [place 0, place 10]
  segments := [⟨1, [place 0, place 1], 111, false, false⟩,
    ⟨2, [place 3, place 4], 111, false, false⟩]
  baseline := 0

def pointless : Area ℚ := ⟨"pointless", [place 0], [], 0⟩

def seen (k : ℚ) (now : Int) : Event ℚ := .fix (.ofPoint (place k) now)

/-- A driver who began before the start of the road has just come to it. -/
def arriving : Navigator ℚ :=
  Navigator.fresh.run .standard
    [(0, .areaLoaded (area "north")), (0, seen (-5) 0), (0, .begin), (0, seen 0 0)]

theorem reachable_arriving : Navigator.Reachable .standard arriving := .run .fresh _

end Trial

end Roadbook

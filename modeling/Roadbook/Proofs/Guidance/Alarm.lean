import Roadbook.Proofs.Guidance.RejectedArea
import Roadbook.Proofs.Guidance.Signal

/-!
# Word that the signal is gone

Once the tasks that are due have run, nothing comes of a bad fix, or of a tick, but that the driver
may be told that the signal is gone (`Dispatch.Alarms`). All else is as these tasks left it
(`Navigator.alarmed`). The driver is told that once, and the tasks leave nothing behind that makes a
difference at the same time (`Navigator.isIdle_due`). So another bad fix at that time, or another
tick after a tick, does nothing at all (`Navigator.Reachable.alarm_again`).
-/

namespace Roadbook

variable {α : Type}

/-- Word that the signal is gone, with an instruction at the most. -/
def Effect.IsAlarm (told : List (Effect α)) : Prop :=
  told = [.signalLost] ∨ ∃ a, told = [.signalLost, .instruction a]

open Effect

/-- Waiting for a signal, with what was announced last. -/
def Session.alarmed (announced : Option Announcement) (s : Session α) : Session α :=
  { s with waiting := true, announced := announced }

def Navigator.alarmed (announced : Option Announcement) (n : Navigator α) : Navigator α :=
  { n with session := n.session.map (·.alarmed announced) }

namespace Dispatch

/-- An operation that has the driver told that the signal is gone, where that is missed and the
driver has not been told before. -/
structure Alarms (misses : Session α → Prop) (operation : Dispatch α → Dispatch α) : Prop where
  unknown {s : Session α} : misses s → s.waiting = false
  tells {d : Dispatch α} : misses d.session → ∃ announced told, IsAlarm told
    ∧ operation d = ⟨d.session.alarmed announced, d.timers, d.effects ++ told⟩
  leaves {d : Dispatch α} : ¬ misses d.session → operation d = d

theorem Alarms.not_misses {misses : Session α → Prop} {operation : Dispatch α → Dispatch α}
    (h : Alarms misses operation) (d : Dispatch α) : ¬ misses (operation d).session := by
  by_cases hmiss : misses d.session
  · obtain ⟨announced, told, -, heq⟩ := h.tells hmiss
    rw [heq]
    intro hagain
    cases h.unknown hagain
  · rwa [h.leaves hmiss]

variable [Scalar α] [Geodesy α] {config : Config α} {now : Int}

theorem alarms_loseSignal (config : Config α) : Alarms Session.CanLose (·.loseSignal config) where
  unknown hlost := hlost.1
  tells {d} hlost := by
    have hlose : d.loseSignal config = _ := loseSignal_of_canLose hlost
    rcases announce_cases config
      ((d.withSession { d.session with waiting := true }).emit .signalLost) with heq | ⟨a, heq⟩
    · exact ⟨d.session.announced, [.signalLost], .inl rfl, hlose.trans heq⟩
    · refine ⟨some a, [.signalLost, .instruction a], .inr ⟨a, rfl⟩, (hlose.trans heq).trans ?_⟩
      simp only [emit, withSession, Session.alarmed, List.append_assoc, List.cons_append,
        List.nil_append]
  leaves := loseSignal_of_not

theorem alarms_checkSignal (config : Config α) (now : Int) :
    Alarms (fun s => s.CanLose ∧ s.IsLate config now) (·.checkSignal config now) where
  unknown hlost := hlost.1.1
  tells {d} hlost := by
    simp only [checkSignal_of_late hlost.2]
    exact (alarms_loseSignal config).tells hlost.1
  leaves {d} hno := by
    by_cases hlate : d.session.IsLate config now
    · rw [checkSignal_of_late hlate]
      exact loseSignal_of_not fun hlost => hno ⟨hlost, hlate⟩
    · exact checkSignal_of_not_late hlate

end Dispatch

section Alarm

variable {misses : Session α → Prop} {operation : Dispatch α → Dispatch α}
  (h : Dispatch.Alarms misses operation)
include h

namespace Outcome

variable {o : Outcome α}

theorem inSession_alarm {s : Session α} (hs : o.navigator.session = some s) (hmiss : misses s) :
    ∃ announced told, IsAlarm told
      ∧ o.inSession operation = ⟨o.navigator.alarmed announced, o.effects ++ told⟩ := by
  obtain ⟨announced, told, htold, heq⟩ := h.tells (d := o.dispatch s) hmiss
  refine ⟨announced, told, htold, ?_⟩
  rw [inSession_some hs, heq, Navigator.alarmed, hs]
  rfl

theorem inSession_leaves (hno : o.navigator.Has fun s => ¬ misses s) :
    o.inSession operation = o := by
  rcases hs : o.navigator.session with _ | s
  · exact inSession_none hs operation
  · rw [inSession_some hs, h.leaves (d := o.dispatch s) (hno s hs), withDispatch_dispatch hs]

theorem has_alarm (o : Outcome α) : (o.inSession operation).navigator.Has fun s => ¬ misses s := by
  intro t ht
  rcases hs : o.navigator.session with _ | s
  · rw [inSession_none hs, hs] at ht
    cases ht
  · rw [inSession_some hs] at ht
    obtain rfl := Option.some.inj ht
    exact h.not_misses _

end Outcome

namespace Navigator

variable [Scalar α] [Geodesy α] {config : Config α} {now : Int} {n : Navigator α} {event : Event α}
  (hevent : ∀ o, respond config now o event = .ok (o.inSession operation))
include hevent

theorem handle_alarm {s : Session α} (hs : (n.due config now).navigator.session = some s)
    (hmiss : misses s) : ∃ announced told, IsAlarm told
      ∧ n.handle config now event = (.ok ((n.due config now).effects ++ told),
          (n.due config now).navigator.alarmed announced) := by
  obtain ⟨announced, told, htold, heq⟩ := Outcome.inSession_alarm h hs hmiss
  refine ⟨announced, told, htold, ?_⟩
  simp only [handle, hevent, heq]

theorem handle_leaves (hno : (n.due config now).navigator.Has fun s => ¬ misses s) :
    n.handle config now event
      = (.ok (n.due config now).effects, (n.due config now).navigator) := by
  simp only [handle, hevent, Outcome.inSession_leaves h hno]

theorem handle_alarm_cases (n : Navigator α) :
    n.handle config now event = (.ok (n.due config now).effects, (n.due config now).navigator)
      ∨ ∃ announced told, IsAlarm told
        ∧ n.handle config now event = (.ok ((n.due config now).effects ++ told),
            (n.due config now).navigator.alarmed announced) := by
  by_cases hmiss : ∃ s, (n.due config now).navigator.session = some s ∧ misses s
  · obtain ⟨s, hs, hmiss⟩ := hmiss
    exact .inr (handle_alarm h hevent hs hmiss)
  · exact .inl (handle_leaves h hevent fun s hs hs' => hmiss ⟨s, hs, hs'⟩)

theorem Reachable.alarm_again (hreach : Reachable config n) {again : Event α}
    (hagain : ∀ o, respond config now o again = .ok (o.inSession operation)) :
    (n.handle config now event).2.handle config now again
      = (.ok [], (n.handle config now event).2) := by
  have hvalid : (n.handle config now event).2.timers.Valid :=
    (hreach.handle now event).aligned.valid
  have hidle : (n.handle config now event).2.IsIdle config now := by
    rcases handle_alarm_cases h hevent n with heq | ⟨announced, told, -, heq⟩ <;> rw [heq]
    · exact isIdle_due config now n
    · exact isIdle_due config now n
  have htold : (n.handle config now event).2.Has fun s => ¬ misses s := by
    simp only [Navigator.handle, hevent]
    exact Outcome.has_alarm h _
  have hdue := hidle.due_eq hvalid
  rw [handle_leaves h hagain (by rwa [hdue]), hdue]

end Navigator

end Alarm

namespace Navigator

variable [Scalar α] [Geodesy α] {config : Config α} {now : Int} {n : Navigator α}

theorem respond_of_bad {fix : Fix α}
    (hbad : fix.check now config.guidance.maxAge config.guidance.maxAccuracy ≠ none)
    (o : Outcome α) : respond config now o (.fix fix) = .ok (o.inSession (·.loseSignal config)) := by
  obtain ⟨fault, hfault⟩ := Option.ne_none_iff_exists'.1 hbad
  simp only [respond, Outcome.onFix, hfault]

/-- A bad fix leaves the navigator as the tasks that are due do, unless fixes are expected and the
driver has not been told that the signal is gone. Then that is told, with an instruction at the
most, and nothing is changed but that the session waits for a signal and what was announced last.
Any other bad fix at that time changes nothing and has no effects. -/
theorem Reachable.ignores_fix (h : Reachable config n) {fix : Fix α}
    (hbad : fix.check now config.guidance.maxAge config.guidance.maxAccuracy ≠ none) :
    ((n.due config now).navigator.Has (fun s => ¬ s.CanLose) → n.handle config now (.fix fix)
        = (.ok (n.due config now).effects, (n.due config now).navigator))
      ∧ (∀ s, (n.due config now).navigator.session = some s → s.CanLose → ∃ announced told,
        (told = [.signalLost] ∨ ∃ a, told = [.signalLost, .instruction a])
          ∧ n.handle config now (.fix fix) = (.ok ((n.due config now).effects ++ told),
              (n.due config now).navigator.alarmed announced))
      ∧ ∀ other : Fix α,
        other.check now config.guidance.maxAge config.guidance.maxAccuracy ≠ none →
          (n.handle config now (.fix fix)).2.handle config now (.fix other)
            = (.ok [], (n.handle config now (.fix fix)).2) := by
  have halarms := Dispatch.alarms_loseSignal config
  refine ⟨handle_leaves halarms (respond_of_bad hbad), fun s hs hlost => ?_, fun other hother => ?_⟩
  · exact handle_alarm halarms (respond_of_bad hbad) hs hlost
  · exact h.alarm_again halarms (respond_of_bad hbad) (respond_of_bad hother)

/-- The settle delay is over and a segment is to be stored when there comes a fix that is none. The
driver moves on, and is told that the signal is gone. -/
theorem ignores_fix_arriving : ∃ told n',
    Trial.arriving.handle .standard 2000 (Trial.seen 100000 2000)
        = (.ok ((Trial.arriving.due .standard 2000).effects ++ told), n')
      ∧ .signalLost ∈ told ∧ Trial.arriving.phase = .atStart ∧ n'.phase = .active
      ∧ n'.handle .standard 2000 (Trial.seen (-100000) 2000) = (.ok [], n') := by
  let rules : Config.Guidance ℚ := .standard
  have hbad : (Fix.ofPoint (Trial.place 100000) 2000).check 2000 rules.maxAge rules.maxAccuracy
      ≠ none := by decide +kernel
  have hother : (Fix.ofPoint (Trial.place (-100000)) 2000).check 2000 rules.maxAge
      rules.maxAccuracy ≠ none := by decide +kernel
  have hlost : (Trial.arriving.due .standard 2000).navigator.session.any (·.CanLose) = true := by
    decide +kernel
  have hphases : Trial.arriving.phase = .atStart
      ∧ (Trial.arriving.handle .standard 2000 (Trial.seen 100000 2000)).2.phase = .active := by
    decide +kernel
  obtain ⟨s, hs, hlost⟩ := (Option.any_eq_true _ _).1 hlost
  obtain ⟨-, htells, hagain⟩ := Reachable.ignores_fix Trial.reachable_arriving hbad
  obtain ⟨announced, told, htold, heq⟩ := htells s hs (of_decide_eq_true hlost)
  unfold Trial.seen at hphases ⊢
  rw [heq] at hphases hagain
  refine ⟨told, _, heq, ?_, hphases.1, hphases.2, hagain _ hother⟩
  rcases htold with rfl | ⟨a, rfl⟩ <;> exact List.mem_cons_self

/-- Besides the tasks that are due a tick has the driver told that the signal is gone, with an
instruction at the most, or nothing. Whatever the delays are, another one at the same time changes
nothing and has no effects. -/
theorem Reachable.ticks_once (h : Reachable config n) (now : Int) : ∃ told n',
    (told = [] ∨ told = [.signalLost] ∨ ∃ a, told = [.signalLost, .instruction a])
      ∧ n.handle config now .tick = (.ok ((n.due config now).effects ++ told), n')
      ∧ n'.handle config now .tick = (.ok [], n') := by
  have halarms := Dispatch.alarms_checkSignal config now
  have htick : ∀ o : Outcome α,
      respond config now o .tick = .ok (o.inSession (·.checkSignal config now)) := fun _ => rfl
  have hagain := h.alarm_again halarms htick htick
  rcases handle_alarm_cases halarms htick n with heq | ⟨announced, told, htold, heq⟩ <;>
    rw [heq] at hagain ⊢
  · exact ⟨[], _, .inl rfl, by rw [List.append_nil], hagain⟩
  · exact ⟨told, _, .inr htold, rfl, hagain⟩

end Navigator

namespace Trial

/-- Without the settle delay and the quiet period. -/
def hasty : Config ℚ :=
  { Config.standard with
    guidance := { Config.Guidance.standard with settleDelay := 0 }
    coverage := { Config.Coverage.standard with quiet := 0 } }

/-- The first segment is still being stored when the second one is made driven. -/
def storing : Navigator ℚ :=
  Navigator.fresh.run hasty [(0, .areaLoaded (area "north")), (0, seen (-5) 0), (0, .begin),
    (0, seen 0 0), (0, .tick), (1000, seen 3 1000)]

theorem reachable_storing : Navigator.Reachable hasty storing := .run .fresh _

end Trial

/-- Then a tick has the driver told that the signal is gone, and the second segment goes on to be
due at once. -/
theorem Navigator.ticks_once_storing : ∃ effects n',
    Trial.storing.handle Trial.hasty 20000 .tick = (.ok effects, n')
      ∧ effects.length = 2 ∧ n'.nextDeadline? = some 20000
      ∧ n'.handle Trial.hasty 20000 .tick = (.ok [], n') := by
  have hlength : (Trial.storing.handle Trial.hasty 20000 .tick).1.map List.length = .ok 2 := by
    decide +kernel
  have hdeadline : (Trial.storing.handle Trial.hasty 20000 .tick).2.nextDeadline? = some 20000 := by
    decide +kernel
  obtain ⟨told, n', -, htick, hagain⟩ := Reachable.ticks_once Trial.reachable_storing 20000
  rw [htick] at hlength hdeadline
  exact ⟨_, n', htick, by simpa [Except.map] using hlength, hdeadline, hagain⟩

end Roadbook

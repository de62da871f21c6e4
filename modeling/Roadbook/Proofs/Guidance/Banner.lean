import Roadbook.Proofs.Guidance.Signal

/-!
# The banner

The banner shows the instruction that was given last. A session remembers it (`Session.Recalls`) and
gives another one just when what is to be told has changed, so after every call the banner says what
is to be told at present (`Session.IsCurrent`, `Navigator.Reachable.announces_present`). It is empty
only until the driver begins or a fix is taken in.
-/

namespace Roadbook

variable {α : Type}

namespace Effect

def instruction? : Effect α → Option Announcement
  | .instruction a => some a
  | _ => none

/-- The instructions that are given, in order. -/
def instructions (effects : List (Effect α)) : List Announcement := effects.filterMap instruction?

theorem instructions_append (effects new : List (Effect α)) :
    instructions (effects ++ new) = instructions effects ++ instructions new :=
  List.filterMap_append

theorem instruction?_of_isMute {e : Effect α} (h : e.IsMute) : e.instruction? = none := by
  cases e <;> first | rfl | exact h.elim

end Effect

open Effect

namespace Session

/-- No instruction was given twice in a row, and the last one is remembered. -/
def Recalls (s : Session α) (told : List (Effect α)) : Prop :=
  Turns (instructions told) s.announced

variable {s t : Session α} {told new : List (Effect α)}

theorem Recalls.congr (h : s.Recalls told) (hannounced : t.announced = s.announced)
    (hnew : instructions new = []) : t.Recalls (told ++ new) := by
  unfold Recalls
  rw [instructions_append, hnew, List.append_nil, hannounced]
  exact h

theorem Recalls.mute (h : s.Recalls told) (hannounced : t.announced = s.announced)
    (hnew : ∀ e ∈ new, e.IsMute) : t.Recalls (told ++ new) :=
  h.congr hannounced (List.filterMap_eq_nil_iff.2 fun e he => instruction?_of_isMute (hnew e he))

variable [Scalar α] [Geodesy α] {config : Config α}

/-- The last instruction is what is to be told at present. Nothing was told only while the driver
has not begun and has not been heard of. -/
structure IsCurrent (config : Config α) (s : Session α) : Prop where
  present : ∀ a, s.announced = some a → a = s.announcement config
  silence : s.announced = none → s.phase = .preview ∧ s.lastSignal = none

/-- The last instruction is remembered, and it is what is to be told at present. -/
structure IsUpToDate (config : Config α) (s : Session α) (told : List (Effect α)) : Prop
    extends s.IsCurrent config where
  recalls : s.Recalls told

theorem IsCurrent.congr (h : s.IsCurrent config) (hannounced : t.announced = s.announced)
    (hannouncement : t.announcement config = s.announcement config) (hphase : t.phase = s.phase)
    (hlast : t.lastSignal = s.lastSignal) : t.IsCurrent config := by
  refine ⟨?_, ?_⟩ <;> rw [hannounced]
  · rw [hannouncement]
    exact h.present
  · rw [hphase, hlast]
    exact h.silence

/-- What is to be told goes by the route, the phase, progress, the position and the signal. -/
theorem announcement_congr (hsame : t.SameCourse s) (hposition : t.position = s.position)
    (hwaiting : t.waiting = s.waiting) : t.announcement config = s.announcement config := by
  unfold announcement situation progress distanceToStart
  rw [hsame.route, hsame.phase, hsame.smoother, hposition, hwaiting]

end Session

namespace Dispatch

open Session

variable [Scalar α] [Geodesy α] {config : Config α} {told : List (Effect α)} {d d' : Dispatch α}

/-- An instruction is given if it is another one than the last, and then it is the last. -/
theorem isUpToDate_announce (h : d.session.Recalls (told ++ d.effects)) :
    (d.announce config).session.IsUpToDate config (told ++ (d.announce config).effects) := by
  by_cases hsame : d.session.announced = some (d.session.announcement config)
  · have hstill : d.announce config = d := if_pos hsame
    rw [hstill]
    refine ⟨⟨fun a ha => Option.some.inj (ha.symm.trans hsame), fun hnone => ?_⟩, h⟩
    cases hnone.symm.trans hsame
  · have hgiven : d.announce config = (d.withSession { d.session with
        announced := some (d.session.announcement config) }).emit
          (.instruction (d.session.announcement config)) := if_neg hsame
    rw [hgiven]
    refine ⟨⟨fun a ha => (Option.some.inj ha).symm, nofun⟩, ?_⟩
    unfold Recalls
    rw [emit, ← List.append_assoc, instructions_append]
    exact Turns.concat h hsame

theorem Announces.isUpToDate (h : d.Announces config d')
    (hrecalls : d.session.Recalls (told ++ d.effects)) :
    d'.session.IsUpToDate config (told ++ d'.effects) := by
  obtain ⟨b, hmutes, rfl⟩ := h
  obtain ⟨new, heffects, hmute⟩ := hmutes.effects
  refine isUpToDate_announce ?_
  rw [heffects, ← List.append_assoc]
  exact hrecalls.mute hmutes.announced hmute

end Dispatch

/-- An instruction brings a session up to date that remembers the last one. -/
theorem Session.tells_isUpToDate [Scalar α] [Geodesy α] (config : Config α)
    (told : List (Effect α)) : Tells config (fun s effects => s.Recalls (told ++ effects))
      fun s effects => s.IsUpToDate config (told ++ effects) where
  announces hannounces h := hannounces.isUpToDate h
  beside he h := by
    rw [← List.append_assoc]
    exact ⟨h.toIsCurrent, h.recalls.mute rfl (List.forall_mem_singleton.2 he.isMute)⟩
  resolve id found d h := by
    have hmutes := d.mutes_resolve id found
    obtain ⟨new, heffects, hmute⟩ := hmutes.effects
    have hsame := d.sameCourse_resolve id found
    refine ⟨h.toIsCurrent.congr hmutes.announced (announcement_congr hsame hmutes.position
      hmutes.waiting) hsame.phase hmutes.lastSignal, ?_⟩
    rw [heffects, ← List.append_assoc]
    exact h.recalls.mute hmutes.announced hmute
  silence h := h.recalls
  begins _ _ _ h := h.recalls
  loses h _ := by
    rw [← List.append_assoc]
    exact h.recalls.congr rfl rfl
  receives now fix d h := by
    unfold Dispatch.receive
    dsimp only
    split_ifs
    · show Session.Recalls _ (told ++ (d.effects ++ _))
      rw [← List.append_assoc]
      exact h.recalls.congr rfl rfl
    · exact h.recalls

namespace Navigator

variable [Scalar α] [Geodesy α] {config : Config α} {now : Int} {n : Navigator α}

/-- Where there was no sign of life no fix was good. -/
theorem check_of_signs : ∀ (calls : List (Int × Event α)) {n : Navigator α},
    n.signs config calls = [] → ∀ a ∈ n.log config calls, ∀ fix, a.event = .fix fix →
      fix.check a.now config.guidance.maxAge config.guidance.maxAccuracy ≠ none
  | [], _, _ => by simp [log]
  | (now, event) :: calls, n, hsigns => by
    obtain ⟨hfirst, hrest⟩ := List.append_eq_nil_iff.1 hsigns
    rw [log_cons, List.forall_mem_cons]
    refine ⟨fun fix hfix hgood => ?_, check_of_signs calls hrest⟩
    obtain rfl : event = .fix fix := hfix
    have hsign : (Event.fix fix).sign? config now n.phase = some now := if_pos hgood
    rw [hsign] at hfirst
    cases hfirst

/-- From the loading of an area on the last instruction is that which is to be told at present, and
it is another one than the one before. Without any the driver has not begun, and no fix was good.
Instructions that come due as the area is unloaded are no exception. -/
theorem Reachable.announces_present (h : Reachable config n) {area : Area α} {ranks : Nat → Nat}
    {shown : List (Effect α)} {n₀ : Navigator α}
    (hload : n.handle config now (.areaLoaded area ranks) = (.ok shown, n₀))
    {calls : List (Int × Event α)} (hkeeps : ∀ a ∈ n₀.log config calls, ¬ a.Unloads)
    (hok : ∀ a ∈ n₀.log config calls, a.result.isOk = true) :
    ∃ s told, (n₀.run config calls).session = some s
      ∧ told = instructions ((n₀.log config calls).flatMap Answer.effects)
      ∧ (∃ ended route, shown = ended ++ area.shown route)
      ∧ (∀ a, told.getLast? = some a → a = .make s.route
        ⟨s.phase, s.progress, s.position.map s.distanceToStart, s.waiting,
          config.guidance.deadBand⟩)
      ∧ (told = [] → s.phase = .preview ∧ ∀ a ∈ n₀.log config calls, ∀ fix, a.event = .fix fix →
        fix.check a.now config.guidance.maxAge config.guidance.maxAccuracy ≠ none)
      ∧ told.IsChain (· ≠ ·)
      ∧ ∀ later event effects n', event.Unloads →
        (n₀.run config calls).handle config later event = (.ok effects, n') →
          (told ++ instructions effects).IsChain (· ≠ ·) := by
  obtain ⟨route, hshown, hn₀⟩ := h.of_load hload
  have hreach : Reachable config (n₀.run config calls) := by
    have hloaded := h.handle now (.areaLoaded area ranks)
    rw [hload] at hloaded
    exact hloaded.run calls
  have hs₀ : n₀.session = some (.ofRoute area.name route .fresh) := by rw [hn₀]; rfl
  have hfresh : (Session.ofRoute area.name route .fresh).IsUpToDate config [] :=
    ⟨⟨nofun, fun _ => ⟨rfl, rfl⟩⟩, .nil, rfl⟩
  obtain ⟨s, hs, hcurrent⟩ :=
    Session.Tells.run (Session.tells_isUpToDate config) calls hs₀ hfresh hkeeps hok
  obtain ⟨s', hs', hlast⟩ := lastSignal_run calls hs₀ hkeeps hok
  obtain rfl := Option.some.inj (hs'.symm.trans hs)
  have hrecalls := hcurrent.recalls
  rw [List.nil_append] at hrecalls
  refine ⟨s', _, hs, rfl, ⟨_, route, hshown⟩, fun a ha => ?_, fun hnone => ?_, hrecalls.chain, ?_⟩
  · exact hcurrent.present a (hrecalls.last.symm.trans ha)
  · have hsilent : s'.announced = none := by
      rw [← hrecalls.last, hnone]
      rfl
    obtain ⟨hpreview, hunheard⟩ := hcurrent.silence hsilent
    refine ⟨hpreview, check_of_signs calls ?_⟩
    rw [hunheard] at hlast
    exact List.getLast?_eq_none_iff.1 hlast.symm
  · intro later event effects n' hunloads heffects
    obtain ⟨new, rfl, hmute⟩ := hreach.mutes_unloads hunloads heffects
    obtain ⟨t, -, hdue⟩ : (((n₀.run config calls).due config later).Shows _) :=
      (Session.tells_isUpToDate config _).lasts.due hs (by rwa [List.append_nil])
    have hchain := (hdue.recalls.mute rfl hmute).chain
    rwa [List.nil_append, List.append_assoc, instructions_append] at hchain

end Navigator

namespace Trial

/-- A driver comes to the start of the road and waits there. -/
def settling : List (Int × Event ℚ) :=
  [(0, seen (-5) 0), (0, .begin), (0, seen (-3) 0), (500, seen 0 500), (900, .tick)]

end Trial

namespace Navigator

/-- The settle delay is over only as guidance is finished, and that is told before. -/
theorem announces_present_settling : ∃ s effects n',
    (Trial.loaded.run .standard Trial.settling).session = some s
      ∧ (instructions ((Trial.loaded.log .standard Trial.settling).flatMap Answer.effects)).getLast?
        = some (.make s.route
          ⟨s.phase, s.progress, s.position.map s.distanceToStart, s.waiting, 5⟩)
      ∧ (Trial.loaded.run .standard Trial.settling).handle .standard 2000 .finish
        = (.ok effects, n')
      ∧ instructions effects ≠ []
      ∧ (instructions ((Trial.loaded.log .standard Trial.settling).flatMap Answer.effects)
        ++ instructions effects).IsChain (· ≠ ·) := by
  obtain ⟨shown, hload⟩ := Trial.load_north
  have hkeeps : ∀ a ∈ Trial.loaded.log .standard Trial.settling, ¬ a.Unloads := by decide +kernel
  have hok : ∀ a ∈ Trial.loaded.log .standard Trial.settling, a.result.isOk = true := by
    decide +kernel
  obtain ⟨s, told, hs, rfl, -, hpresent, -, -, hend⟩ :=
    Reachable.announces_present Reachable.fresh hload hkeeps hok
  have hfinish := (Trial.loaded.run .standard Trial.settling).handle_finish .standard 2000
  have hgiven : instructions (((Trial.loaded.run .standard Trial.settling).due .standard
      2000).unload .standard 2000).effects ≠ [] := by
    decide +kernel
  rcases hlast : (instructions ((Trial.loaded.log .standard Trial.settling).flatMap
      Answer.effects)).getLast? with _ | a
  · have hsome : ((instructions ((Trial.loaded.log .standard Trial.settling).flatMap
        Answer.effects)).getLast?).isSome = true := by
      decide +kernel
    rw [hlast] at hsome
    cases hsome
  · exact ⟨s, _, _, hs, congrArg some (hpresent a hlast), hfinish, hgiven,
      hend 2000 .finish _ _ trivial hfinish⟩

end Navigator

end Roadbook

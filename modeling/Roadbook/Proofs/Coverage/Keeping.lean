import Roadbook.Proofs.Coverage.Archive
import Roadbook.Proofs.Guidance.Run

/-!
# What becomes of driven segments

A `Keeper` is a navigator with the store that its batches go to. A last batch is stored at once. Any
other one is stored at any later time, or never, and its outcome is reported once at the most, at
any time and in any order. A report names the area of its batch only. So every segment that was made
driven is stored, or pending or in flight for its area, throughout a run just if no report of
success meets another batch of the area in flight that has not been stored (`Keeper.keeps_iff`).
-/

namespace Roadbook

def Event.isFlushed {α : Type} : Event α → Bool
  | .flushed _ _ => true
  | _ => false

variable {α : Type} [Scalar α] [Geodesy α] {config : Config α} {now : Int}

/-- A navigator with the store that its batches go to. -/
structure Keeper (α : Type) where
  navigator : Navigator α
  archive : Archive
  /-- The places in the archive of the batches that were stored. -/
  written : List Nat
  /-- The places of those whose outcome was reported. -/
  reported : List Nat

namespace Keeper

/-- What can happen next: an event other than the outcome of a batch, that a batch in the archive is
stored, or the report on one. -/
inductive Move (α : Type) where
  | call (now : Int) (event : Event α)
  | store (place : Nat)
  | report (now : Int) (place : Nat)

def start : Keeper α := ⟨.fresh, .empty, [], []⟩

def handle (config : Config α) (k : Keeper α) (now : Int) (event : Event α) : Option (Keeper α) :=
  match k.navigator.handle config now event with
  | (.ok effects, n) => some { k with navigator := n, archive := k.archive.addAll effects }
  | (.error _, _) => none

/-- The batch at a place in the archive, unless its outcome was reported. -/
def unreported? (k : Keeper α) (place : Nat) : Option Batch :=
  if place ∈ k.reported then none else k.archive.batches[place]?

/-- The keeper after a move, unless that is impossible or the navigator refuses an event. -/
def next (config : Config α) (k : Keeper α) : Move α → Option (Keeper α)
  | .call now event => if event.isFlushed then none else k.handle config now event
  | .store place => (k.unreported? place).map fun batch => { k with
      archive := { k.archive with stored := k.archive.stored ++ batch.segments }
      written := place :: k.written }
  | .report now place => (k.unreported? place).bind fun batch =>
      handle config { k with reported := place :: k.reported } now
        (.flushed batch.area (decide (place ∈ k.written)))

def run? (config : Config α) (k : Keeper α) (moves : List (Move α)) : Option (Keeper α) :=
  moves.foldlM (next config) k

def IsKept (k : Keeper α) : Prop := k.archive.Keeps k.navigator

/-- A report of success, when a segment of the area that was not stored is in flight. -/
def IsPremature (config : Config α) (k : Keeper α) : Move α → Prop
  | .report now place => place ∈ k.written ∧ ∃ batch id, k.archive.batches[place]? = some batch
      ∧ (k.navigator.due config now).navigator.HasInFlight batch.area id
      ∧ (batch.area, id) ∉ k.archive.stored
  | _ => False

def Keeps (config : Config α) (k : Keeper α) : List (Move α) → Prop
  | [] => k.IsKept
  | move :: moves => k.IsKept ∧ ∀ k', k.next config move = some k' → k'.Keeps config moves

def Timely (config : Config α) (k : Keeper α) : List (Move α) → Prop
  | [] => True
  | move :: moves => ∀ k', k.next config move = some k' →
      ¬ k.IsPremature config move ∧ k'.Timely config moves

variable {k k' : Keeper α}

theorem Keeps.isKept : ∀ {moves : List (Move α)}, k.Keeps config moves → k.IsKept
  | [], h => h
  | _ :: _, h => h.1

theorem Keeps.run? {moves : List (Move α)} (h : k.Keeps config moves)
    (hrun : k.run? config moves = some k') : k'.IsKept := by
  induction moves generalizing k with
  | nil =>
    cases hrun
    exact h
  | cons move moves ih =>
    rw [Keeper.run?, List.foldlM_cons] at hrun
    obtain ⟨k₁, hnext, hrest⟩ := Option.bind_eq_some_iff.1 hrun
    exact ih (h.2 k₁ hnext) hrest

theorem handle_eq_some {event : Event α} (h : k.handle config now event = some k') : ∃ o,
    Navigator.respond config now (k.navigator.due config now) event = .ok o
      ∧ k' = { k with navigator := o.navigator, archive := k.archive.addAll o.effects } := by
  unfold handle at h
  rcases k.navigator.handle_cases config now event with ⟨o, hok, heq⟩ | ⟨refusal, -, heq⟩ <;>
    rw [heq] at h
  · exact ⟨o, hok, (Option.some.inj h).symm⟩
  · cases h

omit [Scalar α] [Geodesy α] in
theorem unreported?_eq_some {place : Nat} {batch : Batch}
    (h : k.unreported? place = some batch) : k.archive.batches[place]? = some batch := by
  unfold unreported? at h
  split_ifs at h
  exact h

structure IsSound (k : Keeper α) : Prop where
  accounts : k.archive.Accounts k.navigator
  paired : k.navigator.IsPaired

theorem IsSound.due (h : k.IsSound) (config : Config α) (now : Int) :
    (k.navigator.due config now).IsKept k.archive :=
  (Navigator.acts_due k.navigator).isKept h.accounts

theorem stored_due (k : Keeper α) (config : Config α) (now : Int) :
    (k.archive.addAll (k.navigator.due config now).effects).stored = k.archive.stored :=
  Archive.stored_addAll_of_isDue (k.navigator.effects_due config now)

theorem IsSound.next {move : Move α} (h : k.IsSound) (hnext : k.next config move = some k')
    (htimely : ¬ k.IsPremature config move) : k'.IsSound := by
  cases move with
  | call now event =>
    simp only [Keeper.next] at hnext
    split_ifs at hnext with hevent
    obtain ⟨o, hok, rfl⟩ := handle_eq_some hnext
    have hpaired := h.paired.due config now
    refine ⟨(h.due config now).respond hpaired hok ?_, Outcome.isPaired_respond hpaired hok⟩
    rintro area success rfl
    exact hevent rfl
  | store place =>
    obtain ⟨batch, -, rfl⟩ := Option.map_eq_some_iff.1 hnext
    exact ⟨h.accounts.of_stored rfl (fun _ => List.mem_append_left _) (fun _ _ => .inr)
      (fun _ _ => id) h.accounts.tidy, h.paired⟩
  | report now place =>
    obtain ⟨batch, hbatch, hnext⟩ := Option.bind_eq_some_iff.1 hnext
    obtain ⟨o, hok, rfl⟩ := handle_eq_some hnext
    refine ⟨?_, Outcome.isPaired_respond (h.paired.due config now) hok⟩
    cases hok
    refine (h.due config now).onFlushed batch.area fun hwritten id hflight => ?_
    rw [stored_due]
    by_contra hstored
    exact htimely ⟨of_decide_eq_true hwritten, batch, id, unreported?_eq_some hbatch, hflight,
      hstored⟩

theorem IsSound.not_isKept_next {move : Move α} (h : k.IsSound)
    (hnext : k.next config move = some k') (hpremature : k.IsPremature config move) :
    ¬ k'.IsKept := by
  cases move with
  | call now event => exact hpremature.elim
  | store place => exact hpremature.elim
  | report now place =>
    obtain ⟨hwritten, batch, id, hbatch, hflight, hstored⟩ := hpremature
    obtain ⟨batch', hbatch', hnext⟩ := Option.bind_eq_some_iff.1 hnext
    obtain rfl := Option.some.inj (hbatch.symm.trans (unreported?_eq_some hbatch'))
    obtain ⟨o, hok, rfl⟩ := handle_eq_some hnext
    cases hok
    rw [decide_eq_true hwritten]
    refine Outcome.not_keeps_onFlushed config now (h.due config now) hflight ?_
    rwa [stored_due]

theorem IsSound.keeps_iff_timely (h : k.IsSound) (moves : List (Move α)) :
    k.Keeps config moves ↔ k.Timely config moves := by
  induction moves generalizing k with
  | nil => exact iff_of_true h.accounts.keeps trivial
  | cons move moves ih =>
    constructor
    · rintro ⟨-, hkeeps⟩ k' hnext
      have htimely : ¬ k.IsPremature config move := fun hpremature =>
        h.not_isKept_next hnext hpremature (hkeeps k' hnext).isKept
      exact ⟨htimely, (ih (h.next hnext htimely)).1 (hkeeps k' hnext)⟩
    · intro htimely
      refine ⟨h.accounts.keeps, fun k' hnext => ?_⟩
      obtain ⟨hmove, hrest⟩ := htimely k' hnext
      exact (ih (h.next hnext hmove)).2 hrest

/-- Throughout a run every segment made driven is stored, or pending or in flight, just if no batch
is reported as stored when a segment of the area is in flight that has not been stored. -/
theorem keeps_iff (config : Config α) (moves : List (Move α)) :
    start.Keeps config moves ↔ start.Timely config moves := by
  have hpaired : (start : Keeper α).navigator.IsPaired := rfl
  exact IsSound.keeps_iff_timely ⟨Archive.accounts_fresh, hpaired⟩ moves

end Keeper

namespace Trial

def drive (k : ℚ) (now : Int) : List (Keeper.Move ℚ) :=
  [.call now (.areaLoaded (area "north")), .call now .begin, .call now (seen k now)]

/-- A batch is stored, and that is reported when the area has been loaded again and another batch of
it is in flight. -/
def losing : List (Keeper.Move ℚ) :=
  drive 0 0 ++ [.call 2000 .tick, .store 0] ++ drive 3 2000 ++ [.call 4000 .tick, .report 4000 0]

end Trial

namespace Keeper

/-- The segment in flight is then forgotten, and nothing stores it any more. -/
theorem late_report_loses : ¬ ∀ (config : Config ℚ) (moves : List (Move ℚ)),
    start.Keeps config moves := by
  intro hkeeps
  have hrun : (start.run? .standard Trial.losing).map (fun k =>
      (decide (("north", 2) ∈ k.archive.driven), decide (("north", 2) ∈ k.archive.stored),
        k.navigator.tracker.map (·.unconfirmed.toList))) = some (true, false, some []) := by
    decide +kernel
  obtain ⟨k, hk, hlost⟩ := Option.map_eq_some_iff.1 hrun
  simp only [Prod.mk.injEq, decide_eq_true_eq, decide_eq_false_iff_not] at hlost
  obtain ⟨hdriven, hstored, htracker⟩ := hlost
  obtain ⟨t, ht, hnone⟩ := Option.map_eq_some_iff.1 htracker
  rcases (hkeeps .standard Trial.losing).run? hk "north" 2 hdriven with hid | ⟨t', ht', -, hid⟩
  · exact hstored hid
  · obtain rfl := Option.some.inj (ht.symm.trans ht')
    have hmem := Tracker.mem_unconfirmed.2 hid
    rw [IdSet.mem_def, hnone] at hmem
    cases hmem

end Keeper

end Roadbook

import Mathlib.Tactic.Common
import Roadbook.Progress.Smoother

/-!
# Samples

A smoother keeps the latest samples, the newest of them last (`Smoother.remember_eq`), and the time
of the newest. `Smoother.take` is what a smoother becomes by one more sample, `Smoother.takeAll` by
some in order, and `Smoother.progresses` is the progress after each.
-/

namespace Roadbook

/-- A place along the route, with the time at which it was taken. -/
structure Sample (α : Type) where
  along : α
  time : Int

variable {α : Type}

/-- A vehicle gets from one sample to the next. -/
def Sample.Reaches [Scalar α] (rules : Config.Smoothing α) (a b : Sample α) : Prop :=
  ¬ rules.maxSpeed * (Scalar.ofInt (max (b.time - a.time) 0) / 1000) < b.along - a.along

instance [Scalar α] (rules : Config.Smoothing α) (a b : Sample α) : Decidable (a.Reaches rules b) :=
  inferInstanceAs (Decidable (¬ _))

/-- A vehicle gets from one sample to the next, and the time between the two fits. -/
def Sample.LeadsTo [Scalar α] (rules : Config.Smoothing α) (a b : Sample α) : Prop :=
  a.Reaches rules b ∧ Scalar.Fits α (b.time - a.time)

instance [Scalar α] (rules : Config.Smoothing α) (a b : Sample α) : Decidable (a.LeadsTo rules b) :=
  inferInstanceAs (Decidable (_ ∧ _))

namespace Smoother

section History

variable {rules : Config.Smoothing α} {history : List α} {sample a : α}

theorem remember_eq (rules : Config.Smoothing α) (history : List α) (sample : α) :
    remember rules history sample
      = history.drop (history.length + 1 - max rules.capacity 1) ++ [sample] := by
  have hroom : history.length + 1 - max rules.capacity 1 ≤ history.length := by omega
  unfold remember
  dsimp only
  rw [List.length_append, List.length_singleton, List.drop_append_of_le_length hroom]

theorem remember_of_room (hroom : history.length < rules.capacity) :
    remember rules history sample = history ++ [sample] := by
  have hall : history.length + 1 - max rules.capacity 1 = 0 := by omega
  rw [remember_eq, hall, List.drop_zero]

theorem remember_nil (rules : Config.Smoothing α) (sample : α) :
    remember rules [] sample = [sample] := by
  rw [remember_eq, List.drop_nil, List.nil_append]

/-- Where there is room for a new sample beside some of the latest ones, these are all kept. -/
theorem remember_append {older recent : List α} (hroom : recent.length < rules.capacity)
    (sample : α) : remember rules (older ++ recent) sample
      = older.drop (older.length + recent.length + 1 - rules.capacity) ++ (recent ++ [sample]) := by
  have hall : older.length + recent.length + 1 - rules.capacity ≤ older.length := by omega
  rw [remember_eq, Nat.max_eq_left (by omega), List.length_append,
    List.drop_append_of_le_length hall, List.append_assoc]

/-- Where there is room for two samples, the newest but one is kept, after some of those before. -/
theorem exists_remember (sample : α) (hlast : history.getLast? = some a)
    (hroom : 2 ≤ rules.capacity) :
    ∃ older, remember rules history sample = older ++ [a, sample]
      ∧ older.length + 2 ≤ rules.capacity ∧ older ++ [a] <:+ history := by
  obtain ⟨before, rfl⟩ := List.getLast?_eq_some_iff.1 hlast
  refine ⟨_, remember_append (show [a].length < _ from hroom) sample, ?_, ?_⟩
  · simp
    omega
  · rw [← List.drop_append_of_le_length (by simp; omega)]
    exact List.drop_suffix _ _

theorem mem_remember (h : a ∈ remember rules history sample) : a ∈ history ∨ a = sample := by
  rw [remember_eq, List.mem_append, List.mem_singleton] at h
  exact h.imp_left List.mem_of_mem_drop

theorem remember_ne_nil (rules : Config.Smoothing α) (history : List α) (sample : α) :
    remember rules history sample ≠ [] := by
  rw [remember_eq]
  exact List.append_ne_nil_of_right_ne_nil _ (List.cons_ne_nil _ _)

end History

/-- The newest of the samples that are kept. -/
def newest? (s : Smoother α) : Option (Sample α) :=
  match s.history.getLast?, s.time with
  | some along, some time => some ⟨along, time⟩
  | _, _ => none

theorem newest?_eq_some {s : Smoother α} {a : Sample α} :
    s.newest? = some a ↔ s.history.getLast? = some a.along ∧ s.time = some a.time := by
  unfold newest?
  split
  · rename_i along time hlast htime
    rw [hlast, htime, Option.some.injEq, Option.some.injEq, Option.some.injEq]
    exact ⟨fun h => h ▸ ⟨rfl, rfl⟩, fun h => by rw [h.1, h.2]⟩
  · rename_i hno
    exact iff_of_false nofun fun h => hno _ _ h.1 h.2

/-- A sample is kept only together with its time. -/
def IsTimed (s : Smoother α) : Prop := s.time = none → s.history = []

variable [Scalar α] {rules : Config.Smoothing α} {s : Smoother α} {sample : α} {time : Int}

theorem isTimed_update (rules : Config.Smoothing α) (s : Smoother α) (sample : α) (time : Int) :
    (s.update rules sample time).IsTimed := nofun

theorem newest?_update (rules : Config.Smoothing α) (s : Smoother α) (sample : α) (time : Int) :
    (s.update rules sample time).newest? = some ⟨sample, time⟩ := by
  simp only [newest?, update, remember_eq, List.getLast?_concat]

/-- A sample that can be reached from the newest one is not too far ahead, as long as the time
between the two fits. -/
theorem outruns_of_leadsTo (ht : s.IsTimed)
    (h : ∀ newest, s.newest? = some newest → newest.LeadsTo rules ⟨sample, time⟩) :
    s.outruns rules sample time = false := by
  unfold outruns
  split
  · rename_i previous hlast
    rcases htime : s.time with _ | before
    · rw [ht htime] at hlast
      cases hlast
    · obtain ⟨hreaches, hfits⟩ := h ⟨previous, before⟩ (by simp only [newest?, hlast, htime])
      have hwrap : Scalar.wrap α (time - before) = time - before := hfits
      simpa only [Sample.Reaches, elapsed, htime, hwrap, decide_eq_false_iff_not] using hreaches
  · rfl

/-- After the first sample one that too few agree on is turned down, and any other one is blended
in. -/
theorem next_of_time (hs : s.time ≠ none) : s.next rules sample time
    = if IsOutlier rules s.progress sample (remember rules s.history sample) then s.progress
      else blend rules s.progress (s.elapsed time) sample (remember rules s.history sample) := by
  unfold next
  split
  · rename_i hnone
    exact absurd hnone hs
  · rfl

def take (rules : Config.Smoothing α) (s : Smoother α) (a : Sample α) : Smoother α :=
  s.update rules a.along a.time

def takeAll (rules : Config.Smoothing α) (s : Smoother α) (samples : List (Sample α)) :
    Smoother α :=
  samples.foldl (take rules) s

def progresses (rules : Config.Smoothing α) (s : Smoother α) : List (Sample α) → List α
  | [] => []
  | a :: samples => (s.take rules a).progress :: (s.take rules a).progresses rules samples

end Smoother

end Roadbook

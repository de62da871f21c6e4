import Mathlib.Data.List.Sort
import Roadbook.Format.FixLog

/-!
# What is read from a log

Reading a log gives the fixes its lines stand for, in a stable order of their times, unless some
line spoils the log (`Fix.isBad`); then the first such line is named. Fixes at different times are
read in the same order wherever their lines are in the log (`Fix.reads_in_order`).
-/

namespace Roadbook

namespace Fix

variable {α : Type}

section Lines

variable (decode : List Char → Option (Fix α))

/-- The fix a line of a log stands for. -/
def entryFix? (line : List Char) : Option (Fix α) :=
  if isEntry (trimmed line) then decode (trimmed line) else none

/-- Whether a line should stand for a fix and does not. -/
def isBad (line : List Char) : Bool := isEntry (trimmed line) && (decode (trimmed line)).isNone

theorem readLines_of_good : ∀ {lines : List (List Char)} (number : Nat),
    (∀ line ∈ lines, isBad decode line = false) →
      readLines decode number lines = .ok (lines.filterMap (entryFix? decode))
  | [], _, _ => rfl
  | line :: rest, number, h => by
    obtain ⟨hline, hrest⟩ := List.forall_mem_cons.1 h
    have ih := readLines_of_good (number + 1) hrest
    unfold readLines
    by_cases hentry : isEntry (trimmed line) = true
    · rcases hdecode : decode (trimmed line) with _ | fix
      · simp [isBad, hentry, hdecode] at hline
      · have hfix : entryFix? decode line = some fix := by rw [entryFix?, if_pos hentry, hdecode]
        rw [if_pos hentry, ih, List.filterMap_cons_some hfix]
        rfl
    · have hnone : entryFix? decode line = none := if_neg hentry
      rw [if_neg hentry, ih, List.filterMap_cons_none hnone]

/-- The first bad line stops the reading, and its number is that of the lines before it and one
more. -/
theorem readLines_of_bad {line : List Char} (hbad : isBad decode line = true)
    (after : List (List Char)) : ∀ {before : List (List Char)} (number : Nat),
      (∀ l ∈ before, isBad decode l = false) →
        readLines decode number (before ++ line :: after) = .error (number + before.length)
  | [], number, _ => by
    obtain ⟨hentry, hdecode⟩ := Bool.and_eq_true_iff.1 hbad
    rw [List.nil_append, readLines, if_pos hentry, Option.isNone_iff_eq_none.1 hdecode]
    rfl
  | first :: before, number, h => by
    obtain ⟨hfirst, hbefore⟩ := List.forall_mem_cons.1 h
    have ih := readLines_of_bad hbad after (number + 1) hbefore
    rw [List.cons_append, readLines, ih, List.length_cons, Nat.add_right_comm, Nat.add_assoc]
    by_cases hentry : isEntry (trimmed first) = true
    · rcases hdecode : decode (trimmed first) with _ | fix
      · simp [isBad, hentry, hdecode] at hfirst
      · rw [if_pos hentry]
        rfl
    · rw [if_neg hentry]

/-- A log is read as a whole, or it has a first bad line. -/
theorem readLog_cases (text : List Char) :
    ((∀ line ∈ linesOf text, isBad decode line = false)
        ∧ readLog decode text = .ok (inOrder ((linesOf text).filterMap (entryFix? decode))))
      ∨ ∃ before line after, linesOf text = before ++ line :: after
        ∧ (∀ l ∈ before, isBad decode l = false) ∧ isBad decode line = true
        ∧ readLog decode text = .error (before.length + 1) := by
  unfold readLog
  rcases hfind : (linesOf text).find? (isBad decode) with _ | line
  · have hgood : ∀ line ∈ linesOf text, isBad decode line = false := by
      simpa using List.find?_eq_none.1 hfind
    rw [readLines_of_good decode 1 hgood]
    exact .inl ⟨hgood, rfl⟩
  · obtain ⟨hbad, before, after, hlines, hbefore⟩ := List.find?_eq_some_iff_append.1 hfind
    have hgood : ∀ l ∈ before, isBad decode l = false := by simpa using hbefore
    rw [hlines, readLines_of_bad decode hbad after 1 hgood, Nat.add_comm]
    exact .inr ⟨before, line, after, rfl, hgood, hbad, rfl⟩

end Lines

section Order

variable {fixes others : List (Fix α)}

theorem inOrder_perm (fixes : List (Fix α)) : (inOrder fixes).Perm fixes := List.mergeSort_perm _ _

/-- Times can be compared, so that sorting by them puts fixes in order and is stable. -/
theorem pairwise_inOrder (fixes : List (Fix α)) :
    (inOrder fixes).Pairwise (fun f g => f.time ≤ g.time)
      ∧ ∀ {kept : List (Fix α)}, kept.Pairwise (fun f g => f.time ≤ g.time) →
        kept.Sublist fixes → kept.Sublist (inOrder fixes) := by
  have htrans : ∀ f g h : Fix α, decide (f.time ≤ g.time) = true → decide (g.time ≤ h.time) = true →
      decide (f.time ≤ h.time) = true :=
    fun _ _ _ hfg hgh => decide_eq_true ((of_decide_eq_true hfg).trans (of_decide_eq_true hgh))
  have htotal : ∀ f g : Fix α, (decide (f.time ≤ g.time) || decide (g.time ≤ f.time)) = true :=
    fun f g => by simpa using le_total f.time g.time
  exact ⟨(List.pairwise_mergeSort htrans htotal fixes).imp of_decide_eq_true,
    fun hkept => List.sublist_mergeSort htrans htotal (hkept.imp decide_eq_true)⟩

/-- Fixes of one time stay in the order they are in. -/
theorem filter_inOrder (fixes : List (Fix α)) (time : Int) :
    (inOrder fixes).filter (·.time = time) = fixes.filter (·.time = time) := by
  have hsame : (fixes.filter (·.time = time)).Pairwise fun f g => f.time ≤ g.time := by
    refine List.pairwise_of_forall_mem_list fun f hf g hg => ?_
    have hf := of_decide_eq_true (List.mem_filter.1 hf).2
    have hg := of_decide_eq_true (List.mem_filter.1 hg).2
    exact (hf.trans hg.symm).le
  have hkept := ((pairwise_inOrder fixes).2 hsame List.filter_sublist).filter (·.time = time)
  simp only [List.filter_filter, Bool.and_self] at hkept
  exact (hkept.eq_of_length ((inOrder_perm fixes).filter _).length_eq.symm).symm

/-- Fixes at different times are in the same order wherever they come from. -/
theorem inOrder_congr (hperm : others.Perm fixes) (hdistinct : (fixes.map (·.time)).Nodup) :
    inOrder others = inOrder fixes := by
  have hsame : (inOrder others).Perm (inOrder fixes) :=
    (inOrder_perm others).trans (hperm.trans (inOrder_perm fixes).symm)
  refine hsame.eq_of_pairwise (fun f g hf hg hfg hgf => ?_) (pairwise_inOrder others).1
    (pairwise_inOrder fixes).1
  have hf := (inOrder_perm fixes).mem_iff.1 (hsame.mem_iff.1 hf)
  have hg := (inOrder_perm fixes).mem_iff.1 hg
  exact List.inj_on_of_nodup_map hdistinct hf hg (hfg.antisymm hgf)

end Order

/-- A log can be read if and only if none of its lines is bad. What is read are the fixes its lines
stand for, in the order of their times, with those of one time in the order of the log. Otherwise
the answer is the number of the first bad line, counted from 1 over all lines. To move the lines of
a log about changes nothing of what is read, when no two of the fixes have the same time. -/
theorem reads_in_order (decode : List Char → Option (Fix α)) (text : List Char) :
    ((∃ fixes, readLog decode text = .ok fixes)
        ↔ ∀ line ∈ linesOf text, isBad decode line = false)
      ∧ (∀ fixes, readLog decode text = .ok fixes →
        fixes.Perm ((linesOf text).filterMap (entryFix? decode))
          ∧ fixes.Pairwise (fun f g => f.time ≤ g.time)
          ∧ (∀ time, fixes.filter (·.time = time)
            = ((linesOf text).filterMap (entryFix? decode)).filter (·.time = time))
          ∧ ((fixes.map (·.time)).Nodup → ∀ text', (linesOf text').Perm (linesOf text) →
            readLog decode text' = .ok fixes))
      ∧ ∀ number, readLog decode text = .error number
        ↔ ∃ before line after, linesOf text = before ++ line :: after
          ∧ (∀ l ∈ before, isBad decode l = false) ∧ isBad decode line = true
          ∧ number = before.length + 1 := by
  rcases readLog_cases decode text with ⟨hgood, hread⟩ | ⟨before, line, after, hlines, hbefore,
    hbad, hread⟩
  · refine ⟨⟨fun _ => hgood, fun _ => ⟨_, hread⟩⟩, fun fixes hfixes => ?_, fun number => ?_⟩
    · obtain rfl := Except.ok.inj (hread.symm.trans hfixes)
      refine ⟨inOrder_perm _, (pairwise_inOrder _).1, filter_inOrder _, ?_⟩
      intro hdistinct text' hperm
      have hgood' : ∀ line ∈ linesOf text', isBad decode line = false :=
        fun line hline => hgood line (hperm.mem_iff.1 hline)
      have hdistinct' := ((inOrder_perm _).map (·.time)).nodup_iff.1 hdistinct
      rw [readLog, readLines_of_good decode 1 hgood']
      exact congrArg Except.ok (inOrder_congr (hperm.filterMap _) hdistinct')
    · rw [hread]
      refine ⟨nofun, ?_⟩
      rintro ⟨before, line, after, hlines, -, hbad, -⟩
      have hline : line ∈ linesOf text := by simp [hlines]
      cases (hgood line hline).symm.trans hbad
  · have hline : line ∈ linesOf text := by simp [hlines]
    rw [hread]
    refine ⟨⟨nofun, fun hgood => ?_⟩, nofun, fun number => ⟨?_, ?_⟩⟩
    · cases (hgood line hline).symm.trans hbad
    · rintro ⟨⟩
      exact ⟨before, line, after, hlines, hbefore, hbad, rfl⟩
    · rintro ⟨before', line', after', hlines', hbefore', hbad', rfl⟩
      -- both lines are the first bad one
      have hread' := readLines_of_bad decode hbad' after' 1 hbefore'
      rw [← hlines'] at hread'
      rw [← hread, readLog, hread', Nat.add_comm]
      rfl

end Fix

namespace Trial

/-- A line is a digit, the time, and a letter to tell the fix by. -/
def shorthand : List Char → Option (Fix Char)
  | [digit, letter] =>
    if digit.isDigit then some ⟨letter, letter, none, none, none, digit.toNat - '0'.toNat⟩ else none
  | _ => none

/-- With a comment, lines of blanks, two fixes of one time, and no end to the last line. -/
def morning : List Char := "\n# morning\x0d\n 2a\x0d\n1b \n\x09\n2c\n#0d\n0e".toList

end Trial

namespace Fix

theorem reads_in_order_morning :
    (∃ fixes, readLog Trial.shorthand Trial.morning = .ok fixes
      ∧ fixes.Pairwise (fun f g => f.time ≤ g.time)
      ∧ (fixes.filter (·.time = 2)).map (·.lat) = ['a', 'c'])
    ∧ readLog Trial.shorthand (Trial.morning ++ "\n\n3\n4f".toList) = .error 10 := by
  obtain ⟨hreads, hordered, -⟩ := reads_in_order Trial.shorthand Trial.morning
  obtain ⟨-, -, hstops⟩ :=
    reads_in_order Trial.shorthand (Trial.morning ++ "\n\n3\n4f".toList)
  obtain ⟨fixes, hfixes⟩ := hreads.2 (by decide +kernel)
  obtain ⟨-, hpairwise, hstable, -⟩ := hordered fixes hfixes
  refine ⟨⟨fixes, hfixes, hpairwise, ?_⟩, (hstops 10).2 ?_⟩
  · rw [hstable]
    decide +kernel
  · exact ⟨linesOf Trial.morning ++ [[]], ['3'], [['4', 'f']], by decide +kernel,
      by decide +kernel, by decide +kernel, by decide +kernel⟩

end Fix

end Roadbook

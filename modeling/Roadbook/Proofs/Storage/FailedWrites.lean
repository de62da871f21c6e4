import Mathlib.Data.String.Basic
import Roadbook.Proofs.Storage.Records

/-!
# What a failed write leaves behind

A key is set in memory before all keys are written. So a write that fails leaves the store as it was
only where the key had that value already (`KeyStore.get?_set_eq_iff`). Sets that fail are undone
throughout a sequence of them if and only if they are all of that kind, and the segments stored for
an area are the same after a batch could not be stored if and only if the batch added none
(`KeyStore.undoes_iff`).
-/

namespace Roadbook

namespace KeyStore

variable {δ : Type} [Medium δ]

/-- Sets that fail leave every key as it was, and in memory are then still the entries that were
written last; at first these are given. -/
def Undoes (written : List (String × String)) (store : KeyStore δ) :
    List (String × String) → Prop
  | [] => True
  | (key, value) :: sets =>
    let later := (store.set key value).2
    ((store.set key value).1 = false →
        (∀ k, later.get? k = store.get? k) ∧ later.entries = written)
      ∧ later.Undoes (if (store.set key value).1 then later.entries else written) sets

/-- Only sets fail that give a key the value it has. -/
def FailsIdly (store : KeyStore δ) : List (String × String) → Prop
  | [] => True
  | (key, value) :: sets =>
    ((store.set key value).1 = false → store.get? key = some value)
      ∧ (store.set key value).2.FailsIdly sets

/-- Whether or not it can be written, a value is there once it is set. -/
theorem get?_set_eq_iff (store : KeyStore δ) (key value : String) :
    (∀ k, (store.set key value).2.get? k = store.get? k) ↔ store.get? key = some value := by
  simp only [get?_set]
  constructor
  · intro h
    rw [← h key, if_pos rfl]
  · intro h k
    split_ifs with hk
    · rw [hk, h]
    · rfl

theorem entries_set_idle (store : KeyStore δ) (key value : String)
    (h : store.get? key = some value) : (store.set key value).2.entries = store.entries := by
  rw [entries_set, assign_self h]

theorem undoes_iff_failsIdly : ∀ (sets : List (String × String)) (store : KeyStore δ),
    store.Undoes store.entries sets ↔ store.FailsIdly sets
  | [], _ => Iff.rfl
  | (key, value) :: sets, store => by
    have hsame := store.get?_set_eq_iff key value
    have hidle := store.entries_set_idle key value
    unfold Undoes FailsIdly
    rcases hset : store.set key value with ⟨_ | _, later⟩ <;> rw [hset] at hsame hidle
    · have hlater : store.get? key = some value →
          (later.Undoes store.entries sets ↔ later.FailsIdly sets) := by
        intro h
        rw [← hidle h]
        exact undoes_iff_failsIdly sets later
      simp only [forall_const, hsame, Bool.false_eq_true, if_false]
      constructor
      · rintro ⟨⟨h, -⟩, hsets⟩
        exact ⟨h, (hlater h).1 hsets⟩
      · rintro ⟨h, hsets⟩
        exact ⟨⟨h, hidle h⟩, (hlater h).2 hsets⟩
    · simp only [reduceCtorEq, false_implies, true_and, if_true]
      exact undoes_iff_failsIdly sets later

/-- Storing a batch adds it to what is read for its area, whether or not that can be written, unless
what is stored for the area cannot be read. -/
theorem driven_persist (store : KeyStore δ) {batch : Batch}
    (hbatch : ∀ id ∈ batch.ids, id < twoTo 64) (area : String) :
    (store.persist batch).2.driven area = if area = batch.area then
        (store.driven area).map fun ids => ids.union (.ofList batch.ids)
      else store.driven area := by
  rcases hdriven : store.driven batch.area with fault | ids
  · have hsame : store.persist batch = (false, store) := by simp only [persist, hdriven]
    rw [hsame]
    split_ifs with harea
    · rw [harea, hdriven]
      rfl
    · rfl
  · have hlt : ∀ id ∈ ids.union (.ofList batch.ids), id < twoTo 64 := by
      intro id hid
      rcases IdSet.mem_union.1 hid with hid | hid
      · exact driven_lt hdriven id hid
      · exact hbatch id (IdSet.mem_ofList.1 hid)
    rw [persist_eq hdriven]
    split_ifs with harea
    · rw [harea, driven_setIds hlt, hdriven]
      rfl
    · exact driven_congr (by rw [setIds, get?_set, if_neg (areaKey_injective.ne harea)])

theorem driven_persist_eq_iff (store : KeyStore δ) {batch : Batch}
    (hbatch : ∀ id ∈ batch.ids, id < twoTo 64) :
    (∀ area, (store.persist batch).2.driven area = store.driven area)
      ↔ ∀ ids, store.driven batch.area = .ok ids → ∀ id ∈ batch.ids, id ∈ ids := by
  simp only [store.driven_persist hbatch]
  constructor
  · intro h ids hids id hid
    have hsame := h batch.area
    rw [if_pos rfl, hids] at hsame
    rw [← Except.ok.inj hsame]
    exact IdSet.mem_union.2 (.inr (IdSet.mem_ofList.2 hid))
  · intro h area
    split_ifs with harea
    · rcases hdriven : store.driven area with fault | ids
      · rfl
      · refine congrArg Except.ok (IdSet.ext fun id => ?_)
        rw [IdSet.mem_union, IdSet.mem_ofList]
        exact or_iff_left_of_imp (h ids (harea ▸ hdriven) id)
    · rfl

/-- In any sequence of sets the failed ones are undone if and only if each of them gave its key the
value it had. When a batch could not be stored, what is read for the areas is the same as before if
and only if nothing can be read for its area, or all of the batch is there already. -/
theorem undoes_iff (store : KeyStore δ) :
    (∀ sets, store.Undoes store.entries sets ↔ store.FailsIdly sets)
      ∧ ∀ batch, (∀ id ∈ batch.ids, id < twoTo 64) → (store.persist batch).1 = false →
        ((∀ area, (store.persist batch).2.driven area = store.driven area)
          ↔ ∀ ids, store.driven batch.area = .ok ids → ∀ id ∈ batch.ids, id ∈ ids) :=
  ⟨fun sets => undoes_iff_failsIdly sets store,
    fun _ hbatch _ => store.driven_persist_eq_iff hbatch⟩

end KeyStore

theorem splitAt_of_not_mem {separator : Char} : ∀ {cs : List Char}, separator ∉ cs →
    splitAt separator cs = [cs]
  | [], _ => rfl
  | c :: cs, h => by
    rw [List.mem_cons, not_or] at h
    rw [splitAt, if_neg (Ne.symm h.1), splitAt_of_not_mem h.2]

/-- A name that has more bytes than a name may have. -/
structure IsOverlong (name : String) : Prop where
  plain : '/' ∉ name.toList ∧ '\x00' ∉ name.toList
  size : Disk.longestName < name.utf8ByteSize ∧ name.utf8ByteSize ≤ Disk.longestPath

namespace IsOverlong

variable {name : String} (h : IsOverlong name)
include h

theorem ne {short : String} (hshort : short.utf8ByteSize ≤ Disk.longestName) : name ≠ short := by
  rintro rfl
  exact absurd h.size.1 (by omega)

theorem stays_eq_false : stays name = false := by
  have hempty : name ≠ "" := h.ne (by decide)
  have hdot : name ≠ "." := h.ne (by decide)
  simp [stays, hempty, hdot]

theorem pathNames_eq : pathNames name = [name] := by
  rw [pathNames, splitAt_of_not_mem h.plain.1, List.map_singleton, String.ofList_toList]

theorem find_eq (disk : Disk) : disk.find name = .error .nameTooLong := by
  have hne : name ≠ "" := h.ne (by decide)
  have hempty : name.isEmpty = false := by simpa using hne
  have hfits : ¬Disk.longestPath < name.utf8ByteSize := Nat.not_lt.2 h.size.2
  have hup : name ≠ ".." := h.ne (by decide)
  simp [Disk.find, h.plain.2, hempty, hfits, h.pathNames_eq, Disk.walk, h.stays_eq_false, hup,
    h.size.1]

theorem makeParents_eq (disk : Disk) : disk.makeParents name = .ok disk := by
  have hparent : parentPath name = "" := by
    simp [parentPath, h.pathNames_eq, h.stays_eq_false]
  have hnames : pathNames "" = [""] := by decide
  rw [Disk.makeParents, hparent, hnames]
  rfl

end IsOverlong

namespace Trial

/-- A name of that many letters. -/
def longName (n : Nat) : String := .ofList (.replicate n 'k')

theorem size_longName (n : Nat) : (longName n).utf8ByteSize = n := by
  rw [longName, String.utf8ByteSize_ofList]
  induction n with
  | zero => rfl
  | succ n ih =>
    rw [List.replicate_succ, String.utf8Len_cons, ih]
    rfl

theorem isOverlong_longName : IsOverlong (longName 256) where
  plain := by simp only [longName, String.toList_ofList, List.mem_replicate]; decide
  size := by
    rw [size_longName]
    decide

end Trial

namespace KeyStore

/-- A store in a file that has too long a name: it can be opened, and every set fails. -/
def unwritable (entries : List (String × String)) (name : String) : KeyStore DiskFile :=
  ⟨entries, .empty, name⟩

section Unwritable

variable {name : String} (h : IsOverlong name) (entries : List (String × String))
include h

theorem openFile_of_overlong : openFile .empty name = .ok (unwritable [] name) := by
  simp only [openFile, h.makeParents_eq, Disk.has, h.find_eq, Bool.not_false, if_true, unwritable]

theorem set_unwritable (key value : String) : (unwritable entries name).set key value
    = (false, unwritable (assign key value entries) name) := by
  have hwrite : ∀ text, Medium.write (unwritable entries name).medium text = none := by
    intro text
    rw [write_eq, unwritable, Disk.write, h.find_eq]
    rfl
  rw [set, hwrite]
  rfl

theorem exists_persist_unwritable (batch : Batch) :
    ∃ later, (unwritable entries name).persist batch = (false, unwritable later name) := by
  unfold persist setIds
  split
  · exact ⟨_, set_unwritable h _ _ _⟩
  · exact ⟨entries, rfl⟩

end Unwritable

/-- A key set once more, and a batch stored once more, are there already when that fails. -/
theorem undoes_iff_again : ∃ store, openFile .empty (Trial.longName 256) = .ok store
    ∧ (store.set "a" "1").2.Undoes (store.set "a" "1").2.entries [("a", "1")]
    ∧ ¬ store.Undoes store.entries [("a", "1")]
    ∧ ∀ area, ((store.persist ⟨"north", [1]⟩).2.persist ⟨"north", [1]⟩).2.driven area
        = (store.persist ⟨"north", [1]⟩).2.driven area := by
  have hlong := Trial.isOverlong_longName
  generalize Trial.longName 256 = name at hlong
  set store := unwritable [] name with hstore
  have hfails : (store.set "a" "1").1 = false := by rw [hstore, set_unwritable hlong]
  have hset : (store.set "a" "1").2.get? "a" = some "1" := by rw [get?_set, if_pos rfl]
  have hdriven : (store.persist ⟨"north", [1]⟩).2.driven "north" = .ok (.ofList [1]) := by
    rw [store.driven_persist (by decide), if_pos rfl]
    rfl
  have hpersist : ((store.persist ⟨"north", [1]⟩).2.persist ⟨"north", [1]⟩).1 = false := by
    obtain ⟨entries, hfirst⟩ := exists_persist_unwritable hlong [] ⟨"north", [1]⟩
    obtain ⟨later, hsecond⟩ := exists_persist_unwritable hlong entries ⟨"north", [1]⟩
    rw [hstore, hfirst, hsecond]
  refine ⟨store, openFile_of_overlong hlong, ?_, fun hundoes => ?_, ?_⟩
  · exact ((undoes_iff (store.set "a" "1").2).1 [("a", "1")]).2 ⟨fun _ => hset, trivial⟩
  · have hidle := ((undoes_iff store).1 [("a", "1")]).1 hundoes
    cases hidle.1 hfails
  · refine ((undoes_iff (store.persist ⟨"north", [1]⟩).2).2 _ (by decide) hpersist).2 ?_
    intro ids hids id hid
    rw [hdriven] at hids
    cases hids
    exact IdSet.mem_ofList.2 hid

/-- What could not be written is read all the same, and so is a batch that could not be stored. -/
theorem failed_set_kept : ∃ store, openFile .empty (Trial.longName 256) = .ok store
    ∧ (store.set "a" "1").1 = false ∧ store.get? "a" = none
    ∧ (store.set "a" "1").2.get? "a" = some "1"
    ∧ ¬ store.Undoes store.entries [("a", "1")]
    ∧ (store.persist ⟨"north", [1]⟩).1 = false ∧ store.driven "north" = .ok ∅
    ∧ (store.persist ⟨"north", [1]⟩).2.driven "north" = .ok (.ofList [1]) := by
  have hlong := Trial.isOverlong_longName
  generalize Trial.longName 256 = name at hlong
  set store := unwritable [] name with hstore
  have hfails : (store.set "a" "1").1 = false := by rw [hstore, set_unwritable hlong]
  have hset : (store.set "a" "1").2.get? "a" = some "1" := by rw [get?_set, if_pos rfl]
  have hdriven : (store.persist ⟨"north", [1]⟩).2.driven "north" = .ok (.ofList [1]) := by
    rw [store.driven_persist (by decide), if_pos rfl]
    rfl
  have hpersist : (store.persist ⟨"north", [1]⟩).1 = false := by
    obtain ⟨later, hlater⟩ := exists_persist_unwritable hlong [] ⟨"north", [1]⟩
    rw [hstore, hlater]
  refine ⟨store, openFile_of_overlong hlong, hfails, rfl, hset, fun hundoes => ?_,
    hpersist, rfl, hdriven⟩
  cases hset.symm.trans ((hundoes.1 hfails).1 "a")

end KeyStore

end Roadbook

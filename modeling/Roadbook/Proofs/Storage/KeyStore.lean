import Mathlib.Data.List.TakeWhile
import Roadbook.Proofs.Storage.Disk
import Roadbook.Proofs.Text.Json
import Roadbook.Storage.Records

/-!
# What a key store keeps

Setting a key changes the value of that key and no other (`KeyStore.get?_set`). A store that is
filed (`KeyStore.IsFiled`) is what one gets by opening its file, and it stays so when a key is set.
Setting a key to the value that it has changes nothing (`KeyStore.IsSettled.set_again`).
-/

namespace Roadbook

section Entries

variable {key value : String} {entries : List (String × String)}

theorem find?_assign (key value k : String) : ∀ entries : List (String × String),
    ((assign key value entries).find? fun e => e.1 = k)
      = if k = key then some (key, value) else entries.find? fun e => e.1 = k
  | [] => by
    by_cases hk : k = key
    · simp [assign, hk]
    · simp [assign, hk, Ne.symm hk]
  | entry :: entries => by
    have ih := find?_assign key value k entries
    unfold assign
    split_ifs with hkey hk hk
    · simp [hk]
    · rw [List.find?_cons_of_neg (by simpa using Ne.symm hk),
        List.find?_cons_of_neg (by simpa [hkey] using Ne.symm hk)]
    · rw [List.find?_cons_of_neg (by simpa [hk] using hkey), ih, if_pos hk]
    · rw [List.find?_cons, List.find?_cons, ih, if_neg hk]

theorem keys_assign (key value : String) : ∀ entries : List (String × String),
    (assign key value entries).map (·.1)
      = if key ∈ entries.map (·.1) then entries.map (·.1) else entries.map (·.1) ++ [key]
  | [] => rfl
  | entry :: entries => by
    have ih := keys_assign key value entries
    unfold assign
    by_cases hkey : entry.1 = key
    · simp [hkey]
    · simp only [if_neg hkey, List.map_cons, ih, List.mem_cons, Ne.symm hkey, false_or]
      split_ifs <;> rfl

theorem nodup_keys_assign (h : (entries.map (·.1)).Nodup) :
    ((assign key value entries).map (·.1)).Nodup := by
  rw [keys_assign]
  split_ifs with hkey
  · exact h
  · refine List.nodup_append.2 ⟨h, by simp, fun k hk other hother heq => hkey ?_⟩
    rwa [← List.mem_singleton.1 hother, ← heq]

theorem assign_of_not_mem : ∀ {entries : List (String × String)}, key ∉ entries.map (·.1) →
    assign key value entries = entries ++ [(key, value)]
  | [], _ => rfl
  | entry :: entries, h => by
    rw [List.map_cons, List.mem_cons, not_or] at h
    rw [assign, if_neg (Ne.symm h.1), assign_of_not_mem h.2, List.cons_append]

theorem assign_self : ∀ {entries : List (String × String)},
    (entries.find? fun e => e.1 = key).map (·.2) = some value → assign key value entries = entries
  | [], h => by cases h
  | entry :: entries, h => by
    unfold assign
    by_cases hkey : entry.1 = key
    · rw [List.find?_cons_of_pos (by simpa using hkey)] at h
      rw [if_pos hkey, ← hkey, ← Option.some.inj h]
    · rw [List.find?_cons_of_neg (by simpa using hkey)] at h
      rw [if_neg hkey, assign_self h]

theorem nodup_keys_foldl : ∀ (members : List (String × String)) {entries : List (String × String)},
    (entries.map (·.1)).Nodup →
      ((members.foldl (fun entries e => assign e.1 e.2 entries) entries).map (·.1)).Nodup
  | [], _, h => h
  | _ :: members, _, h => nodup_keys_foldl members (nodup_keys_assign h)

theorem foldl_assign : ∀ (members entries : List (String × String)),
    ((entries ++ members).map (·.1)).Nodup →
      members.foldl (fun entries e => assign e.1 e.2 entries) entries = entries ++ members
  | [], entries, _ => (List.append_nil entries).symm
  | e :: members, entries, h => by
    have hsplit : (entries ++ [e]) ++ members = entries ++ e :: members := by simp
    have hnew : e.1 ∉ entries.map (·.1) := by
      rw [List.map_append, List.nodup_append] at h
      exact fun hmem => h.2.2 _ hmem _ List.mem_cons_self rfl
    rw [List.foldl_cons, assign_of_not_mem hnew, foldl_assign members _ (hsplit ▸ h), hsplit]

end Entries

namespace KeyStore

/-- The entries of a text that was written are those it was written for. -/
theorem entriesOf?_spread {entries : List (String × String)} (h : (entries.map (·.1)).Nodup) :
    entriesOf? (Json.spread entries) = some entries := by
  unfold entriesOf?
  rw [Json.decode_spread]
  exact congrArg some (foldl_assign entries [] h)

theorem nodup_keys_entriesOf? {text : String} {entries : List (String × String)}
    (h : entriesOf? text = some entries) : (entries.map (·.1)).Nodup := by
  unfold entriesOf? at h
  split at h
  · cases h
    exact nodup_keys_foldl _ .nil
  · cases h

section Get

variable {δ : Type} [Medium δ]

theorem entries_set (store : KeyStore δ) (key value : String) :
    (store.set key value).2.entries = assign key value store.entries := by
  unfold set
  dsimp only
  split <;> rfl

theorem get?_set (store : KeyStore δ) (key value k : String) :
    (store.set key value).2.get? k = if k = key then some value else store.get? k := by
  unfold get?
  rw [entries_set, find?_assign]
  split_ifs <;> rfl

end Get

section File

variable {disk disk' : Disk} {path : String} {store : KeyStore DiskFile}

theorem isEmpty_trimmed {cs : List Char} {c : Char} (hc : c ∈ cs) (hblank : isBlank c = false) :
    (trimmed cs).isEmpty = false := by
  have hkept : c ∈ cs.dropWhile isBlank := by
    rw [← List.takeWhile_append_dropWhile (p := isBlank) (l := cs), List.mem_append] at hc
    refine hc.resolve_left fun htaken => ?_
    cases hblank.symm.trans (List.mem_takeWhile_imp htaken)
  have hne : (cs.dropWhile isBlank).reverse.dropWhile isBlank ≠ [] := by
    intro hnil
    have hall := List.dropWhile_eq_nil_iff.1 hnil c (List.mem_reverse.2 hkept)
    cases hblank.symm.trans hall
  simpa [trimmed] using hne

theorem isEmpty_trimmed_spread (entries : List (String × String)) :
    (trimmed (Json.spread entries).toList).isEmpty = false := by
  have hbrace : '\x7b' ∈ (Json.spread entries).toList := by
    rcases entries with _ | ⟨e, es⟩
    · have hempty : (Json.spread []).toList = ['\x7b', '\x7d'] := String.toList_ofList
      rw [hempty]
      exact List.mem_cons_self
    · rw [Json.toList_spread]
      exact List.mem_cons_self
  exact isEmpty_trimmed hbrace rfl

/-- Opening a file makes the folders on the way to it, and nothing else. -/
theorem openFile_eq_ok (h : openFile disk path = .ok store) :
    disk.makeParents path = .ok store.medium.disk ∧ store.medium.path = path
      ∧ (store.entries.map (·.1)).Nodup := by
  unfold openFile at h
  split at h
  · cases h
  · rename_i made hmade
    split_ifs at h
    · cases h
      exact ⟨hmade, rfl, .nil⟩
    · split at h
      · cases h
      · split_ifs at h
        · cases h
          exact ⟨hmade, rfl, .nil⟩
        · split at h
          · rename_i entries hentries
            cases h
            exact ⟨hmade, rfl, nodup_keys_entriesOf? hentries⟩
          · cases h

theorem openFile_again (h : openFile disk path = .ok store) :
    openFile store.medium.disk path = .ok store := by
  obtain ⟨hmade, -⟩ := openFile_eq_ok h
  have hagain := Disk.makeParents_of_keeps hmade (.refl _)
  rw [← h]
  unfold openFile
  rw [hmade, hagain]

/-- What was written to a file is what one gets by opening it. -/
theorem openFile_written {entries : List (String × String)}
    (hmade : disk.makeParents path = .ok disk) (hnodup : (entries.map (·.1)).Nodup)
    (hwrite : disk.write path (Json.spread entries) = .ok disk') :
    openFile disk' path = .ok ⟨entries, disk', path⟩ := by
  have hparents := Disk.makeParents_of_keeps hmade (Disk.keeps_write hwrite)
  unfold openFile
  simp only [hparents, Disk.has_write hwrite, Disk.read_write hwrite, isEmpty_trimmed_spread,
    entriesOf?_spread hnodup, Bool.not_true, Bool.false_eq_true, if_false]

/-- The store is what is in its file, which can be written. -/
structure IsFiled (store : KeyStore DiskFile) (path : String) : Prop where
  opened : openFile store.medium.disk path = .ok store
  writable : ∀ text, ∃ later, store.medium.disk.write path text = .ok later

theorem write_eq (file : DiskFile) (text : String) : Medium.write file text =
    (file.disk.write file.path text).toOption.map fun disk => ⟨disk, file.path⟩ := rfl

theorem isFiled_of_write (h : openFile disk path = .ok store) {text : String}
    (hwrite : (Medium.write store.medium text).isSome) : store.IsFiled path := by
  obtain ⟨-, hpath, -⟩ := openFile_eq_ok h
  rw [write_eq, hpath] at hwrite
  rcases hwritten : store.medium.disk.write path text with fault | written
  · rw [hwritten] at hwrite
    cases hwrite
  · exact ⟨openFile_again h, Disk.exists_write hwritten⟩

theorem isFiled_openFile (h : openFile disk path = .ok store)
    (hwritable : ∀ text, (Medium.write store.medium text).isSome) : store.IsFiled path :=
  isFiled_of_write h (hwritable "")

theorem IsFiled.set_eq (h : store.IsFiled path) (key value : String) : ∃ later,
    store.medium.disk.write path (Json.spread (assign key value store.entries)) = .ok later
      ∧ store.set key value = (true, ⟨assign key value store.entries, later, path⟩) := by
  obtain ⟨-, hpath, -⟩ := openFile_eq_ok h.opened
  obtain ⟨later, hwrite⟩ := h.writable (Json.spread (assign key value store.entries))
  have hmedium : Medium.write store.medium (Json.spread (assign key value store.entries))
      = some ⟨later, path⟩ := by
    rw [write_eq, hpath, hwrite]
    rfl
  exact ⟨later, hwrite, by simp only [KeyStore.set, hmedium]⟩

/-- Setting a key of a store that is filed succeeds and leaves it filed. -/
theorem IsFiled.set (h : store.IsFiled path) (key value : String) :
    (store.set key value).1 = true ∧ (store.set key value).2.IsFiled path := by
  obtain ⟨hmade, -, hnodup⟩ := openFile_eq_ok h.opened
  obtain ⟨later, hwrite, hset⟩ := h.set_eq key value
  rw [hset]
  exact ⟨rfl, openFile_written (Disk.makeParents_of_keeps hmade (.refl _))
    (nodup_keys_assign hnodup) hwrite, Disk.exists_write (Disk.write_again hwrite)⟩

/-- What is in memory is in the file, so that writing it again changes nothing. -/
def IsSettled (store : KeyStore DiskFile) : Prop :=
  Medium.write store.medium (Json.spread store.entries) = some store.medium

theorem IsFiled.settled_set (h : store.IsFiled path) (key value : String) :
    (store.set key value).2.IsSettled := by
  obtain ⟨later, hwrite, hset⟩ := h.set_eq key value
  rw [hset, IsSettled, write_eq, Disk.write_again hwrite]
  rfl

theorem IsSettled.set_again (h : store.IsSettled) {key value : String}
    (hvalue : store.get? key = some value) : store.set key value = (true, store) := by
  unfold KeyStore.set
  rw [assign_self hvalue]
  dsimp only
  rw [h]

end File

end KeyStore

end Roadbook

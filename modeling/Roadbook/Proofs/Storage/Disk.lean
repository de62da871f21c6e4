import Mathlib.Tactic.Common
import Roadbook.Storage.Disk

/-!
# What a disk keeps

A file that is written is read back (`Disk.read_write`). Neither writing a file nor making folders
takes a folder away (`Disk.Keeps`), so every path that led through folders still does, and folders
that were made need not be made again (`Disk.makeParents_of_keeps`). Making folders changes no file
(`Disk.sameFiles_makeParents`).
-/

namespace Roadbook.Disk

variable {disk disk' later : Disk} {folder place : Place} {names : List String} {path text : String}

theorem entry?_put (disk : Disk) (place : Place) (entry : Entry) {p : Place} (hp : p ≠ []) :
    entry? (disk.put place entry) p = if p = place then some entry else disk.entry? p := by
  unfold entry? put
  rw [if_neg hp, if_neg hp]
  split_ifs with h
  · simp [h]
  · rw [List.find?_cons_of_neg (by simpa using Ne.symm h), List.find?_filter]
    congr 2
    funext e
    by_cases he : e.1 = p <;> simp [he, h]

/-- Folders stay folders. -/
def Keeps (disk later : Disk) : Prop :=
  ∀ place, disk.entry? place = some .folder → later.entry? place = some .folder

theorem Keeps.refl (disk : Disk) : disk.Keeps disk := fun _ => id

theorem Keeps.trans (h : disk.Keeps disk') (h' : disk'.Keeps later) : disk.Keeps later :=
  fun place hplace => h' place (h place hplace)

/-- What is put where no folder is takes none away. -/
theorem keeps_put (h : disk.entry? place ≠ some .folder) (entry : Entry) :
    disk.Keeps (disk.put place entry) := by
  intro p hfolder
  by_cases hp : p = []
  · subst hp
    rfl
  · rw [entry?_put disk place entry hp, if_neg]
    · exact hfolder
    · rintro rfl
      exact h hfolder

/-- What is at a place. -/
def target (disk : Disk) (place : Place) : Target :=
  match disk.entry? place with
  | some .folder => .folder place
  | some (.file text) => .file place text
  | none => .vacant place

/-- A name leads on, or it is the last one and leads to no folder, or there is no way. The first two
depend on the folders alone. -/
theorem walk_cons_cases (disk : Disk) (folder : Place) (name : String) (names : List String) :
    (∃ next, ∀ {later : Disk}, disk.Keeps later →
        later.walk folder (name :: names) = later.walk next names)
      ∨ (names = [] ∧ disk.entry? (folder ++ [name]) ≠ some .folder
        ∧ ∀ later : Disk, later.walk folder [name] = .ok (later.target (folder ++ [name])))
      ∨ ∃ fault, disk.walk folder (name :: names) = .error fault := by
  by_cases hstays : stays name = true
  · exact .inl ⟨folder, fun _ => by rw [walk, if_pos hstays]⟩
  by_cases hup : name = ".."
  · exact .inl ⟨folder.dropLast, fun _ => by rw [walk, if_neg hstays, if_pos hup]⟩
  by_cases hlong : longestName < name.utf8ByteSize
  · exact .inr (.inr ⟨_, by rw [walk, if_neg hstays, if_neg hup, if_pos hlong]⟩)
  by_cases hfolder : disk.entry? (folder ++ [name]) = some .folder
  · refine .inl ⟨folder ++ [name], fun hkeeps => ?_⟩
    simp only [walk, if_neg hstays, if_neg hup, if_neg hlong, hkeeps _ hfolder]
  rcases names with _ | ⟨next, names⟩
  · refine .inr (.inl ⟨rfl, hfolder, fun later => ?_⟩)
    rw [walk, if_neg hstays, if_neg hup, if_neg hlong, target]
    dsimp only
    rcases later.entry? (folder ++ [name]) with _ | text | _ <;> rfl
  · -- there are names left, so what is no folder is in the way
    refine .inr (.inr ?_)
    rw [walk, if_neg hstays, if_neg hup, if_neg hlong]
    dsimp only
    rcases hentry : disk.entry? (folder ++ [name]) with _ | text | _
    · exact ⟨_, rfl⟩
    · exact ⟨_, rfl⟩
    · exact absurd hentry hfolder

theorem Keeps.walk_folder (h : disk.Keeps later) : ∀ {names : List String} {folder : Place},
    disk.walk folder names = .ok (.folder place) → later.walk folder names = .ok (.folder place)
  | [], _, hwalk => hwalk
  | name :: names, folder, hwalk => by
    rcases disk.walk_cons_cases folder name names with
      ⟨next, hnext⟩ | ⟨rfl, hfolder, hlast⟩ | ⟨fault, hfault⟩
    · rw [hnext (.refl disk)] at hwalk
      rw [hnext h]
      exact h.walk_folder hwalk
    · rw [hlast, target] at hwalk
      split at hwalk
      · rename_i hentry
        exact absurd hentry hfolder
      · cases hwalk
      · cases hwalk
    · cases hfault.symm.trans hwalk

/-- Names lead through folders to a place where no folder is. -/
structure Leads (disk : Disk) (folder : Place) (names : List String) (place : Place) : Prop where
  ne_root : place ≠ []
  not_folder : disk.entry? place ≠ some .folder
  walk : ∀ {later : Disk}, disk.Keeps later → later.walk folder names = .ok (later.target place)

theorem leads_walk : ∀ {names : List String} {folder : Place},
    (disk.walk folder names = .ok (.vacant place)
      ∨ ∃ text, disk.walk folder names = .ok (.file place text)) → disk.Leads folder names place
  | [], folder, hwalk => by simp [Disk.walk] at hwalk
  | name :: names, folder, hwalk => by
    rcases disk.walk_cons_cases folder name names with
      ⟨next, hnext⟩ | ⟨rfl, hfolder, hlast⟩ | ⟨fault, hfault⟩
    · rw [hnext (.refl disk)] at hwalk
      obtain ⟨hroot, hfolder, hleads⟩ := leads_walk hwalk
      exact ⟨hroot, hfolder, fun h => by rw [hnext h, hleads h]⟩
    · obtain rfl : folder ++ [name] = place := by
        rw [hlast, target] at hwalk
        split at hwalk
        · rename_i hentry
          exact absurd hentry hfolder
        · simpa using hwalk
        · simpa using hwalk
      exact ⟨by simp, hfolder, fun _ => hlast _⟩
    · simp [hfault] at hwalk

theorem keeps_makeFolders : ∀ {names : List String} {disk : Disk} {folder : Place},
    disk.makeFolders folder names = .ok disk' → disk.Keeps disk'
  | [], _, _, h => by
    cases h
    exact .refl _
  | name :: names, disk, folder, h => by
    unfold makeFolders at h
    split_ifs at h
    rcases hwalk : disk.walk folder [name] with fault | ⟨place, text⟩ | place | place <;>
      rw [hwalk] at h
    · cases h
    · cases h
    · exact keeps_makeFolders h
    · exact (keeps_put (leads_walk (.inl hwalk)).not_folder .folder).trans (keeps_makeFolders h)

/-- Folders that were made need not be made again. -/
theorem makeFolders_of_keeps : ∀ {names : List String} {disk : Disk} {folder : Place},
    disk.makeFolders folder names = .ok disk' → disk'.Keeps later →
      later.makeFolders folder names = .ok later
  | [], _, _, _, _ => rfl
  | name :: names, disk, folder, h, hkeeps => by
    unfold makeFolders at h ⊢
    split_ifs at h ⊢
    rcases hwalk : disk.walk folder [name] with fault | ⟨place, text⟩ | place | place <;>
      rw [hwalk] at h
    · cases h
    · cases h
    · rw [((keeps_makeFolders h).trans hkeeps).walk_folder hwalk]
      exact makeFolders_of_keeps h hkeeps
    · have hleads := leads_walk (.inl hwalk)
      have hput := (keeps_makeFolders h).trans hkeeps
      have hmade : later.entry? place = some .folder := by
        refine hput place ?_
        rw [entry?_put _ _ _ hleads.ne_root, if_pos rfl]
      have hthere : later.target place = .folder place := by simp only [target, hmade]
      rw [hleads.walk ((keeps_put hleads.not_folder .folder).trans hput), hthere]
      exact makeFolders_of_keeps h hkeeps

theorem makeParents_of_keeps (h : disk.makeParents path = .ok disk') (hkeeps : disk'.Keeps later) :
    later.makeParents path = .ok later := by
  unfold makeParents at h ⊢
  dsimp only at h ⊢
  split_ifs at h ⊢
  exact makeFolders_of_keeps h hkeeps

/-- The same files with the same texts. -/
def SameFiles (disk later : Disk) : Prop :=
  ∀ place text, later.entry? place = some (.file text) ↔ disk.entry? place = some (.file text)

theorem SameFiles.refl (disk : Disk) : disk.SameFiles disk := fun _ _ => Iff.rfl

theorem SameFiles.trans (h : disk.SameFiles disk') (h' : disk'.SameFiles later) :
    disk.SameFiles later :=
  fun place text => (h' place text).trans (h place text)

theorem entry?_of_vacant (h : disk.walk folder names = .ok (.vacant place)) :
    disk.entry? place = none := by
  have htarget := ((leads_walk (.inl h)).walk (.refl disk)).symm.trans h
  unfold target at htarget
  split at htarget
  · cases htarget
  · cases htarget
  · assumption

theorem sameFiles_put (h : disk.entry? place = none) :
    disk.SameFiles (disk.put place .folder) := by
  intro p text
  by_cases hp : p = []
  · rw [hp]
    exact Iff.rfl
  · rw [entry?_put disk place .folder hp]
    split_ifs with heq
    · simp [heq, h]
    · exact Iff.rfl

/-- Making folders changes no file. -/
theorem sameFiles_makeFolders : ∀ {names : List String} {disk : Disk} {folder : Place},
    disk.makeFolders folder names = .ok disk' → disk.SameFiles disk'
  | [], _, _, h => by
    cases h
    exact .refl _
  | name :: names, disk, folder, h => by
    unfold makeFolders at h
    split_ifs at h
    rcases hwalk : disk.walk folder [name] with fault | ⟨place, text⟩ | place | place <;>
      rw [hwalk] at h
    · cases h
    · cases h
    · exact sameFiles_makeFolders h
    · have hput : disk.SameFiles (disk.put place .folder) :=
        sameFiles_put (entry?_of_vacant hwalk)
      exact hput.trans (sameFiles_makeFolders h)

theorem sameFiles_makeParents (h : disk.makeParents path = .ok disk') : disk.SameFiles disk' := by
  unfold makeParents at h
  dsimp only at h
  split_ifs at h
  exact sameFiles_makeFolders h

theorem find_eq_walk {target : Target} (h : disk.find path = .ok target) (later : Disk) :
    later.find path = later.walk [] (pathNames path) := by
  unfold find at h ⊢
  split_ifs at h ⊢
  rfl

/-- A file is written where a path leads through folders to no folder. -/
theorem exists_leads (h : disk.write path text = .ok disk') :
    ∃ place, disk' = disk.put place (.file text) ∧ disk.Leads [] (pathNames path) place
      ∧ ∀ later : Disk, later.find path = later.walk [] (pathNames path) := by
  unfold write at h
  split at h
  · rename_i place text heq
    have hwalk := find_eq_walk heq
    exact ⟨place, (Except.ok.inj h).symm, leads_walk (.inr ⟨text, hwalk disk ▸ heq⟩), hwalk⟩
  · rename_i place heq
    have hwalk := find_eq_walk heq
    exact ⟨place, (Except.ok.inj h).symm, leads_walk (.inl (hwalk disk ▸ heq)), hwalk⟩
  · cases h
  · cases h

theorem keeps_write (h : disk.write path text = .ok disk') : disk.Keeps disk' := by
  obtain ⟨place, rfl, hleads, -⟩ := exists_leads h
  exact keeps_put hleads.not_folder _

theorem put_put (disk : Disk) (place : Place) (entry later : Entry) :
    (disk.put place entry).put place later = disk.put place later := by
  simp [put, List.filter_filter]

theorem find_write (h : disk.write path text = .ok disk') :
    ∃ place, disk' = disk.put place (.file text) ∧ disk'.find path = .ok (.file place text) := by
  have hkeeps := keeps_write h
  obtain ⟨place, rfl, hleads, hfind⟩ := exists_leads h
  refine ⟨place, rfl, ?_⟩
  rw [hfind, hleads.walk hkeeps, target, entry?_put _ _ _ hleads.ne_root, if_pos rfl]

theorem read_write (h : disk.write path text = .ok disk') : disk'.read path = .ok text := by
  obtain ⟨place, -, hfind⟩ := find_write h
  simp only [read, hfind]

theorem has_write (h : disk.write path text = .ok disk') : disk'.has path = true := by
  obtain ⟨place, -, hfind⟩ := find_write h
  simp only [has, hfind]

/-- Writing the same text again changes nothing. -/
theorem write_again (h : disk.write path text = .ok disk') : disk'.write path text = .ok disk' := by
  obtain ⟨place, rfl, hfind⟩ := find_write h
  simp only [write, hfind, put_put]

/-- Where one text can be written, any other can. -/
theorem exists_write (h : disk.write path text = .ok disk') (other : String) :
    ∃ later, disk.write path other = .ok later := by
  unfold write at h ⊢
  split at h
  · exact ⟨_, rfl⟩
  · exact ⟨_, rfl⟩
  · cases h
  · cases h

end Roadbook.Disk

import Roadbook.CommandLine.Run
import Roadbook.Proofs.Guidance.Run
import Roadbook.Proofs.Replay.Stored
import Roadbook.Proofs.Storage.Files
import Roadbook.Proofs.Storage.Records

/-!
# What a run stores

A run that comes to an orderly end and whose storage can be written has stored what was driven
according to what it has shown, besides what was stored before, and nothing else has changed in the
storage but the area that was loaded last (`Run.storage_after`).
-/

namespace Roadbook.Run

open KeyStore Effect

variable {α : Type}

section Host

variable {path area : String} {before : KeyStore DiskFile} {P S : IdSet}

theorem segmentsDriven_foldl : ∀ (effects : List (Effect α)) (s : Stats α),
    (effects.foldl Stats.add s).segmentsDriven
      = s.segmentsDriven + (effects.flatMap drivenIds).length
  | [], _ => rfl
  | e :: effects, s => by
    have ih := segmentsDriven_foldl effects (s.add e)
    have he : (s.add e).segmentsDriven = s.segmentsDriven + e.drivenIds.length := by
      cases e <;> rfl
    rw [List.foldl_cons, ih, he, List.flatMap_cons, List.length_append, Nat.add_assoc]

variable [Scalar α]

/-- The storage of a host is in its file and differs from an earlier one in no more than the area
that was loaded last and the segments of one area. The figures are those of what was shown. -/
structure Holds (path area : String) (before : KeyStore DiskFile)
    (h : Host DiskFile α × List (Effect α)) (S : IdSet) : Prop where
  filed : h.1.store.IsFiled path
  driven : h.1.store.driven area = .ok S
  same : ∀ key, key ≠ lastAreaKey → key ≠ areaKey area → h.1.store.get? key = before.get? key
  stats : h.1.stats = h.2.foldl Stats.add .none

/-- The storage of a run, for an area of which some segments are stored. -/
def shelf (path area : String) (before : KeyStore DiskFile) (P : IdSet) :
    Shelf (Host DiskFile α × List (Effect α)) where
  area := area
  before := P
  IsNew id := id ∉ P ∧ id < twoTo 64
  Holds := Holds path area before

theorem fills (schedule : Schedule α) (options : Options α) (config : Config α) (path area : String)
    (before : KeyStore DiskFile) (P : IdSet) :
    (rig (δ := DiskFile) schedule options config).logged.Fills (shelf path area before P) where
  persist := by
    rintro h S batch hholds rfl hnew
    obtain ⟨hok, hfiled, hdriven, hsame⟩ :=
      hholds.filed.persist hholds.driven fun id hid => (hnew id hid).2
    refine ⟨hok, hfiled, hdriven, fun key hlast hkey => ?_, hholds.stats⟩
    exact (hsame key hkey).trans (hholds.same key hlast hkey)
  rememberArea := by
    intro h S name hholds
    obtain ⟨hfiled, hdriven, hsame⟩ := hholds.filed.rememberArea name area
    refine ⟨hfiled, hdriven.trans hholds.driven, fun key hlast hkey => ?_, hholds.stats⟩
    exact (hsame key hlast).trans (hholds.same key hlast hkey)
  display := by
    intro h S effect hholds
    refine ⟨hholds.filed, hholds.driven, hholds.same, ?_⟩
    show h.1.stats.add effect = (h.2 ++ [effect]).foldl Stats.add .none
    rw [hholds.stats, List.foldl_append]
    rfl

end Host

/-- What is stored is driven in the area that a run replays. -/
theorem undriven_restore {δ : Type} {store : KeyStore δ} {area : Area α} {P : IdSet}
    (hdriven : store.driven area.name = .ok P) {id : Nat}
    (h : id ∈ (Tracker.ofArea (restore store area)).undriven) :
    id ∉ P ∧ ∃ s ∈ area.segments, s.id = id := by
  have hrestore : restore store area = area.markDriven fun n => decide (n ∈ P) := by
    simp only [restore, hdriven]
  rw [hrestore] at h
  obtain ⟨marked, hmarked, rfl, -, hundriven⟩ := Tracker.mem_undriven_ofArea.1 h
  obtain ⟨s, hs, rfl⟩ := List.mem_map.1 hmarked
  refine ⟨?_, s, hs, rfl⟩
  simpa using (Bool.or_eq_false_iff.1 hundriven).2

theorem restore_name {δ : Type} (store : KeyStore δ) (area : Area α) :
    (restore store area).name = area.name := by
  unfold restore
  split <;> rfl

theorem supply_eq_ok [Files α] {options : Options α} {store : KeyStore DiskFile} {area : Area α}
    {fixes : List (Fix α)} (h : supply options store = .ok (area, fixes)) :
    ∃ name given, areaName options store = .ok name
      ∧ Files.area store.medium.disk options.folder name = .ok given
      ∧ area = if options.ignoreStored then given else restore store given := by
  unfold supply at h
  obtain ⟨name, hname, h⟩ := Decoder.bind_eq_ok h
  obtain ⟨fixes, -, h⟩ := Decoder.bind_eq_ok h
  obtain ⟨given, hgiven, h⟩ := Decoder.bind_eq_ok h
  cases h
  refine ⟨name, given, hname, ?_, rfl⟩
  rcases hread : Files.area store.medium.disk options.folder name with fault | read <;>
    rw [hread] at hgiven <;> cases hgiven
  rfl

variable [Scalar α] [Geodesy α]

/-- A replay of an area with what is stored for it as driven stores what it shows to be driven. -/
theorem replay_stores {schedule : Schedule α} {options : Options α} {config : Config α}
    {path : String} {store : KeyStore DiskFile} {given : Area α} {fixes : List (Fix α)} {P : IdSet}
    (hfiled : store.IsFiled path) (hdriven : store.driven given.name = .ok P)
    (hlt : ∀ s ∈ given.segments, s.id < twoTo 64) {r : Replay (Host DiskFile α) α}
    (hr : Replay.run (rig schedule options config) ⟨store, .none⟩ (restore store given) fixes = r)
    (hhalt : r.halt = none) {ids : List Nat}
    (hids : (Replay.told (rig schedule options config) ⟨store, .none⟩ (restore store given)
      fixes).flatMap drivenIds = ids) :
    ids.Nodup ∧ (∀ id ∈ ids, id ∉ P) ∧ ∃ log : List (Effect α), log.flatMap drivenIds = ids
      ∧ Holds path given.name store (r.host, log) (P.union (.ofList ids)) := by
  have hholds : Holds path given.name store
      ((⟨store, .none⟩, []) : Host DiskFile α × List (Effect α)) P :=
    ⟨hfiled, hdriven, fun _ _ _ => rfl, rfl⟩
  subst hr
  obtain ⟨hnodup, hnew, S, hheld, hmem⟩ :=
    Replay.run_stores (fills schedule options config path given.name store P) hholds
      (restore_name store given) (fun id hid => by
        obtain ⟨hid, s, hs, rfl⟩ := undriven_restore hdriven hid
        exact ⟨hid, hlt s hs⟩) hhalt
  rw [hids] at hnodup hnew hmem
  have hhost : (Replay.run (rig schedule options config).logged (⟨store, .none⟩, [])
      (restore store given) fixes).host.1 = (Replay.run (rig schedule options config) ⟨store, .none⟩
        (restore store given) fixes).host :=
    congrArg Replay.host (Replay.unlogged_run (rig schedule options config) _ _ _)
  obtain rfl : S = P.union (.ofList ids) := by
    ext id
    rw [hmem, IdSet.mem_union, IdSet.mem_ofList]
    rfl
  rw [← hhost]
  exact ⟨hnodup, fun id hid => (hnew id hid).1, _, hids, hheld⟩

omit [Scalar α] [Geodesy α] in
theorem report_eq_ok {r : Replay (Host DiskFile α) α} {stats : Stats α} {disk : Disk}
    (h : report r = (.ok stats, disk)) :
    r.halt = none ∧ r.host.stats = stats ∧ r.host.store.medium.disk = disk := by
  unfold report at h
  rcases hhalt : r.halt with _ | halt <;> rw [hhalt] at h <;> cases h
  exact ⟨rfl, rfl, rfl⟩

variable [Files α]

/-- What is shown in the course of a run, in order. -/
def told (schedule : Schedule α) (options : Options α) (storage : String) (disk : Disk) :
    List (Effect α) :=
  match Files.config disk options.config, KeyStore.openFile disk storage with
  | .ok config, .ok store =>
    match supply options store with
    | .ok (area, fixes) => Replay.told (rig schedule options config) ⟨store, .none⟩ area fixes
    | .error _ => []
  | _, _ => []

/-- A run that comes to an orderly end replays an area with what is stored for it as driven. -/
theorem run_eq_ok {schedule : Schedule α} {options : Options α} {storage : String}
    {disk disk' : Disk} {stats : Stats α} {store : KeyStore DiskFile} {area : String}
    (h : run schedule options storage disk = (.ok stats, disk'))
    (hkeep : options.ignoreStored = false) (hstore : KeyStore.openFile disk storage = .ok store)
    (hname : areaName options store = .ok area) :
    ∃ config given fixes, Files.area store.medium.disk options.folder area = .ok given
      ∧ told schedule options storage disk
        = Replay.told (rig schedule options config) ⟨store, .none⟩ (restore store given) fixes
      ∧ report (Replay.run (rig schedule options config) ⟨store, .none⟩ (restore store given) fixes)
        = (.ok stats, disk') := by
  unfold run at h
  unfold told
  rcases hconfig : Files.config disk options.config with fault | config
  · rw [hconfig] at h
    cases h
  rcases hsupply : supply options store with fault | ⟨restored, fixes⟩
  · simp [hconfig, hstore, hsupply] at h
  obtain ⟨name, given, hname', hgiven, hrestored⟩ := supply_eq_ok hsupply
  rw [hkeep] at hrestored
  subst hrestored
  obtain rfl := Except.ok.inj (hname.symm.trans hname')
  simp only [hconfig, hstore, hsupply] at h ⊢
  exact ⟨config, given, fixes, hgiven, rfl, h⟩

/-- A run that comes to an orderly end, and whose storage can be written, has stored what it has
shown to be driven, each segment once, besides what was stored before. Nothing else has changed in
the storage but the area that was loaded last. -/
theorem storage_after [LawfulFiles α] {schedule : Schedule α} {options : Options α}
    {storage : String} {disk disk' : Disk} {stats : Stats α} {store : KeyStore DiskFile}
    {area : String} {P : IdSet}
    (hrun : run schedule options storage disk = (.ok stats, disk'))
    (hkeep : options.ignoreStored = false) (hstore : KeyStore.openFile disk storage = .ok store)
    (hname : areaName options store = .ok area) (hdriven : store.driven area = .ok P)
    (hwritable : ∀ text, (Medium.write store.medium text).isSome) :
    let ids := (told schedule options storage disk).flatMap drivenIds
    ids.Nodup ∧ (∀ id ∈ ids, id ∉ P) ∧ stats.segmentsDriven = (IdSet.ofList ids).toList.length
      ∧ ∃ store', KeyStore.openFile disk' storage = .ok store'
        ∧ store'.driven area = .ok (P.union (.ofList ids))
        ∧ ∀ key, key ≠ lastAreaKey → key ≠ areaKey area → store'.get? key = store.get? key := by
  intro ids
  obtain ⟨config, given, fixes, hgiven, htold, hreport⟩ := run_eq_ok hrun hkeep hstore hname
  obtain ⟨hhalt, hstats, hdisk⟩ := report_eq_ok hreport
  obtain rfl : given.name = area := LawfulFiles.area_name hgiven
  have hids : (Replay.told (rig schedule options config) ⟨store, .none⟩ (restore store given)
      fixes).flatMap drivenIds = ids := by rw [← htold]
  obtain ⟨hnodup, hnew, log, hlog, hholds⟩ := replay_stores (isFiled_openFile hstore hwritable)
    hdriven (LawfulFiles.id_lt hgiven) rfl hhalt hids
  refine ⟨hnodup, hnew, ?_, _, ?_, hholds.driven, hholds.same⟩
  · have hcount : stats.segmentsDriven = ids.length := by
      rw [← hstats, hholds.stats, segmentsDriven_foldl, hlog]
      exact Nat.zero_add _
    have hperm : (IdSet.ofList ids).toList.Perm ids :=
      (List.perm_ext_iff_of_nodup (IdSet.nodup _) hnodup).2 fun _ => IdSet.mem_ofList
    rw [hcount, hperm.length_eq]
  · rw [← hdisk]
    exact hholds.filed.opened

end Roadbook.Run

namespace Roadbook

open KeyStore Effect

namespace Trial

/-- A drive along the road, with a pause after each of its segments. -/
def recording : List (Fix ℚ) :=
  [.ofPoint (place (-5)) 0, .ofPoint (place 0) 0, .ofPoint (place 2) 20000,
    .ofPoint (place 3) 40000]

instance : Files ℚ where
  config _ _ := .ok .standard
  area _ _ name := .ok (area name)
  fixes _ _ _ := .ok recording

instance : LawfulFiles ℚ where
  area_name h := by cases h; rfl
  id_lt h := by cases h; simp [area, twoTo]

def options : Options ℚ :=
  ⟨some "north", ".", "drive.jsonl", none, none, 0, 1000, false, false, false⟩

/-- One segment is stored, which is not one of the road. -/
def entries : List (String × String) := [("note", "kept"), ("coverage/north", "[7]")]

def disk : Disk := Disk.empty.put ["stored.json"] (.file (Json.spread entries))

def store : KeyStore DiskFile := ⟨entries, disk, "stored.json"⟩

theorem write_disk : Disk.empty.write "stored.json" (Json.spread entries) = .ok disk := by
  decide +kernel

theorem openFile_disk : KeyStore.openFile disk "stored.json" = .ok store :=
  openFile_written (by decide +kernel) (by decide +kernel) write_disk

theorem driven_store : store.driven "north" = .ok (IdSet.ofList [7]) := by decide +kernel

def rig : Rig (Run.Host DiskFile ℚ) ℚ := Run.rig .prompt options .standard

def replay : Replay (Run.Host DiskFile ℚ) ℚ :=
  Replay.run rig ⟨store, .none⟩ (Run.restore store (area "north")) recording

theorem halt_replay : replay.halt = none := by decide +kernel

theorem drivenIds_replay : (Replay.told rig ⟨store, .none⟩ (Run.restore store (area "north"))
    recording).flatMap drivenIds = [1, 2] := by
  decide +kernel

theorem run_disk : Run.run .prompt options "stored.json" disk
    = (.ok replay.host.stats, replay.host.store.medium.disk) := by
  have hreport : Run.run .prompt options "stored.json" disk = Run.report replay := by
    unfold Run.run
    rw [openFile_disk]
    rfl
  rw [hreport, Run.report, halt_replay]

theorem told_disk : Run.told .prompt options "stored.json" disk
    = Replay.told rig ⟨store, .none⟩ (Run.restore store (area "north")) recording := by
  unfold Run.told
  rw [openFile_disk]
  rfl

theorem isSome_write_store (text : String) : (Medium.write store.medium text).isSome := by
  obtain ⟨later, hlater⟩ := Disk.exists_write (Disk.write_again write_disk) text
  have hwrite : store.medium.disk.write store.medium.path text = .ok later := hlater
  rw [write_eq, hwrite]
  rfl

end Trial

theorem Run.storage_after_drive : ∃ stats disk' store',
    run .prompt Trial.options "stored.json" Trial.disk = (.ok stats, disk')
      ∧ stats.segmentsDriven = 2
      ∧ KeyStore.openFile disk' "stored.json" = .ok store'
      ∧ store'.driven "north" = .ok (IdSet.ofList [1, 2, 7])
      ∧ store'.get? "note" = some "kept" := by
  obtain ⟨-, -, hcount, store', hopen, hdriven, hsame⟩ := storage_after Trial.run_disk rfl
    Trial.openFile_disk rfl Trial.driven_store Trial.isSome_write_store
  rw [Trial.told_disk, Trial.drivenIds_replay] at hcount hdriven
  exact ⟨_, _, store', Trial.run_disk, hcount, hopen, hdriven,
    (hsame "note" (by decide) (by decide +kernel)).trans rfl⟩

end Roadbook

import Roadbook.Proofs.CommandLine.Run
import Roadbook.Proofs.Replay.Halting

/-!
# What a run that fails has written

Nothing (`Run.stores_unless_failed`). All that a run can fail for in order comes before its area is
loaded, and nothing is written before that: a run ends without a replay and changes no file
(`Run.run_cases`), or its replay is refused the area and leaves the storage alone
(`Run.halt_of_isOrderly`). A replay that does not halt has its area remembered
(`Run.lastArea?_of_halt`).
-/

namespace Roadbook

/-- The run is not asked for more than can be dealt with, and comes to an end. -/
def RunFault.IsOrderly {α : Type} : RunFault α → Prop
  | .halt h => h.IsOrderly
  | fault => fault.isBeyondLimits = false

namespace Run

open KeyStore

variable {α : Type}

section Hosts

variable (schedule : Schedule α) (options : Options α) (config : Config α) (path name : String)

theorem keeps_any : (rig (δ := DiskFile) schedule options config).Keeps fun _ => True :=
  ⟨fun _ => id, fun _ => id⟩

theorem keeps_filed :
    (rig (δ := DiskFile) schedule options config).Keeps fun h => h.store.IsFiled path :=
  ⟨fun batch h => h.persisted batch, fun _ => id⟩

theorem keeps_remembered : (rig (δ := DiskFile) schedule options config).Keeps fun h =>
    h.store.IsFiled path ∧ h.store.lastArea? = some name where
  persist batch h := ⟨h.1.persisted batch, (lastArea?_persist _ batch).trans h.2⟩
  display _ := id

end Hosts

variable [Scalar α] [Geodesy α] {schedule : Schedule α} {options : Options α} {config : Config α}
  {store : KeyStore DiskFile} {area : Area α} {fixes : List (Fix α)}

/-- What a replay halts on in order is that the route of its area is none. -/
theorem halt_of_isOrderly {halt : Halt α}
    (hhalt : (Replay.run (rig schedule options config) ⟨store, .none⟩ area fixes).halt = some halt)
    (horderly : halt.IsOrderly) :
    (∃ fault, Route.ofPoints config.turns area.route = .error fault)
      ∧ (Replay.run (rig schedule options config) ⟨store, .none⟩ area fixes).host.store
        = store := by
  rcases Navigator.handle_areaLoaded_cases config (.vacant ⟨!options.noFollow, false⟩) 0 area
    (fun _ => 0) with
    ⟨route, hroute, hroom⟩ | ⟨reason, n, hrefused, hinOrder⟩
  · have hloaded := Replay.isLoaded_run (rig schedule options config) ⟨store, .none⟩ hroute hroom
      (keeps_any ..) (keeps_any ..) (fun _ => id) trivial fixes
    exact absurd horderly (hloaded.halt halt hhalt)
  · obtain ⟨hrefusal, hhost⟩ :=
      Replay.run_refused (rig schedule options config) ⟨store, .none⟩ hrefused fixes
    obtain rfl := Option.some.inj (hrefusal.symm.trans hhalt)
    rw [hhost]
    exact ⟨hinOrder horderly.1, rfl⟩

/-- A replay that does not halt has had its area remembered. -/
theorem lastArea?_of_halt {path : String} (hfiled : store.IsFiled path)
    (hhalt : (Replay.run (rig schedule options config) ⟨store, .none⟩ area fixes).halt = none) :
    (Replay.run (rig schedule options config) ⟨store, .none⟩ area fixes).host.store.IsFiled path
      ∧ (Replay.run (rig schedule options config) ⟨store, .none⟩ area
          fixes).host.store.lastArea? = some area.name := by
  rcases Navigator.handle_areaLoaded_cases config (.vacant ⟨!options.noFollow, false⟩) 0 area
    (fun _ => 0) with
    ⟨route, hroute, hroom⟩ | ⟨reason, n, hrefused, -⟩
  · have hremembers : ∀ h : Host DiskFile α, h.store.IsFiled path →
        (h.store.rememberArea area.name).2.IsFiled path
          ∧ (h.store.rememberArea area.name).2.lastArea? = some area.name :=
      fun h hh => ⟨(hh.set _ _).2, lastArea?_rememberArea _ _⟩
    have hloaded := Replay.isLoaded_run (rig schedule options config) ⟨store, .none⟩ hroute hroom
      (keeps_filed schedule options config path)
      (keeps_remembered schedule options config path area.name) hremembers hfiled fixes
    exact hloaded.host
  · obtain ⟨hrefusal, -⟩ :=
      Replay.run_refused (rig schedule options config) ⟨store, .none⟩ hrefused fixes
    cases hrefusal.symm.trans hhalt

omit [Scalar α] [Geodesy α] in
theorem report_eq_error {r : Replay (Host DiskFile α) α} {fault : RunFault α} {disk : Disk}
    (h : report r = (.error fault, disk)) :
    ∃ halt, fault = .halt halt ∧ r.halt = some halt ∧ r.host.store.medium.disk = disk := by
  unfold report at h
  rcases hhalt : r.halt with _ | halt <;> rw [hhalt] at h <;> cases h
  exact ⟨halt, rfl, rfl, rfl⟩

omit [Scalar α] [Geodesy α] in
/-- The area of a run is the one that is named, or else the one that is remembered. -/
theorem given_or_remembered {δ : Type} {store : KeyStore δ} {name : String}
    (h : areaName options store = .ok name) : (options.area <|> store.lastArea?) = some name := by
  unfold areaName at h
  rcases harea : options.area with _ | given <;> rw [harea] at h
  · rcases hlast : store.lastArea? with _ | last
    · simp [hlast] at h
    · simp only [hlast] at h
      split_ifs at h
      cases h
      rfl
  · cases h
    rfl

omit [Scalar α] [Geodesy α] in
theorem supply_name [Files α] [LawfulFiles α] (h : supply options store = .ok (area, fixes)) :
    areaName options store = .ok area.name := by
  obtain ⟨name, given, hname, hgiven, rfl⟩ := supply_eq_ok h
  have hsame : given.name = name := LawfulFiles.area_name hgiven
  rw [hname, ← hsame]
  split_ifs
  · rfl
  · rw [restore_name]

variable [Files α] {storage : String} {disk disk' : Disk}

theorem run_of_supply (hconfig : Files.config disk options.config = .ok config)
    (hstore : openFile disk storage = .ok store)
    (hsupply : supply options store = .ok (area, fixes)) :
    run schedule options storage disk
      = report (Replay.run (rig schedule options config) ⟨store, .none⟩ area fixes) := by
  unfold run
  simp only [hconfig, hstore, hsupply]

/-- A run is supplied with an area to replay, or it ends with no file changed. -/
theorem run_cases {result : Except (RunFault α) (Stats α)}
    (hrun : run schedule options storage disk = (result, disk')) :
    (∃ (config : Config α) (store : KeyStore DiskFile) (area : Area α) (fixes : List (Fix α)),
        Files.config disk options.config = .ok config ∧ openFile disk storage = .ok store
        ∧ supply options store = .ok (area, fixes))
      ∨ ∃ fault, result = .error fault ∧ disk.SameFiles disk'
        ∧ openFile disk' storage = openFile disk storage := by
  unfold run at hrun
  rcases hconfig : Files.config disk options.config with fault | config
  · rw [hconfig] at hrun
    cases hrun
    exact .inr ⟨_, rfl, .refl disk, rfl⟩
  rcases hstore : openFile disk storage with fault | store
  · simp only [hconfig, hstore] at hrun
    cases hrun
    exact .inr ⟨_, rfl, .refl disk, hstore⟩
  rcases hsupply : supply options store with fault | ⟨area, fixes⟩
  · simp only [hconfig, hstore, hsupply] at hrun
    cases hrun
    obtain ⟨hmade, -⟩ := openFile_eq_ok hstore
    exact .inr ⟨_, rfl, Disk.sameFiles_makeParents hmade, openFile_again hstore⟩
  · exact .inl ⟨config, store, area, fixes, rfl, rfl, hsupply⟩

/-- A run that fails changes no file, and what is stored under any key is as it was. A run that does
not fail, and whose storage can be written, remembers the area that was named, or else the one that
was remembered. No run fails whose area has a route. -/
theorem stores_unless_failed [LawfulFiles α] {result : Except (RunFault α) (Stats α)}
    (hrun : run schedule options storage disk = (result, disk')) :
    (∀ fault, result = .error fault → fault.IsOrderly →
        disk.SameFiles disk' ∧ openFile disk' storage = openFile disk storage)
      ∧ (∀ stats, result = .ok stats → ∃ store name, openFile disk storage = .ok store
        ∧ (options.area <|> store.lastArea?) = some name
        ∧ ((∀ text, (Medium.write store.medium text).isSome) →
          ∃ store', openFile disk' storage = .ok store' ∧ store'.lastArea? = some name))
      ∧ ∀ config store area fixes route, Files.config disk options.config = .ok config →
        openFile disk storage = .ok store → supply options store = .ok (area, fixes) →
        Route.ofPoints config.turns area.route = .ok route →
        ∀ fault, result = .error fault → ¬ fault.IsOrderly := by
  refine ⟨?_, ?_, ?_⟩
  · rintro fault rfl horderly
    rcases run_cases hrun with
      ⟨config, store, area, fixes, hconfig, hstore, hsupply⟩ | ⟨_, -, hsame, hopen⟩
    · obtain ⟨halt, rfl, hhalt, rfl⟩ :=
        report_eq_error ((run_of_supply hconfig hstore hsupply).symm.trans hrun)
      obtain ⟨-, hkept⟩ := halt_of_isOrderly hhalt horderly
      obtain ⟨hmade, -⟩ := openFile_eq_ok hstore
      rw [hkept, hstore]
      exact ⟨Disk.sameFiles_makeParents hmade, openFile_again hstore⟩
    · exact ⟨hsame, hopen⟩
  · rintro stats rfl
    rcases run_cases hrun with
      ⟨config, store, area, fixes, hconfig, hstore, hsupply⟩ | ⟨_, hfault, -⟩
    · obtain ⟨hhalt, -, rfl⟩ :=
        report_eq_ok ((run_of_supply hconfig hstore hsupply).symm.trans hrun)
      refine ⟨store, area.name, hstore, given_or_remembered (supply_name hsupply), fun hwrite => ?_⟩
      obtain ⟨hfiled, hlast⟩ := lastArea?_of_halt (isFiled_openFile hstore hwrite) hhalt
      exact ⟨_, hfiled.opened, hlast⟩
    · cases hfault
  · rintro config store area fixes route hconfig hstore hsupply hroute fault rfl horderly
    obtain ⟨halt, rfl, hhalt, -⟩ :=
      report_eq_error ((run_of_supply hconfig hstore hsupply).symm.trans hrun)
    obtain ⟨⟨reason, hrefused⟩, -⟩ := halt_of_isOrderly hhalt horderly
    cases hroute.symm.trans hrefused

/-- The run of a drive remembers its area; one that is given no area finds none remembered. -/
theorem stores_unless_failed_drive :
    (∃ stats disk' store', run .prompt Trial.options "stored.json" Trial.disk = (.ok stats, disk')
        ∧ openFile disk' "stored.json" = .ok store' ∧ store'.lastArea? = some "north")
      ∧ ∃ disk', run .prompt { Trial.options with area := none } "stored.json" Trial.disk
          = (.error .noArea, disk')
        ∧ openFile disk' "stored.json" = .ok Trial.store := by
  constructor
  · obtain ⟨-, hstored, -⟩ := stores_unless_failed Trial.run_disk
    obtain ⟨store, name, hopen, hname, hlast⟩ := hstored _ rfl
    obtain rfl := Except.ok.inj (hopen.symm.trans Trial.openFile_disk)
    obtain rfl : "north" = name := Option.some.inj hname
    obtain ⟨store', hopen', hlast⟩ := hlast Trial.isSome_write_store
    exact ⟨_, _, store', Trial.run_disk, hopen', hlast⟩
  · have hrun : run .prompt { Trial.options with area := none } "stored.json" Trial.disk
        = (.error .noArea, Trial.disk) := by
      unfold run
      rw [Trial.openFile_disk]
      rfl
    obtain ⟨hfailed, -⟩ := stores_unless_failed hrun
    obtain ⟨-, hopen⟩ := hfailed .noArea rfl rfl
    exact ⟨_, hrun, hopen.trans Trial.openFile_disk⟩

end Run

end Roadbook

import Roadbook.CommandLine.Options
import Roadbook.Ground.Sphere
import Roadbook.Guidance.Message
import Roadbook.Replay.Basic
import Roadbook.Replay.Stats
import Roadbook.Storage.Files
import Roadbook.Storage.Records

/-!
# Runs

A run replays the fixes in a file along the route of an area. What is driven is stored, and segments
stored by earlier runs count as driven from the start. Directions are straight lines.
-/

namespace Roadbook

inductive RunFault (α : Type := Float) where
  | file (fault : FileFault)
  | store (fault : StoreFault)
  /-- No area is named, and none is remembered. -/
  | noArea
  | halt (halt : Halt α)
  deriving Repr

def RunFault.message? : RunFault → Option String
  | .file fault => fault.message?
  | .noArea => some "No area given and none remembered from a previous run"
  | .halt (.refusal (.route fault)) => some fault.message
  | _ => none

/-- Whether a run comes to no orderly end, for it was asked for more than can be dealt with. -/
def RunFault.isBeyondLimits {α : Type} : RunFault α → Bool
  | .file fault => fault.isBeyondLimits
  | .halt h => h.isBeyondLimits
  | .store _ | .noArea => false

namespace Run

/-- What a run keeps beside the replay. -/
structure Host (δ α : Type) where
  store : KeyStore δ
  stats : Stats α

variable {δ α : Type}

def Host.withStore (h : Host δ α) (store : KeyStore δ) : Host δ α := { h with store := store }

def rig [Medium δ] (schedule : Schedule α) (options : Options α) (config : Config α) :
    Rig (Host δ α) α where
  config := config
  speedup := options.speedup
  autoResume := options.autoResume
  follow := !options.noFollow
  schedule := schedule
  directions request := some [request.start, request.finish]
  persist h batch :=
    let (success, store) := h.store.persist batch
    (success, h.withStore store)
  rememberArea h area := h.withStore (h.store.rememberArea area).2
  display h effect := { h with stats := h.stats.add effect }

/-- The area that is named, or else the one loaded last. -/
def areaName (options : Options α) (store : KeyStore δ) : Except (RunFault α) String :=
  match options.area with
  | some name => .ok name
  | none =>
    if options.ignoreStored then .error .noArea
    else match store.lastArea? with
      | some name => .ok name
      | none => .error .noArea

/-- The area with what is stored for it as driven. What is stored in some other form is ignored. -/
def restore (store : KeyStore δ) (area : Area α) : Area α :=
  match store.driven area.name with
  | .ok ids => area.markDriven fun n => decide (n ∈ ids)
  | .error _ => area

/-- The area and the fixes of a run. -/
def supply [Files α] (options : Options α) (store : KeyStore DiskFile) :
    Except (RunFault α) (Area α × List (Fix α)) := do
  let disk := store.medium.disk
  let name ← areaName options store
  let fixes ← (Files.fixes disk options.fixes options.interval).mapError .file
  let area ← (Files.area disk options.folder name).mapError .file
  return (if options.ignoreStored then area else restore store area, fixes)

/-- A replay as a run reports it: the figures, or why it halted, and the disk. -/
def report (r : Replay (Host DiskFile α) α) : Except (RunFault α) (Stats α) × Disk :=
  (match r.halt with
    | none => .ok r.host.stats
    | some halt => .error (.halt halt), r.host.store.medium.disk)

/-- A whole run, with its storage in a file. -/
def run [Scalar α] [Geodesy α] [Files α] (schedule : Schedule α) (options : Options α)
    (storage : String) (disk : Disk) : Except (RunFault α) (Stats α) × Disk :=
  match Files.config disk options.config with
  | .error fault => (.error (.file fault), disk)
  | .ok config =>
    match KeyStore.openFile disk storage with
    | .error fault => (.error (.store fault), disk)
    | .ok store =>
      match supply options store with
      | .error fault => (.error fault, store.medium.disk)
      | .ok (area, fixes) =>
        report (Replay.run (rig schedule options config) ⟨store, .none⟩ area fixes)

/-- What the program exits with. -/
def exitCode : Except (RunFault α) (Stats α) → Nat
  | .ok _ => 0
  | .error fault => if fault.isBeyondLimits then 101 else 1

end Run

/-- What the program exits with when it is asked for help or misused. -/
def Usage.exitCode : Usage → Nat
  | .help | .version => 0
  | _ => 2

end Roadbook

import Roadbook.CommandLine.Message

/-!
# The program

Reads the files that a run needs, carries it out, and writes back what it has stored. The pauses
between the fixes are not waited for.
-/

namespace Roadbook.Program

/-- Copies what is at a path onto a disk. What is there but is no text file becomes a folder. -/
def copy (disk : Disk) (path : String) : IO Disk := do
  try
    let text ← IO.FS.readFile path
    return (disk.add path text).toOption.getD disk
  catch
    | .noFileOrDirectory .. => return disk
    | _ => return (disk.makeFolders [] (pathNames path)).toOption.getD disk

/-- Where things are stored unless an option says so. -/
def standardStorage : IO String := do
  match ← IO.getEnv "HOME" with
  | some home => return home ++ "/.config/roadbook/storage.json"
  | none => return "roadbook.json"

/-- The files that a run may read, on a disk. -/
def gather (options : Options) (storage : String) : IO Disk := do
  let disk ← ([storage, options.fixes] ++ options.config.toList).foldlM copy .empty
  match KeyStore.openFile disk storage with
  | .error _ => return disk
  | .ok store =>
    match Run.areaName options store with
    | .error _ => return disk
    | .ok name =>
      [Disk.routePath options.folder name, Disk.coveragePath options.folder name].foldlM copy disk

/-- Writes the storage when a run has changed it. -/
def save (path : String) (before after : Disk) : IO Unit := do
  match after.read path with
  | .error _ => return
  | .ok text =>
    if (before.read path).toOption = some text then return
    try
      IO.FS.createDirAll ("/".intercalate (pathNames path).dropLast)
      IO.FS.writeFile path text
    catch e => IO.eprintln ("The storage cannot be written: " ++ toString e)

def carryOut (options : Options) : IO UInt32 := do
  let here := toString (← IO.currentDir)
  let options := options.mapPaths (pathIn here)
  let storage ← match options.storage with
    | some path => pure path
    | none => pathIn here <$> standardStorage
  let disk ← gather options storage
  let (result, after) := Run.run .prompt options storage disk
  save storage disk after
  match result with
  | .ok stats => IO.println stats.message
  | .error fault => IO.eprintln fault.message
  return (Run.exitCode result).toUInt32

end Roadbook.Program

open Roadbook in
def main (words : List String) : IO UInt32 := do
  match Options.ofWords words with
  | .ok options => Program.carryOut options
  | .error usage =>
    if usage.exitCode = 0 then IO.println usage.message else IO.eprintln usage.message
    return usage.exitCode.toUInt32

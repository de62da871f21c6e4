import Roadbook.Storage.Disk
import Roadbook.Text.Json.Decoder
import Roadbook.Text.Json.Writer

/-!
# Key stores

A key store keeps strings under keys in memory, and writes all of them to a medium each time one is
set. Reading goes by memory alone: what is set is found there whether or not it could be written.
-/

namespace Roadbook

/-- Something that a text can be written to, as a whole or not at all. -/
class Medium (δ : Type) where
  write : δ → String → Option δ

/-- A file on a disk, there or not. -/
structure DiskFile where
  disk : Disk
  path : String
  deriving DecidableEq, Repr

instance : Medium DiskFile where
  write file text := (file.disk.write file.path text).toOption.map fun disk => ⟨disk, file.path⟩

inductive StoreFault where
  /-- The file could not be read or written. -/
  | unreadable
  /-- What is stored is not of the form that is wanted. -/
  | invalid
  deriving DecidableEq, Repr

/-- Puts a value under a key, in place of the one that is there. -/
def assign (key value : String) : List (String × String) → List (String × String)
  | [] => [(key, value)]
  | entry :: entries =>
    if entry.1 = key then (key, value) :: entries else entry :: assign key value entries

structure KeyStore (δ : Type) where
  entries : List (String × String)
  medium : δ
  deriving DecidableEq, Repr

namespace KeyStore

variable {δ : Type}

def get? (store : KeyStore δ) (key : String) : Option String :=
  (store.entries.find? fun e => e.1 = key).map (·.2)

/-- Sets the value of a key; the answer says whether that could be written. -/
def set [Medium δ] (store : KeyStore δ) (key value : String) : Bool × KeyStore δ :=
  let entries := assign key value store.entries
  match Medium.write store.medium (Json.spread entries) with
  | some medium => (true, ⟨entries, medium⟩)
  | none => (false, ⟨entries, store.medium⟩)

/-- The entries that a text stands for: those of an object of strings, of which the last value of
each key counts. -/
def entriesOf? (text : String) : Option (List (String × String)) :=
  match Json.decode (Decoder.members Decoder.string) text with
  | .ok members => some (members.foldl (fun entries e => assign e.1 e.2 entries) [])
  | .error _ => none

/-- The store in a file, which need not be there yet but whose folder is made. Nothing is stored in
a file of blanks. -/
def openFile (disk : Disk) (path : String) : Except StoreFault (KeyStore DiskFile) :=
  match disk.makeParents path with
  | .error _ => .error .unreadable
  | .ok disk =>
    if !disk.has path then .ok ⟨[], disk, path⟩
    else match disk.read path with
      | .error _ => .error .unreadable
      | .ok text =>
        if (trimmed text.toList).isEmpty then .ok ⟨[], disk, path⟩
        else match entriesOf? text with
          | some entries => .ok ⟨entries, disk, path⟩
          | none => .error .invalid

end KeyStore

end Roadbook

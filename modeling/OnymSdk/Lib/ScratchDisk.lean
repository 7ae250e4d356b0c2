/-
  File:      OnymSdk/Lib/ScratchDisk.lean
  Subject:   A SCRATCH DISK that several programs share.

  * `Entry`, `Disk` -- directories by path, with their files; who made a directory is
    kept beside it, and no operation looks at it;
  * `create`, `append`, `unlink`, `rmdir`, `read` -- the file operations, by path alone;
  * `Hook`, `delete` -- what is to be deleted when a program ends.
-/
import Mathlib.Logic.Function.Basic

namespace ScratchDisk

variable {ι : Type}

/-! ## 1. Directories and files -/

/-- The files of a directory. -/
abbrev DirFiles := List (String × List UInt8)

/-- A directory, and who made it, if it is one of those that are followed. -/
structure Entry (ι : Type) where
  maker : Option ι
  files : DirFiles

/-- The directories, by their paths. -/
abbrev Disk (ι : Type) := String → Option (Entry ι)

namespace Disk

/-- What is done to the files of a directory, if it is there. -/
def change (disk : Disk ι) (d : String) (f : DirFiles → DirFiles) : Disk ι :=
  Function.update disk d ((disk d).map fun e => { e with files := f e.files })

def without (name : String) (files : DirFiles) : DirFiles := files.filter fun x => x.1 ≠ name

/-- Opening for writing: the file is empty then. -/
def create (disk : Disk ι) (d name : String) : Disk ι :=
  disk.change d fun files => (name, []) :: without name files

/-- Writing at the end of a file. -/
def append (disk : Disk ι) (d name : String) (chunk : List UInt8) : Disk ι :=
  disk.change d fun files => files.map fun x => if x.1 = name then (x.1, x.2 ++ chunk) else x

/-- `File.delete` of a file. -/
def unlink (disk : Disk ι) (d name : String) : Disk ι := disk.change d (without name)

/-- `File.delete` of a directory: it does nothing to one that has files. -/
def rmdir (disk : Disk ι) (d : String) : Disk ι :=
  match disk d with
  | some e => if e.files = [] then Function.update disk d none else disk
  | none => disk

/-- The bytes of a file. -/
def read (disk : Disk ι) (d name : String) : Option (List UInt8) :=
  (disk d).bind fun e => (e.files.find? fun x => x.1 = name).map Prod.snd

section Lemmas

variable {disk : Disk ι} {d name : String} {m : Option ι} {files : DirFiles}

theorem change_of_entry (h : disk d = some ⟨m, files⟩) (f : DirFiles → DirFiles) :
    disk.change d f = Function.update disk d (some ⟨m, f files⟩) := by
  rw [change, h]
  rfl

theorem create_of_empty (h : disk d = some ⟨m, []⟩) :
    disk.create d name = Function.update disk d (some ⟨m, [(name, [])]⟩) :=
  change_of_entry h _

theorem append_of_file {bytes chunk : List UInt8} (h : disk d = some ⟨m, [(name, bytes)]⟩) :
    disk.append d name chunk = Function.update disk d (some ⟨m, [(name, bytes ++ chunk)]⟩) := by
  rw [append, change_of_entry h, List.map_singleton, if_pos rfl]

theorem unlink_of_entry (h : disk d = some ⟨m, files⟩) :
    disk.unlink d name = Function.update disk d (some ⟨m, without name files⟩) :=
  change_of_entry h _

theorem rmdir_of_empty (h : disk d = some ⟨m, []⟩) :
    disk.rmdir d = Function.update disk d none := by
  rw [rmdir, h]
  exact if_pos rfl

/-- A directory that has files stays. -/
theorem rmdir_of_ne (h : disk d = some ⟨m, files⟩) (hf : files ≠ []) : disk.rmdir d = disk := by
  rw [rmdir, h]
  exact if_neg hf

theorem read_of_file {bytes : List UInt8} (h : disk d = some ⟨m, [(name, bytes)]⟩) :
    disk.read d name = some bytes := by
  rw [read, h]
  show ((List.find? _ [(name, bytes)]).map Prod.snd) = _
  rw [List.find?_singleton, if_pos (decide_eq_true rfl)]
  rfl

end Lemmas

end Disk

/-! ## 2. What is to be deleted -/

/-- What is to be deleted. -/
inductive Hook where
  | dir (d : String)
  | file (d name : String)
  deriving DecidableEq

/-- The directory it is about. -/
def Hook.path : Hook → String
  | .dir d => d
  | .file d _ => d

def Disk.delete (disk : Disk ι) : Hook → Disk ι
  | .dir d => disk.rmdir d
  | .file d name => disk.unlink d name

end ScratchDisk

import LocalIpc.Address.Path
import LocalIpc.IoError.Basic
/-!
# Files

The files of a host, each under one name in one directory. A file keeps its identity when it is
renamed. Once the file is removed, another one may get the identity.
-/

namespace LocalIpc

inductive FileKind
  | regular
  | directory
  | symlink (target : Path)
  | socket
  | fifo
  | device
  deriving DecidableEq

/-- What tells one file from all others that there are. -/
abbrev FileId := Nat

structure File where
  id : FileId
  /-- The directory that the file is in. -/
  parent : FileId
  name : Bytes
  kind : FileKind
  /-- The permission bits. -/
  mode : UInt32
  deriving DecidableEq

structure Tree where
  files : List File
  /-- An identity above all that were in use so far. -/
  nextId : FileId
  /-- New files get the identities of files that were removed. Some file systems do that, others
  go on counting. -/
  recycles : Bool
  /-- The directories that take no new names and give none up, with the error that says why: the
  permission is missing, or the file system is read only. -/
  frozen : List (FileId × IoError)
  deriving DecidableEq

namespace Tree

/-- The root directory. It is in itself and has no entry. -/
def root : FileId := 0

/-- The directory in which relative paths start. -/
def workDir : FileId := 2

/-- The directory of the devices. It is a file system of its own. -/
def devices : FileId := 3

/-- A host with an empty working directory. No path names that directory, so its name is empty. -/
def fresh : Tree where
  files := [
    ⟨1, root, Text.encode "tmp", .directory, 0o777⟩,
    ⟨workDir, 1, [], .directory, 0o755⟩,
    ⟨devices, root, Text.encode "dev", .directory, 0o755⟩,
    ⟨4, devices, Text.encode "null", .device, 0o666⟩]
  nextId := 5
  recycles := false
  frozen := []

def byId? (t : Tree) (i : FileId) : Option File := t.files.find? fun f => f.id = i

def find? (t : Tree) (dir : FileId) (name : Bytes) : Option File :=
  t.files.find? fun f => f.parent = dir ∧ f.name = name

def parentOf (t : Tree) (i : FileId) : FileId := ((t.byId? i).map File.parent).getD root

def modeOf (t : Tree) (i : FileId) : UInt32 := ((t.byId? i).map File.mode).getD 0

def isEmptyDir (t : Tree) (i : FileId) : Bool := t.files.all fun f => f.parent ≠ i

/-- A directory is `i` or lies below it. The climb to the root is bounded by the number of files. -/
def isWithin (t : Tree) (i : FileId) : Nat → FileId → Bool
  | 0, dir => dir == i
  | n + 1, dir => dir == i || (dir != root && isWithin t i n (t.parentOf dir))

/-- A directory belongs to the file system of the devices. -/
def isOnDevices (t : Tree) (dir : FileId) : Bool := t.isWithin devices t.files.length dir

/-- The error that keeps the names in a directory as they are. -/
def frozen? (t : Tree) (dir : FileId) : Option IoError := t.frozen.lookup dir

/-- The identity of the next new file. One that was used before is not `held` by something else. -/
def newId (t : Tree) (held : List FileId) : FileId :=
  if t.recycles then
    ((List.range t.nextId).find? fun i => i ≠ root ∧ i ∉ held ∧ t.byId? i = none).getD t.nextId
  else t.nextId

def add (t : Tree) (held : List FileId) (dir : FileId) (name : Bytes) (kind : FileKind)
    (mode : UInt32) : FileId × Tree :=
  let i := t.newId held
  (i, { t with files := ⟨i, dir, name, kind, mode⟩ :: t.files, nextId := max t.nextId (i + 1) })

def erase (t : Tree) (i : FileId) : Tree := { t with files := t.files.filter fun f => f.id ≠ i }

def move (t : Tree) (i dir : FileId) (name : Bytes) : Tree :=
  { t with files := t.files.map fun f => if f.id = i then { f with parent := dir, name } else f }

def setMode (t : Tree) (i : FileId) (mode : UInt32) : Tree :=
  { t with files := t.files.map fun f => if f.id = i then { f with mode } else f }

/-! ## Listings -/

/-- The path of a file as seen from the working directory, if it is below that. The climb is bounded
by the number of files. -/
def pathOf? (t : Tree) : Nat → File → Option Path
  | 0, _ => none
  | n + 1, f =>
    if f.parent = workDir then some f.name
    else match t.byId? f.parent with
      | some d => (t.pathOf? n d).map fun p => p ++ Path.separator :: f.name
      | none => none

/-- Everything below the working directory, by path. -/
def listing (t : Tree) : List (Path × File) :=
  (t.files.filterMap fun f => (t.pathOf? t.files.length f).map fun p => (p, f)).mergeSort
    fun a b => decide (a.1 ≤ b.1)

end Tree

end LocalIpc

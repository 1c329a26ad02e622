import LocalIpc.Host.Walk
/-!
# Operations on files

What the system does with a path: look at a file, make, remove, move and open it.
-/

namespace LocalIpc.Tree

/-- What the system tells of a file. -/
structure Status where
  id : FileId
  kind : FileKind
  deriving DecidableEq

def Place.status : Place → Except IoError Status
  | .within dir => .ok ⟨dir, .directory⟩
  | .file f => .ok ⟨f.id, f.kind⟩
  | .free .. => .error .notFound
  | .overlong => .error .nameTooLong

/-- The file at a path, be it a symbolic link. -/
def status (t : Tree) (path : Path) : Except IoError Status := do (← t.resolve .keep path).status

/-- The file that a path leads to in the end. -/
def target (t : Tree) (path : Path) : Except IoError Status := do (← t.resolve .follow path).status

/-- The permission bits of a new file in `dir`. A directory takes over the bit that makes files
belong to the group of the directory they are made in. -/
def modeIn (t : Tree) (dir : FileId) (kind : FileKind) (mode : UInt32) : UInt32 :=
  if kind = .directory then mode ||| (t.modeOf dir &&& 0o2000) else mode

/-- Makes a file at a name that is free. Only a directory may be named with a separator at the
end. The identities that are `held` do not go to the file. -/
def make (t : Tree) (held : List FileId) (kind : FileKind) (mode : UInt32) (path : Path) :
    Except IoError (FileId × Tree) := do
  match ← t.locate path with
  | .free dir name =>
    if kind ≠ .directory ∧ path.endsInSeparator then .error .notFound
    else match t.frozen? dir with
      | some e => .error e
      | none => .ok (t.add held dir name kind (t.modeIn dir kind mode))
  | .overlong => .error .nameTooLong
  | _ => .error .fileExists

/-- Opens a regular file for writing, and makes it when there is none. -/
def write (t : Tree) (held : List FileId) (mode : UInt32) (path : Path) : Except IoError Tree := do
  let _ ← t.locate path
  if path.endsInSeparator then .error .isDirectory
  else match ← t.resolve .create path with
    | .free dir name =>
      match t.frozen? dir with
      | some e => .error e
      | none => .ok (t.add held dir name .regular mode).2
    | .overlong => .error .nameTooLong
    | .within _ => .error .isDirectory
    | .file f =>
      if f.kind = .directory then .error .isDirectory
      else if f.kind = .socket then .error .noSuchDevice
      else .ok t

/-- Removes a file that is no directory, unless the directory that it is in keeps it. -/
def unlink (t : Tree) (path : Path) : Except IoError Tree := do
  match ← t.locate path with
  | .within _ => .error .isDirectory
  | .free .. => .error .notFound
  | .overlong => .error .nameTooLong
  | .file f =>
    if path.endsInSeparator then
      .error (if f.kind = .directory then .isDirectory else .notDirectory)
    else match t.frozen? f.parent with
      | some e => .error e
      | none => if f.kind = .directory then .error .isDirectory else .ok (t.erase f.id)

def changeMode (t : Tree) (path : Path) (mode : UInt32) : Except IoError Tree := do
  .ok (t.setMode (← t.target path).id (mode &&& 0o7777))

/-- What keeps `f` from taking the place of `g`. -/
def replaceError? (t : Tree) (f g : File) : Option IoError :=
  let n := t.files.length
  if f.kind = .directory ∧ t.isWithin f.id n g.parent then some .invalidArgument
  else if g.kind = .directory ∧ t.isWithin g.id n f.parent then some .directoryNotEmpty
  else if f.kind = .directory ∧ g.kind ≠ .directory then some .notDirectory
  else if f.kind ≠ .directory ∧ g.kind = .directory then some .isDirectory
  else if f.id = devices ∨ g.id = devices then some .deviceBusy
  else if g.kind = .directory ∧ t.isEmptyDir g.id = false then some .directoryNotEmpty
  else none

/-- Two paths whose last parts are in directories of one file system. -/
def onOneSystem (t : Tree) (path onto : Path) : Bool :=
  match t.parentPlace path, t.parentPlace onto with
  | .ok (.within d), .ok (.within e) => t.isOnDevices d == t.isOnDevices e
  | _, _ => true

/-- The error that keeps a file from being moved from one directory to another one. -/
def frozenAt? (t : Tree) (dir goal : FileId) : Option IoError := (t.frozen? dir).or (t.frozen? goal)

/-- Moves a file to another name on the same file system, in place of what has that name. -/
def rename (t : Tree) (path onto : Path) : Except IoError Tree := do
  let start ← t.locate path
  let goal ← t.locate onto
  if t.onOneSystem path onto = false then .error .crossesDevices
  else match start, goal with
  | .within _, _ | _, .within _ => .error .deviceBusy
  | .free .., _ => .error .notFound
  | .overlong, _ | .file _, .overlong => .error .nameTooLong
  | .file f, goal =>
    if f.kind ≠ .directory ∧ (path.endsInSeparator ∨ onto.endsInSeparator) then .error .notDirectory
    else match goal with
      | .free dir name =>
        if f.kind = .directory ∧ t.isWithin f.id t.files.length dir then .error .invalidArgument
        else if f.id = devices then .error .deviceBusy
        else match t.frozenAt? f.parent dir with
          | some e => .error e
          | none => .ok (t.move f.id dir name)
      | .file g =>
        if f.id = g.id then .ok t
        else match (t.frozenAt? f.parent g.parent).or (t.replaceError? f g) with
          | some e => .error e
          | none => .ok ((t.erase g.id).move f.id g.parent g.name)
      | _ => .error .deviceBusy

end LocalIpc.Tree

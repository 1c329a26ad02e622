import LocalIpc.Host.Tree
/-!
# Walking along a path

How a path leads to a file. Every name before the last has to lead to a directory; symbolic links on
the way are followed, up to a limit, and the last name is followed on demand.
-/

namespace LocalIpc

namespace Path

def up : Bytes := [dot, dot]

def endsInSeparator (p : Path) : Bool := p.getLast? == some separator

/-- The parts between the separators, `.` and `..` included. -/
def steps (p : Path) : List Bytes := (parts p).filter (· ≠ [])

/-- The names of a walk. A separator at the end asks for the directory itself, as `.` does. -/
def turns (p : Path) : List Bytes := steps p ++ if endsInSeparator p then [[dot]] else []

/-- The names of a walk to the directory that the last part of the path is in. -/
def turnsToParent (p : Path) : List Bytes := (steps p).dropLast ++ [[dot]]

end Path

namespace Tree

/-- Where a walk ends. -/
inductive Place
  /-- In a directory that the path does not name, such as `.` or the root. -/
  | within (dir : FileId)
  | file (f : File)
  /-- At a name that a directory does not have. -/
  | free (dir : FileId) (name : Bytes)
  /-- At a name that is too long for any file. -/
  | overlong
  deriving DecidableEq

/-- What a walk does with a symbolic link at its last name. -/
inductive LastLink
  | keep
  | follow
  /-- Follows it to where a file may be made. A link that ends in a separator asks for a directory
  there, and that is an error before anyone looks whether there is one. -/
  | create
  deriving DecidableEq

/-- The longest name of a file. -/
def maxName : Nat := 255

/-- Paths have to be shorter than this. -/
def maxPath : Nat := 4096

/-- How many symbolic links one walk follows. -/
def maxLinks : Nat := 40

def startOf (dir : FileId) (p : Path) : FileId := if p.isAbsolute then root else dir

/-- Walks from a directory along names. A symbolic link on the way goes on with `jump`, from the
directory where the link starts. -/
def walkWith (t : Tree) (last : LastLink) (jump : FileId → List Bytes → Except IoError Place) :
    FileId → List Bytes → Except IoError Place
  | dir, [] => .ok (.within dir)
  | dir, name :: rest =>
    if name = [Path.dot] then walkWith t last jump dir rest
    else if name = Path.up then walkWith t last jump (t.parentOf dir) rest
    else if maxName < name.length then
      if rest = [] then .ok .overlong else .error .nameTooLong
    else match t.find? dir name with
      | none => if rest = [] then .ok (.free dir name) else .error .notFound
      | some f =>
        match f.kind with
        | .symlink target =>
          if rest = [] ∧ last = .keep then .ok (.file f)
          else if rest = [] ∧ last = .create ∧ target.endsInSeparator then
            (jump (startOf dir target) target.turnsToParent).bind fun _ => .error .isDirectory
          else jump (startOf dir target) (target.turns ++ rest)
        | .directory => if rest = [] then .ok (.file f) else walkWith t last jump f.id rest
        | _ => if rest = [] then .ok (.file f) else .error .notDirectory

/-- Walks and follows at most `links` symbolic links. -/
def walk (t : Tree) (last : LastLink) : Nat → FileId → List Bytes → Except IoError Place
  | 0 => t.walkWith last fun _ _ => .error .tooManyLinks
  | links + 1 => t.walkWith last (t.walk last links)

/-- Walks along a path from the working directory or the root. -/
def go (t : Tree) (last : LastLink) (path : Path) (turns : List Bytes) : Except IoError Place :=
  if path = [] then .error .notFound
  else if maxPath ≤ path.length then .error .nameTooLong
  else t.walk last maxLinks (startOf workDir path) turns

/-- The place that a path leads to. -/
def resolve (t : Tree) (last : LastLink) (path : Path) : Except IoError Place :=
  t.go last path path.turns

/-- The place of the last name of a path, for making, removing or moving it. A separator at its end
is left to the caller. -/
def locate (t : Tree) (path : Path) : Except IoError Place :=
  t.go .keep path path.steps

/-- The place of the directory that the last part of a path is in. -/
def parentPlace (t : Tree) (path : Path) : Except IoError Place :=
  t.go .keep path path.turnsToParent

end Tree

end LocalIpc

import LocalIpc.Text.Split
import LocalIpc.Text.Utf8
/-!
# Paths

A path is a byte string. Two paths are the same when their components are: separators in a row, a
separator at the end and a `.` after the start do not count.
-/

namespace LocalIpc

abbrev Path := Bytes

namespace Path

def separator : UInt8 := 0x2F

def dot : UInt8 := 0x2E

/-- The parts of a path between its separators, empty parts included. -/
def parts (p : Path) : List Bytes := Text.split separator p

def isAbsolute : Path → Bool
  | b :: _ => b == separator
  | [] => false

inductive Component
  | root
  | here
  | name (bytes : Bytes)
  deriving DecidableEq

/-- The parts that name something, in order. -/
def names (p : Path) : List Bytes := (parts p).filter fun n => n ≠ [] ∧ n ≠ [dot]

/-- The components of a path. A `.` counts only as the first part of a relative path. -/
def components (p : Path) : List Component :=
  (if isAbsolute p then [.root] else if (parts p).head? = some [dot] then [.here] else [])
    ++ (names p).map .name

/-- Two paths that have the same components. -/
def same (p q : Path) : Bool := components p == components q

end Path

end LocalIpc

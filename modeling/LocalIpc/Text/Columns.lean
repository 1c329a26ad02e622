import LocalIpc.Text.Columns.Following
/-!
# Display columns

How many columns of a terminal a text takes: those of its characters, save where neighbours are
drawn together.
-/

namespace LocalIpc.Text

/-- The columns of a text, and what it begins with. -/
def columnsFrom (cs : List Char) : Int × Following :=
  cs.foldr (fun c after =>
    let (added, next) := Following.cons c after.2
    (after.1 + added, next)) (0, .nothing)

def columns (s : String) : Nat := (columnsFrom s.toList).1.toNat

end LocalIpc.Text

import LocalIpc.Text.Columns
import LocalIpc.Text.Split
/-!
# Tables

Cells in ruled boxes. A column is as wide as the widest line in it, with one blank on either side;
a cell of several lines makes its row as high.
-/

namespace LocalIpc.Text

/-- The rules and corners of a horizontal line. -/
structure Rule where
  left : Char
  line : Char
  cross : Char
  right : Char

namespace Table

def top : Rule := ⟨'┌', '─', '┬', '┐'⟩
def underHeader : Rule := ⟨'╞', '═', '╪', '╡'⟩
def betweenRows : Rule := ⟨'├', '╌', '┼', '┤'⟩
def bottom : Rule := ⟨'└', '─', '┴', '┘'⟩

def cellWidth (cell : String) : Nat := ((lines cell).map columns).foldl max 0

/-- The widths of the columns of rows of equal length. -/
def widths : List (List String) → List Nat
  | [] => []
  | [row] => row.map cellWidth
  | row :: rows => List.zipWith max (row.map cellWidth) (widths rows)

def blanks (n : Nat) : String := String.ofList (List.replicate n ' ')

/-- A line of a cell, filled up with blanks. -/
def pad (width : Nat) (line : String) : String :=
  " " ++ line ++ blanks (width - columns line) ++ " "

def ruled (ws : List Nat) (r : Rule) : String :=
  let bars := ws.map fun w => String.ofList (List.replicate (w + 2) r.line)
  r.left.toString ++ String.intercalate r.cross.toString bars ++ r.right.toString

def height (row : List String) : Nat := (row.map fun cell => (lines cell).length).foldl max 1

/-- The lines of a row. A cell that has no such line is blank there. -/
def rowLines (ws : List Nat) (row : List String) : List String :=
  (List.range (height row)).map fun i =>
    let cells := List.zipWith (fun w cell => pad w ((lines cell).getD i "")) ws row
    "│" ++ String.intercalate "┆" cells ++ "│"

/-- A table with a header. -/
def render (header : List String) (rows : List (List String)) : String :=
  let ws := widths (header :: rows)
  let body := (rows.map (rowLines ws)).intersperse [ruled ws betweenRows]
  String.intercalate "\n"
    ([ruled ws top] ++ rowLines ws header ++ [ruled ws underHeader] ++ body.flatten
      ++ [ruled ws bottom])

end Table

end LocalIpc.Text

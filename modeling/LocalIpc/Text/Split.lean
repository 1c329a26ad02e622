/-!
# Splitting
-/

namespace LocalIpc.Text

/-- The parts of a list between the places where `sep` stands, empty parts included. -/
def split {α : Type} [DecidableEq α] (sep : α) : List α → List (List α)
  | [] => [[]]
  | a :: rest =>
    if a = sep then [] :: split sep rest
    else match split sep rest with
      | [] => [[a]]
      | p :: ps => (a :: p) :: ps

/-- The lines of a text. -/
def lines (s : String) : List String := (split '\n' s.toList).map String.ofList

end LocalIpc.Text

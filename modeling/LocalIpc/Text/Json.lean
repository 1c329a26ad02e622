import LocalIpc.Text.Quoted
/-!
# JSON

Texts, numbers and objects as JSON. Every control character of a text is escaped, so that what is
written stays on one line.
-/

namespace LocalIpc.Json

def escapeChar (c : Char) : List Char :=
  if c = '"' then ['\\', '"']
  else if c = '\\' then ['\\', '\\']
  else if c = '\x08' then ['\\', 'b']
  else if c = '\t' then ['\\', 't']
  else if c = '\n' then ['\\', 'n']
  else if c = '\x0c' then ['\\', 'f']
  else if c = '\r' then ['\\', 'r']
  else if c.toNat < 0x10 then ['\\', 'u', '0', '0', '0'] ++ Text.hexDigits c.toNat
  else if c.toNat < 0x20 then ['\\', 'u', '0', '0'] ++ Text.hexDigits c.toNat
  else [c]

/-- A text. -/
def text (s : String) : String := String.ofList ('"' :: s.toList.flatMap escapeChar ++ ['"'])

def number (n : Int) : String := toString n

/-- An object of members whose values are written already, in the given order. -/
def object (members : List (String × String)) : String :=
  "\x7b" ++ String.intercalate "," (members.map fun m => text m.1 ++ ":" ++ m.2) ++ "\x7d"

/-- A library that writes JSON. -/
structure Writer where
  text : String → String
  number : Int → String
  /-- An object of members whose values are written already, unless the writing fails. -/
  object : List (String × String) → Option String

def writer : Writer := ⟨text, number, fun members => some (object members)⟩

end LocalIpc.Json

/-!
# UTF-8

Byte strings and the text in them. `pieces` cuts any byte string into characters and runs of bytes
that belong to none; `decode?` reads a byte string that is text throughout, and `lossy` reads any
byte string, with a replacement character for each run that is no text.
-/

namespace LocalIpc

/-- A byte string: a path, a payload or an argument, text or not. -/
abbrev Bytes := List UInt8

namespace Text

/-- A part of a byte string: one character, or a longest run of bytes that starts a character and
cannot be finished as one. -/
inductive Piece
  | char (c : Char)
  | bad (bytes : Bytes)
  deriving DecidableEq

/-- A character of which some bytes have come. The next byte has to lie in `low..high`. -/
structure Begun where
  held : Bytes
  missing : Nat
  low : UInt8
  high : UInt8
  deriving DecidableEq

/-- What a first byte begins: a lead byte fixes how many bytes follow and which second bytes keep
the character shortest, outside the surrogates and below `0x110000`. -/
def begin? (b : UInt8) : Option Begun :=
  if 0xC2 ≤ b ∧ b ≤ 0xDF then some ⟨[b], 1, 0x80, 0xBF⟩
  else if b = 0xE0 then some ⟨[b], 2, 0xA0, 0xBF⟩
  else if b = 0xED then some ⟨[b], 2, 0x80, 0x9F⟩
  else if 0xE1 ≤ b ∧ b ≤ 0xEF then some ⟨[b], 2, 0x80, 0xBF⟩
  else if b = 0xF0 then some ⟨[b], 3, 0x90, 0xBF⟩
  else if 0xF1 ≤ b ∧ b ≤ 0xF3 then some ⟨[b], 3, 0x80, 0xBF⟩
  else if b = 0xF4 then some ⟨[b], 3, 0x80, 0x8F⟩
  else none

/-- The code point of a whole sequence: the low bits of the lead byte, then six of each other. -/
def codePoint : Bytes → Nat
  | [a] => a.toNat
  | [a, b] => a.toNat % 32 * 64 + b.toNat % 64
  | [a, b, c] => (a.toNat % 16 * 64 + b.toNat % 64) * 64 + c.toNat % 64
  | [a, b, c, d] => ((a.toNat % 8 * 64 + b.toNat % 64) * 64 + c.toNat % 64) * 64 + d.toNat % 64
  | _ => 0

/-- A byte at the start of a character. -/
def first (b : UInt8) : List Piece × Option Begun :=
  if b < 0x80 then ([.char (Char.ofNat b.toNat)], none)
  else match begin? b with
    | some s => ([], some s)
    | none => ([.bad [b]], none)

/-- The next byte. A byte that cannot go on with the begun character starts anew. -/
def step : Option Begun → UInt8 → List Piece × Option Begun
  | none, b => first b
  | some s, b =>
    if s.low ≤ b ∧ b ≤ s.high then
      if s.missing = 1 then ([.char (Char.ofNat (codePoint (s.held ++ [b])))], none)
      else ([], some ⟨s.held ++ [b], s.missing - 1, 0x80, 0xBF⟩)
    else (.bad s.held :: (first b).1, (first b).2)

def piecesFrom : Option Begun → Bytes → List Piece
  | none, [] => []
  | some s, [] => [.bad s.held]
  | s, b :: rest => (step s b).1 ++ piecesFrom (step s b).2 rest

/-- The characters of a byte string and the runs between them that are no text. -/
def pieces (bs : Bytes) : List Piece := piecesFrom none bs

/-- The character of a piece, with U+FFFD for a run that is no text. -/
def Piece.shown : Piece → Char
  | .char c => c
  | .bad _ => Char.ofNat 0xFFFD

def Piece.char? : Piece → Option Char
  | .char c => some c
  | .bad _ => none

/-- The text of a byte string that is text throughout. -/
def decode? (bs : Bytes) : Option String :=
  ((pieces bs).mapM Piece.char?).map String.ofList

/-- The text of any byte string: each run that is no text becomes one U+FFFD. -/
def lossy (bs : Bytes) : String := String.ofList ((pieces bs).map Piece.shown)

/-- The bytes of a text. -/
def encode (s : String) : Bytes := s.toList.flatMap String.utf8EncodeChar

end Text

end LocalIpc

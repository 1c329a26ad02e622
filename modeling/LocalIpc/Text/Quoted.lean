import LocalIpc.Text.Utf8
import LocalIpc.Text.Hidden
/-!
# Quoted byte strings

A byte string between double quotes, so that a reader can tell every byte of it: hidden characters
are written by their code point and bytes that are no text by their value.
-/

namespace LocalIpc.Text

/-- The digits of `n` in base 16, with small letters. -/
def hexDigits (n : Nat) : List Char := Nat.toDigits 16 n

/-- Two digits of base 16, with capital letters. -/
def hexByte (b : UInt8) : List Char :=
  let digit (n : Nat) : Char := if n < 10 then Char.ofNat (48 + n) else Char.ofNat (55 + n)
  [digit (b.toNat / 16), digit (b.toNat % 16)]

def quotedChar (c : Char) : List Char :=
  if c = '\x00' then ['\\', '0']
  else if c = '\t' then ['\\', 't']
  else if c = '\r' then ['\\', 'r']
  else if c = '\n' then ['\\', 'n']
  else if c = '"' then ['\\', '"']
  else if c = '\\' then ['\\', '\\']
  else if isHidden c then ['\\', 'u', '\x7b'] ++ hexDigits c.toNat ++ ['\x7d']
  else [c]

def quotedPiece : Piece → List Char
  | .char c => quotedChar c
  | .bad bytes => bytes.flatMap fun b => '\\' :: 'x' :: hexByte b

/-- The byte string between double quotes. -/
def quoted (bs : Bytes) : String :=
  String.ofList ('"' :: (pieces bs).flatMap quotedPiece ++ ['"'])

end LocalIpc.Text

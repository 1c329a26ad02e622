/-!
# JSON values

What a JSON text says. Any JSON text is read: with blanks between its parts, with every escape of a
text, with fractions and exponents, and with values inside values.
-/

namespace LocalIpc.Json

/-- A number is exact, `mantissa * 10 ^ exponent`. The members of an object stand in the order in
which they are written. -/
inductive Value
  | null
  | boolean (b : Bool)
  | number (mantissa exponent : Int)
  | text (s : String)
  | array (items : List Value)
  | object (members : List (String × Value))

def Value.integer (n : Int) : Value := .number n 0

/-! ## Texts -/

/-- A part of a text: a character, or a unit of sixteen bits written by its number. -/
inductive Item
  | char (c : Char)
  | unit (n : Nat)

def hexValue? (c : Char) : Option Nat :=
  if c.isDigit then some (c.toNat - 0x30)
  else if 'a' ≤ c ∧ c ≤ 'f' then some (c.toNat - 0x57)
  else if 'A' ≤ c ∧ c ≤ 'F' then some (c.toNat - 0x37)
  else none

/-- The number written in digits of base 16. -/
def hexNumber? (digits : List Char) : Option Nat :=
  digits.foldlM (fun n c => (hexValue? c).map fun d => 16 * n + d) 0

/-- What a letter after a backslash stands for. -/
def escaped? (c : Char) : Option Char :=
  if c = '"' ∨ c = '\\' ∨ c = '/' then some c
  else if c = 'b' then some '\x08'
  else if c = 'f' then some '\x0c'
  else if c = 'n' then some '\n'
  else if c = 'r' then some '\r'
  else if c = 't' then some '\t'
  else none

/-- The parts of a text up to the quotation mark that ends it, and what comes after that. -/
def items? : List Char → Option (List Item × List Char)
  | [] => none
  | '"' :: rest => some ([], rest)
  | '\\' :: 'u' :: a :: b :: c :: d :: rest => do
    let n ← hexNumber? [a, b, c, d]
    let (items, rest) ← items? rest
    some (.unit n :: items, rest)
  | '\\' :: c :: rest => do
    let c ← escaped? c
    let (items, rest) ← items? rest
    some (.char c :: items, rest)
  | c :: rest => do
    if c.toNat < 0x20 then none
    let (items, rest) ← items? rest
    some (.char c :: items, rest)

/-- The characters of a text. A character past the first 65536 is written as two units. -/
def chars? : List Item → Option (List Char)
  | [] => some []
  | .char c :: rest => (chars? rest).map (c :: ·)
  | .unit n :: rest =>
    if n < 0xD800 ∨ 0xDFFF < n then (chars? rest).map (Char.ofNat n :: ·)
    else if n < 0xDC00 then
      match rest with
      | .unit m :: rest =>
        if 0xDC00 ≤ m ∧ m ≤ 0xDFFF then
          (chars? rest).map (Char.ofNat (0x10000 + (n - 0xD800) * 0x400 + (m - 0xDC00)) :: ·)
        else none
      | _ => none
    else none

/-- A text whose first quotation mark has been read. -/
def text? (cs : List Char) : Option (String × List Char) := do
  let (items, rest) ← items? cs
  let s ← chars? items
  some (String.ofList s, rest)

/-! ## Numbers -/

def digits? (cs : List Char) : Option (List Char × List Char) :=
  match cs.takeWhile Char.isDigit with
  | [] => none
  | d :: ds => some (d :: ds, cs.dropWhile Char.isDigit)

/-- The digits before the point. No other digit follows a zero at the start. -/
def whole? (cs : List Char) : Option (List Char × List Char) :=
  match digits? cs with
  | some ('0' :: _ :: _, _) => none
  | r => r

def fraction? : List Char → Option (List Char × List Char)
  | '.' :: rest => digits? rest
  | cs => some ([], cs)

def exponent? : List Char → Option (Int × List Char)
  | c :: rest =>
    if c = 'e' ∨ c = 'E' then
      match rest with
      | '-' :: rest => (digits? rest).map fun r => (-(Nat.ofDigitChars 10 r.1 0 : Int), r.2)
      | '+' :: rest => (digits? rest).map fun r => ((Nat.ofDigitChars 10 r.1 0 : Int), r.2)
      | rest => (digits? rest).map fun r => ((Nat.ofDigitChars 10 r.1 0 : Int), r.2)
    else some (0, c :: rest)
  | [] => some (0, [])

/-- A number without its sign. -/
def unsigned? (cs : List Char) : Option ((Nat × Int) × List Char) := do
  let (whole, rest) ← whole? cs
  let (part, rest) ← fraction? rest
  let (e, rest) ← exponent? rest
  some ((Nat.ofDigitChars 10 (whole ++ part) 0, e - part.length), rest)

def number? : List Char → Option (Value × List Char)
  | '-' :: rest => (unsigned? rest).map fun r => (.number (-r.1.1) r.1.2, r.2)
  | cs => (unsigned? cs).map fun r => (.number r.1.1 r.1.2, r.2)

/-! ## Values -/

def isBlank (c : Char) : Bool := c == ' ' || c == '\t' || c == '\n' || c == '\r'

def skipBlank (cs : List Char) : List Char := cs.dropWhile isBlank

mutual

/-- A value at the start of a text, and what comes after it. The first argument bounds how deep the
reading goes. -/
def value? : Nat → List Char → Option (Value × List Char)
  | 0, _ => none
  | n + 1, cs =>
    match skipBlank cs with
    | 'n' :: 'u' :: 'l' :: 'l' :: rest => some (.null, rest)
    | 't' :: 'r' :: 'u' :: 'e' :: rest => some (.boolean true, rest)
    | 'f' :: 'a' :: 'l' :: 's' :: 'e' :: rest => some (.boolean false, rest)
    | '"' :: rest => (text? rest).map fun r => (.text r.1, r.2)
    | '[' :: rest =>
      match skipBlank rest with
      | ']' :: rest => some (.array [], rest)
      | _ => (elements? n rest).map fun r => (.array r.1, r.2)
    | '\x7b' :: rest =>
      match skipBlank rest with
      | '\x7d' :: rest => some (.object [], rest)
      | _ => (members? n rest).map fun r => (.object r.1, r.2)
    | cs => number? cs

/-- The values of an array up to its end. -/
def elements? : Nat → List Char → Option (List Value × List Char)
  | 0, _ => none
  | n + 1, cs => do
    let (v, rest) ← value? n cs
    match skipBlank rest with
    | ']' :: rest => some ([v], rest)
    | ',' :: rest =>
      let (vs, rest) ← elements? n rest
      some (v :: vs, rest)
    | _ => none

/-- The members of an object up to its end. -/
def members? : Nat → List Char → Option (List (String × Value) × List Char)
  | 0, _ => none
  | n + 1, cs =>
    match skipBlank cs with
    | '"' :: rest => do
      let (name, rest) ← text? rest
      match skipBlank rest with
      | ':' :: rest =>
        let (v, rest) ← value? n rest
        match skipBlank rest with
        | '\x7d' :: rest => some ([(name, v)], rest)
        | ',' :: rest =>
          let (ms, rest) ← members? n rest
          some ((name, v) :: ms, rest)
        | _ => none
      | _ => none
    | _ => none

end

/-- The value of a text that is JSON from its start to its end. No value goes deeper than its text
is long. -/
def read? (s : String) : Option Value :=
  match value? (s.toList.length + 1) s.toList with
  | some (v, rest) => if skipBlank rest = [] then some v else none
  | none => none

end LocalIpc.Json

import LocalIpc.Text.Columns.Pictures
import LocalIpc.Text.Columns.Scripts
/-!
# Characters that share columns

Some neighbours are drawn together and take fewer or more columns than each takes on its own. A text
is read from its end: `Following.cons` counts a character in the light of what follows it, and says
what the character before it will have to know.
-/

namespace LocalIpc.Text

/-- What begins the text that follows, as far as the character before it may join on. -/
inductive Form
  | plain
  | lineFeed
  | tone
  /-- One letter of a flag. -/
  | flagLetter
  /-- Two letters of flags or more. -/
  | flagLetters
  | picture
  /-- A joiner and a picture. -/
  | joinedPicture
  /-- A keycap, a joiner and a picture. -/
  | joinedKeycap
  /-- So many letters of flags, at least one, a joiner and a picture. -/
  | joinedFlags (letters : Nat)
  /-- The last `letters` letters of a region, the end of its tag, a joiner and a picture. -/
  | joinedRegion (letters : Nat)
  /-- The same, with digits before any letters. -/
  | joinedNumber (digits : Nat)
  | alef
  /-- The Hebrew letter lamed; like the letters below, with or without a joiner before it. -/
  | lamed (joined : Bool)
  | bugineseYa (joined : Bool)
  /-- The Buginese vowel sign i, a joiner and the letter ya. -/
  | bugineseIYa
  | tifinagh (joined : Bool)
  /-- The Tifinagh joiner and a consonant. -/
  | joinedTifinagh
  | lisuTone
  | orkhonI (joined : Bool)
  | khmerSubscript
  /-- The Kirat Rai vowel sign e, at the head of an odd run of them. -/
  | kiratE
  /-- Two Kirat Rai vowel signs e, which make an ai. -/
  | kiratAi
  deriving DecidableEq

namespace Form

/-- A letter that may be drawn together with the letter before it. -/
def isLetter : Form → Bool
  | alef | lamed _ | bugineseYa _ | bugineseIYa | tifinagh _ | joinedTifinagh | lisuTone
  | orkhonI _ | khmerSubscript | kiratE | kiratAi => true
  | _ => false

/-- A joiner before a picture, so that a picture before the joiner takes no columns of its own. -/
def isJoined : Form → Bool
  | joinedPicture | joinedKeycap => true
  | _ => false

/-- The form with a joiner before it, for a form that a joiner leaves together with the letter
before. -/
def joined? : Form → Option Form
  | lamed _ => some (lamed true)
  | bugineseYa _ => some (bugineseYa true)
  | tifinagh _ => some (tifinagh true)
  | orkhonI _ => some (orkhonI true)
  | alef => none
  | f => if f.isLetter then some f else none

/-- The form of a character that joins nothing after it. -/
def ofChar (c : Char) : Form :=
  if c = '\n' then lineFeed
  else if isTone c then tone
  else if isFlagLetter c then flagLetter
  else if isPicture c then picture
  else if isAlef c then alef
  else if c = '\u05DC' then lamed false
  else if c = '\u1A10' then bugineseYa false
  else if isTifinaghConsonant c then tifinagh false
  else if isLisuToneTail c then lisuTone
  else if c.toNat = 0x10C03 then orkhonI false
  else if isKhmerSubscript c then khmerSubscript
  else if c.toNat = 0x16D67 then kiratE
  else if c.toNat = 0x16D68 then kiratAi
  else plain

end Form

/-- What a selector asks of the character before it. -/
inductive Selector
  /-- The picture form, `U+FE0F`. -/
  | picture
  /-- The text form, `U+FE0E`. -/
  | text
  /-- The wide form of a quotation mark, `U+FE01`. -/
  | wide
  deriving DecidableEq

def Selector.ofChar? (c : Char) : Option Selector :=
  if c = '\uFE0F' then some .picture
  else if c = '\uFE0E' then some .text
  else if c = '\uFE01' then some .wide
  else none

/-- What follows a character: a form, with a selector before it or none. -/
structure Following where
  form : Form
  selector : Option Selector
  deriving DecidableEq

namespace Following

/-- Nothing follows, or nothing that a character could join on. -/
def nothing : Following := ⟨.plain, none⟩

/-- A selector in front of `f`. It parts all but letters, and the selector of a picture leaves a
picture with the joiner. -/
def select (f : Following) (s : Selector) : Following :=
  if f.form.isLetter || (s == .picture && f.form.isJoined) then ⟨f.form, some s⟩
  else ⟨.plain, some s⟩

/-- What follows when the selector asks nothing of the character before it. -/
def unselected (f : Following) : Form :=
  if f.selector.isSome && !f.form.isLetter then .plain else f.form

end Following

/-- The columns that a character adds, and the form it makes of the form after it. -/
abbrev Joining := Int × Form

/-- The joiner of pictures and letters. -/
def joiner : Char := '\u200D'

/-- Letters that are drawn together with the letter after them. The Tifinagh joiner counts as a
column, which the consonant before it gives back. -/
def joinLetter? (next : Form) (c : Char) : Option Joining :=
  match next with
  | .alef => if isLam c then some (0, .plain) else if isArabicMark c then some (0, .alef) else none
  | .lamed true => if c = '\u05D0' then some (0, .plain) else none
  | .khmerSubscript => if c = '\u17D2' then some (-1, .plain) else none
  | .bugineseYa true => if c = '\u1A17' then some (0, .bugineseIYa) else none
  | .bugineseIYa => if c = '\u1A15' then some (0, .plain) else none
  | .tifinagh joined =>
    if c = '\u2D7F' then some (1, .joinedTifinagh)
    else if joined && isTifinaghConsonant c then some (0, .plain)
    else none
  | .joinedTifinagh => if isTifinaghConsonant c then some (-1, .plain) else none
  | .lisuTone => if isLisuToneHead c then some (0, .plain) else none
  | .orkhonI true => if c.toNat = 0x10C32 then some (0, .plain) else none
  | .kiratE =>
    if c.toNat = 0x16D63 ∨ c.toNat = 0x16D69 then some (0, .plain)
    else if c.toNat = 0x16D67 then some (0, .kiratAi)
    else if c.toNat = 0x16D68 then some (1, .kiratE)
    else none
  | .kiratAi => if c.toNat = 0x16D63 then some (0, .plain) else none
  | _ => none

/-- Letters of flags. Before a joiner an even run of them counts two columns less than on its own:
its last pair is the flag that is drawn in the picture. -/
def joinFlag? (next : Form) (c : Char) : Option Joining :=
  if isFlagLetter c then
    match next with
    | .flagLetter | .flagLetters => some (1, .flagLetters)
    | .joinedPicture => some (1, .joinedFlags 1)
    | .joinedFlags n => some (if n % 2 = 1 then -1 else 3, .joinedFlags (n + 1))
    | _ => none
  else none

/-- The tag that makes a black flag the flag of a region: three to six letters, or three digits and
up to four letters. -/
def joinRegion? (next : Form) (c : Char) : Option Joining :=
  match next with
  | .joinedPicture => if c.toNat = 0xE007F then some (0, .joinedRegion 0) else none
  | .joinedRegion n =>
    if isTagLetter c ∧ n < 6 then some (0, .joinedRegion (n + 1))
    else if isTagDigit c ∧ n ≤ 4 then some (0, .joinedNumber 1)
    else if c.toNat = 0x1F3F4 ∧ 3 ≤ n then some (0, .picture)
    else none
  | .joinedNumber n =>
    if isTagDigit c ∧ n < 3 then some (0, .joinedNumber (n + 1))
    else if c.toNat = 0x1F3F4 ∧ n = 3 then some (0, .picture)
    else none
  | _ => none

/-- Pictures before a skin tone or a joiner. -/
def joinPicture? (next : Form) (c : Char) : Option Joining :=
  match next with
  | .tone =>
    if takesTone c then some (0, .picture)
    else if c = joiner then some (0, .joinedPicture)
    else none
  | .picture | .flagLetters => if c = joiner then some (0, .joinedPicture) else none
  | .joinedFlags n => if c = joiner ∧ 2 ≤ n then some (0, .joinedPicture) else none
  | .joinedPicture =>
    if c = '\u20E3' then some (0, .joinedKeycap)
    else if isTone c then some (0, .tone)
    else if isPicture c then some (0, .picture)
    else none
  | _ => none

/-- A character that joins the form after it, if it does. A joiner or a mark between the letters of
a pair leaves them together. -/
def join? (next : Form) (c : Char) : Option Joining :=
  match next.joined? with
  | some form =>
    if c = joiner then some (0, form)
    else if isIgnorableMark c then some (0, next)
    else joinLetter? next c
  | none =>
    (joinLetter? next c).or ((joinFlag? next c).or ((joinRegion? next c).or (joinPicture? next c)))

/-- The columns that `c` adds in front of what follows, and what then follows the character before
it. -/
def Following.cons (c : Char) (next : Following) : Int × Following :=
  if next.selector = some .picture ∧ hasTwoForms c then
    (if next.form.isJoined then 0 else 2, ⟨.picture, none⟩)
  else if c = '\r' ∧ next = ⟨.lineFeed, none⟩ then (0, nothing)
  else if c.toNat ≤ 0xA0 then (1, ⟨.ofChar c, none⟩)
  else match Selector.ofChar? c with
    | some s => (0, select ⟨next.unselected, none⟩ s)
    | none =>
      if next.selector = some .text ∧ narrowsAsText c then (1, nothing)
      else if next.selector = some .wide ∧ isQuotationMark c then (2, nothing)
      else match join? next.unselected c with
        | some (columns, form) => (columns, ⟨form, none⟩)
        | none => (charColumns c, ⟨.ofChar c, none⟩)

end LocalIpc.Text

import LocalIpc.Text.Utf8
import Mathlib.Data.List.Basic
/-!
# Text and its bytes

A byte string is read as text just when it is the bytes of that text. The reader takes one byte at
a time; `Begun.Finishes` says which bytes it waits for after a first one, and `Whole` which byte
strings are one character.
-/

namespace LocalIpc.Text

/-! ## Whole characters -/

/-- The begun character with one byte more. -/
def Begun.next (s : Begun) (b : UInt8) : Begun := ⟨s.held ++ [b], s.missing - 1, 0x80, 0xBF⟩

/-- These bytes finish a begun character. -/
def Begun.Finishes : Begun → Bytes → Prop
  | _, [] => False
  | s, b :: bs => (s.low ≤ b ∧ b ≤ s.high) ∧
    if s.missing = 1 then bs = [] else Finishes (s.next b) bs

/-- These bytes are one character. -/
def Whole : Bytes → Prop
  | [] => False
  | b :: bs => if b < 0x80 then bs = [] else ∃ s, begin? b = some s ∧ s.Finishes bs

theorem finishes_cons {s : Begun} {b : UInt8} {bs : Bytes} : s.Finishes (b :: bs) ↔
    (s.low ≤ b ∧ b ≤ s.high) ∧ if s.missing = 1 then bs = [] else (s.next b).Finishes bs := Iff.rfl

theorem whole_cons {b : UInt8} {bs : Bytes} : Whole (b :: bs) ↔
    if b < 0x80 then bs = [] else ∃ s, begin? b = some s ∧ s.Finishes bs := Iff.rfl

/-- The three kinds of first bytes, by how many bytes follow. The second byte keeps the code point
from being one that a shorter character has, a surrogate, or past the last one. -/
theorem exists_begin? {b : UInt8} {P : Begun → Prop} : (∃ s, begin? b = some s ∧ P s) ↔
    (0xC2 ≤ b.toNat ∧ b.toNat ≤ 0xDF ∧ P ⟨[b], 1, 0x80, 0xBF⟩) ∨
    (0xE0 ≤ b.toNat ∧ b.toNat ≤ 0xEF ∧ P ⟨[b], 2, if b.toNat = 0xE0 then 0xA0 else 0x80,
      if b.toNat = 0xED then 0x9F else 0xBF⟩) ∨
    (0xF0 ≤ b.toNat ∧ b.toNat ≤ 0xF4 ∧ P ⟨[b], 3, if b.toNat = 0xF0 then 0x90 else 0x80,
      if b.toNat = 0xF4 then 0x8F else 0xBF⟩) := by
  unfold begin?
  simp only [UInt8.le_iff_toNat_le, ← UInt8.toNat_inj, UInt8.reduceToNat]
  split_ifs <;> simp only [Option.some.injEq, exists_eq_left', false_and, exists_false,
    false_iff] <;> grind

/-- A byte that is not the first of its character. -/
def IsTail (b : UInt8) : Prop := 0x80 ≤ b.toNat ∧ b.toNat ≤ 0xBF

section Lengths

variable {a b c d : UInt8} {bs : Bytes}

theorem whole_one : Whole [a] ↔ a.toNat < 0x80 := by
  simp only [Whole, UInt8.lt_iff_toNat_lt, UInt8.reduceToNat, Begun.Finishes]
  grind

theorem whole_two : Whole [a, b] ↔
    (0xC0 ≤ a.toNat ∧ a.toNat < 0xE0) ∧ IsTail b ∧ 0x80 ≤ codePoint [a, b] := by
  simp only [Whole, exists_begin?, Begun.Finishes, UInt8.lt_iff_toNat_lt, UInt8.le_iff_toNat_le,
    UInt8.reduceToNat, IsTail, codePoint]
  grind

theorem whole_three : Whole [a, b, c] ↔ (0xE0 ≤ a.toNat ∧ a.toNat < 0xF0) ∧ IsTail b ∧ IsTail c ∧
    0x800 ≤ codePoint [a, b, c] ∧
    (codePoint [a, b, c] < 0xD800 ∨ 0xDFFF < codePoint [a, b, c]) := by
  simp only [Whole, exists_begin?, Begun.Finishes, Begun.next, UInt8.lt_iff_toNat_lt,
    UInt8.le_iff_toNat_le, apply_ite UInt8.toNat, UInt8.reduceToNat, IsTail, codePoint]
  grind

theorem whole_four : Whole [a, b, c, d] ↔ (0xF0 ≤ a.toNat ∧ a.toNat < 0xF8) ∧
    IsTail b ∧ IsTail c ∧ IsTail d ∧
    0x10000 ≤ codePoint [a, b, c, d] ∧ codePoint [a, b, c, d] < 0x110000 := by
  simp only [Whole, exists_begin?, Begun.Finishes, Begun.next, UInt8.lt_iff_toNat_lt,
    UInt8.le_iff_toNat_le, apply_ite UInt8.toNat, UInt8.reduceToNat, IsTail, codePoint]
  grind

theorem not_whole_five {e : UInt8} : ¬ Whole (a :: b :: c :: d :: e :: bs) := by
  simp only [Whole, exists_begin?, Begun.Finishes, Begun.next]
  grind

end Lengths

/-- The bytes of a character are one character, with its code point. -/
theorem whole_encodeChar (c : Char) :
    Whole (String.utf8EncodeChar c) ∧ codePoint (String.utf8EncodeChar c) = c.toNat := by
  have hvalid : c.toNat < 0xD800 ∨ 0xDFFF < c.toNat ∧ c.toNat < 0x110000 := c.valid
  unfold String.utf8EncodeChar
  simp only [show c.val.toNat = c.toNat from rfl]
  split_ifs with h1 h2 h3
  · simp only [whole_one, codePoint, UInt8.toNat_ofNat']
    omega
  · simp only [whole_two, IsTail, codePoint, UInt8.toNat_ofNat']
    omega
  · simp only [whole_three, IsTail, codePoint, UInt8.toNat_ofNat']
    omega
  · simp only [whole_four, IsTail, codePoint, UInt8.toNat_ofNat']
    omega

theorem encodeChar_ofNat {n : Nat} (h : n.isValidChar) : String.utf8EncodeChar (Char.ofNat n) =
    if n ≤ 0x7F then [UInt8.ofNat n]
    else if n ≤ 0x7FF then [UInt8.ofNat (n / 64 % 32 + 0xC0), UInt8.ofNat (n % 64 + 0x80)]
    else if n ≤ 0xFFFF then [UInt8.ofNat (n / 4096 % 16 + 0xE0), UInt8.ofNat (n / 64 % 64 + 0x80),
      UInt8.ofNat (n % 64 + 0x80)]
    else [UInt8.ofNat (n / 262144 % 8 + 0xF0), UInt8.ofNat (n / 4096 % 64 + 0x80),
      UInt8.ofNat (n / 64 % 64 + 0x80), UInt8.ofNat (n % 64 + 0x80)] := by
  have hval : (Char.ofNat n).val.toNat = n := by
    rw [Char.ofNat, dif_pos h]
    rfl
  unfold String.utf8EncodeChar
  simp only [hval]

/-- What is one character is the bytes of the character of its code point. -/
theorem encodeChar_of_whole {w : Bytes} (h : Whole w) :
    String.utf8EncodeChar (Char.ofNat (codePoint w)) = w := by
  rcases w with _ | ⟨a, _ | ⟨b, _ | ⟨c, _ | ⟨d, _ | ⟨e, rest⟩⟩⟩⟩⟩
  · exact h.elim
  · have ha := whole_one.mp h
    rw [codePoint, encodeChar_ofNat (.inl (by omega)), if_pos (by omega), UInt8.ofNat_toNat]
  · obtain ⟨ha, hb, hcode⟩ := whole_two.mp h
    unfold IsTail at hb
    simp only [codePoint] at *
    rw [encodeChar_ofNat (.inl (by omega)), if_neg (by omega), if_pos (by omega)]
    simp only [List.cons.injEq, ← UInt8.toNat_inj, UInt8.toNat_ofNat', and_true]
    omega
  · obtain ⟨ha, hb, hc, hcode, hsurrogate⟩ := whole_three.mp h
    unfold IsTail at hb hc
    simp only [codePoint] at *
    rw [encodeChar_ofNat (by unfold Nat.isValidChar; omega), if_neg (by omega), if_neg (by omega),
      if_pos (by omega)]
    simp only [List.cons.injEq, ← UInt8.toNat_inj, UInt8.toNat_ofNat', and_true]
    omega
  · obtain ⟨ha, hb, hc, hd, hcode, hlast⟩ := whole_four.mp h
    unfold IsTail at hb hc hd
    simp only [codePoint] at *
    rw [encodeChar_ofNat (.inr ⟨by omega, hlast⟩), if_neg (by omega), if_neg (by omega),
      if_neg (by omega)]
    simp only [List.cons.injEq, ← UInt8.toNat_inj, UInt8.toNat_ofNat', and_true]
    omega
  · exact absurd h not_whole_five

/-! ## What the reader makes of a character -/

/-- One byte into a begun character, and the rest of it is waited for. -/
theorem step_begun {s : Begun} {b : UInt8} (h : s.low ≤ b ∧ b ≤ s.high) : step (some s) b =
    if s.missing = 1 then ([.char (Char.ofNat (codePoint (s.held ++ [b])))], none)
    else ([], some (s.next b)) := by
  simp only [step, if_pos h, Begun.next]

theorem begin?_held {b : UInt8} {s : Begun} (h : begin? b = some s) : s.held = [b] := by
  unfold begin? at h
  split_ifs at h <;> cases h <;> rfl

/-- A finished character is read whole, and the reader starts anew after it. -/
theorem piecesFrom_of_finishes {s : Begun} {fin : Bytes} (h : s.Finishes fin) (rest : Bytes) :
    piecesFrom (some s) (fin ++ rest) =
      .char (Char.ofNat (codePoint (s.held ++ fin))) :: pieces rest := by
  induction fin generalizing s with
  | nil => exact h.elim
  | cons b fin ih =>
    obtain ⟨hb, hfin⟩ := finishes_cons.mp h
    rw [List.cons_append, piecesFrom, step_begun hb]
    by_cases hone : s.missing = 1
    · rw [if_pos hone] at hfin ⊢
      rw [hfin]
      rfl
    · rw [if_neg hone] at hfin ⊢
      rw [List.nil_append, ih hfin, Begun.next, List.append_assoc]
      rfl

/-- A character that comes out of a begun one is finished by the bytes that came first. -/
theorem finishes_of_piecesFrom {s : Begun} {bs : Bytes} {c : Char} {ps : List Piece}
    (h : piecesFrom (some s) bs = .char c :: ps) : ∃ fin rest, bs = fin ++ rest ∧ s.Finishes fin ∧
      c = Char.ofNat (codePoint (s.held ++ fin)) ∧ pieces rest = ps := by
  induction bs generalizing s with
  | nil => nomatch h
  | cons b bs ih =>
    by_cases hb : s.low ≤ b ∧ b ≤ s.high
    · rw [piecesFrom, step_begun hb] at h
      by_cases hone : s.missing = 1
      · rw [if_pos hone] at h
        obtain ⟨hc, hps⟩ := List.cons.inj h
        cases hc
        exact ⟨[b], bs, rfl, finishes_cons.mpr ⟨hb, by rw [if_pos hone]⟩, rfl, hps⟩
      · rw [if_neg hone] at h
        obtain ⟨fin, rest, rfl, hfin, hc, hrest⟩ := ih h
        refine ⟨b :: fin, rest, rfl, finishes_cons.mpr ⟨hb, by rwa [if_neg hone]⟩, ?_, hrest⟩
        rw [hc, Begun.next, List.append_assoc]
        rfl
    · rw [piecesFrom, step, if_neg hb] at h
      nomatch h

theorem pieces_of_whole {w : Bytes} (h : Whole w) (rest : Bytes) :
    pieces (w ++ rest) = .char (Char.ofNat (codePoint w)) :: pieces rest := by
  rcases w with _ | ⟨b, fin⟩
  · exact h.elim
  · rw [whole_cons] at h
    rw [pieces, List.cons_append, piecesFrom, step, first]
    by_cases hb : b < 0x80
    · rw [if_pos hb] at h ⊢
      rw [h]
      rfl
    · rw [if_neg hb] at h ⊢
      obtain ⟨s, hs, hfin⟩ := h
      rw [hs, List.nil_append, piecesFrom_of_finishes hfin, begin?_held hs]
      rfl

theorem whole_of_pieces {bs : Bytes} {c : Char} {ps : List Piece}
    (h : pieces bs = .char c :: ps) : ∃ w rest, bs = w ++ rest ∧ Whole w ∧
      c = Char.ofNat (codePoint w) ∧ pieces rest = ps := by
  rcases bs with _ | ⟨b, bs⟩
  · nomatch h
  · rw [pieces, piecesFrom, step, first] at h
    by_cases hb : b < 0x80
    · rw [if_pos hb] at h
      obtain ⟨hc, hps⟩ := List.cons.inj h
      cases hc
      exact ⟨[b], bs, rfl, whole_cons.mpr (by rw [if_pos hb]), rfl, hps⟩
    · rw [if_neg hb] at h
      cases hs : begin? b with
      | none =>
        rw [hs] at h
        nomatch h
      | some s =>
        rw [hs, List.nil_append] at h
        obtain ⟨fin, rest, rfl, hfin, hc, hrest⟩ := finishes_of_piecesFrom h
        rw [begin?_held hs] at hc
        exact ⟨b :: fin, rest, rfl, whole_cons.mpr (by rw [if_neg hb]; exact ⟨s, hs, hfin⟩), hc,
          hrest⟩

theorem pieces_eq_nil_iff {bs : Bytes} : pieces bs = [] ↔ bs = [] := by
  constructor
  · intro h
    rcases bs with _ | ⟨b, bs⟩
    · rfl
    · have hbegun : ∀ s bs, piecesFrom (some s) bs ≠ [] := by
        intro s bs
        induction bs generalizing s with
        | nil => exact List.cons_ne_nil _ _
        | cons b bs ih =>
          rw [piecesFrom, step]
          split_ifs
          · exact List.cons_ne_nil _ _
          · exact ih _
          · exact List.cons_ne_nil _ _
      rw [pieces, piecesFrom, step, first] at h
      split_ifs at h
      · nomatch h
      · cases hs : begin? b with
        | none =>
          rw [hs] at h
          nomatch h
        | some s =>
          rw [hs] at h
          exact absurd h (hbegun s bs)
  · rintro rfl
    rfl

/-! ## Text throughout -/

/-- The characters of a text are read one after the other, whatever comes after them. -/
theorem pieces_chars_append (cs : List Char) (rest : Bytes) :
    pieces (cs.flatMap String.utf8EncodeChar ++ rest) = cs.map Piece.char ++ pieces rest := by
  induction cs with
  | nil => rfl
  | cons c cs ih =>
    obtain ⟨hw, hcode⟩ := whole_encodeChar c
    rw [List.flatMap_cons, List.append_assoc, pieces_of_whole hw, ih, hcode, Char.ofNat_toNat]
    rfl

/-- A byte string reads as these characters and nothing else just when it is their bytes. -/
theorem pieces_eq_chars_iff {bs : Bytes} {cs : List Char} :
    pieces bs = cs.map Piece.char ↔ bs = cs.flatMap String.utf8EncodeChar := by
  constructor
  · intro h
    induction cs generalizing bs with
    | nil => exact pieces_eq_nil_iff.mp h
    | cons c cs ih =>
      obtain ⟨w, rest, rfl, hw, rfl, hrest⟩ := whole_of_pieces h
      rw [List.flatMap_cons, encodeChar_of_whole hw, ih hrest]
  · rintro rfl
    have h := pieces_chars_append cs []
    rwa [List.append_nil, pieces_eq_nil_iff.mpr rfl, List.append_nil] at h

theorem pieces_encode (s : String) : pieces (encode s) = s.toList.map Piece.char :=
  pieces_eq_chars_iff.mpr rfl

theorem pieces_encode_append (s : String) (rest : Bytes) :
    pieces (encode s ++ rest) = s.toList.map Piece.char ++ pieces rest :=
  pieces_chars_append s.toList rest

theorem mapM_char?_eq_some_iff {ps : List Piece} {cs : List Char} :
    ps.mapM Piece.char? = some cs ↔ ps = cs.map Piece.char := by
  induction ps generalizing cs with
  | nil => cases cs <;> simp
  | cons p ps ih =>
    cases p with
    | char c => cases cs <;> simp [Piece.char?, Option.bind_eq_some_iff, ih, and_comm]
    | bad bs => cases cs <;> simp [Piece.char?]

/-- A byte string is a text just when it is the bytes of that text. -/
theorem decode?_eq_some_iff {bs : Bytes} {s : String} : decode? bs = some s ↔ bs = encode s := by
  rw [decode?, Option.map_eq_some_iff, encode, ← pieces_eq_chars_iff]
  constructor
  · rintro ⟨cs, hcs, rfl⟩
    rw [String.toList_ofList]
    exact mapM_char?_eq_some_iff.mp hcs
  · intro h
    exact ⟨s.toList, mapM_char?_eq_some_iff.mpr h, String.ofList_toList⟩

end LocalIpc.Text

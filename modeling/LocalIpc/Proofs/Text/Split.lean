import LocalIpc.Text.Split
import LocalIpc.Proofs.Text.Utf8
/-!
# Parts of a byte string

A list comes back from its parts, so different lists have different parts. A separator of one byte
ends every begun character, so a byte string is read part by part.
-/

namespace LocalIpc.Text

/-! ## Parts of a list -/

section Split

variable {α : Type} [DecidableEq α] {sep : α} {front rest : List α}

theorem split_ne_nil (sep : α) (l : List α) : split sep l ≠ [] := by
  cases l with
  | nil => exact List.cons_ne_nil _ _
  | cons a l =>
    unfold split
    split
    · exact List.cons_ne_nil _ _
    · split <;> exact List.cons_ne_nil _ _

theorem split_of_not_mem (h : sep ∉ front) : split sep front = [front] := by
  induction front with
  | nil => rfl
  | cons a front ih =>
    have ha : a ≠ sep := fun heq => h (heq ▸ List.mem_cons_self ..)
    rw [split, if_neg ha, ih fun hm => h (List.mem_cons_of_mem _ hm)]

theorem split_append (h : sep ∉ front) :
    split sep (front ++ sep :: rest) = front :: split sep rest := by
  induction front with
  | nil => rw [List.nil_append, split, if_pos rfl]
  | cons a front ih =>
    have ha : a ≠ sep := fun heq => h (heq ▸ List.mem_cons_self ..)
    rw [List.cons_append, split, if_neg ha, ih fun hm => h (List.mem_cons_of_mem _ hm)]

/-- What holds of a list without the separator, and of a part in front of others when it holds of
those, holds of every list. -/
theorem induction_on_split {motive : List α → Prop} (sep : α)
    (last : ∀ front, sep ∉ front → motive front)
    (part : ∀ front rest, sep ∉ front → motive rest → motive (front ++ sep :: rest))
    (l : List α) : motive l := by
  induction hn : l.length using Nat.strongRecOn generalizing l with
  | _ n ih =>
    by_cases hmem : sep ∈ l
    · obtain ⟨front, rest, rfl, hfront⟩ := List.eq_append_cons_of_mem hmem
      apply part front rest hfront
      exact ih rest.length (by simp [← hn]; omega) rest rfl
    · exact last l hmem

/-- The parts with the separator between them are the list. -/
theorem intercalate_split (sep : α) (l : List α) : [sep].intercalate (split sep l) = l := by
  induction l using induction_on_split sep with
  | last front h => simp [split_of_not_mem h, List.intercalate]
  | part front rest h ih =>
    rw [split_append h]
    obtain ⟨p, ps, hps⟩ := List.exists_cons_of_ne_nil (split_ne_nil sep rest)
    rw [hps] at ih ⊢
    rw [← ih]
    simp [List.intercalate]

/-- What is put in front of a list, without the separator, is put in front of its first part. -/
theorem split_append_left (h : sep ∉ front) {part : List α} {others : List (List α)}
    (hrest : split sep rest = part :: others) :
    split sep (front ++ rest) = (front ++ part) :: others := by
  induction front with
  | nil => exact hrest
  | cons a front ih =>
    have ha : a ≠ sep := fun heq => h (heq ▸ List.mem_cons_self ..)
    rw [List.cons_append, split, if_neg ha, ih fun hm => h (List.mem_cons_of_mem _ hm)]
    rfl

theorem split_inj {l m : List α} : split sep l = split sep m ↔ l = m := by
  constructor
  · intro h
    rw [← intercalate_split sep l, h, intercalate_split]
  · rintro rfl
    rfl

end Split

/-! ## Pieces of a byte string -/

/-- The bytes that make a piece. -/
def Piece.bytes : Piece → Bytes
  | .char c => String.utf8EncodeChar c
  | .bad bytes => bytes

/-- A run that is no text begins with what was begun. -/
theorem run_of_piecesFrom {s : Begun} {bs run : Bytes} {ps : List Piece}
    (h : piecesFrom (some s) bs = .bad run :: ps) :
    ∃ more rest, bs = more ++ rest ∧ run = s.held ++ more ∧ pieces rest = ps := by
  induction bs generalizing s with
  | nil =>
    rw [piecesFrom] at h
    cases h
    exact ⟨[], [], rfl, (List.append_nil _).symm, rfl⟩
  | cons b bs ih =>
    by_cases hb : s.low ≤ b ∧ b ≤ s.high
    · rw [piecesFrom, step_begun hb] at h
      by_cases hone : s.missing = 1
      · rw [if_pos hone] at h
        cases h
      · rw [if_neg hone] at h
        obtain ⟨more, rest, rfl, rfl, hrest⟩ := ih h
        exact ⟨b :: more, rest, rfl, by simp [Begun.next], hrest⟩
    · rw [piecesFrom, step, if_neg hb] at h
      obtain ⟨hrun, hps⟩ := List.cons.inj h
      cases hrun
      exact ⟨[], b :: bs, rfl, (List.append_nil _).symm, hps⟩

/-- The first piece is made of the first bytes. -/
theorem exists_rest_of_pieces {bs : Bytes} {p : Piece} {ps : List Piece}
    (h : pieces bs = p :: ps) : ∃ rest, bs = p.bytes ++ rest ∧ pieces rest = ps := by
  cases p with
  | char c =>
    obtain ⟨w, rest, rfl, hw, rfl, hrest⟩ := whole_of_pieces h
    exact ⟨rest, by rw [Piece.bytes, encodeChar_of_whole hw], hrest⟩
  | bad run =>
    rcases bs with _ | ⟨b, bs⟩
    · cases h
    · rw [pieces, piecesFrom, step, first] at h
      split_ifs at h
      · cases h
      · cases hs : begin? b with
        | none =>
          rw [hs] at h
          obtain ⟨hrun, hps⟩ := List.cons.inj h
          cases hrun
          exact ⟨bs, rfl, hps⟩
        | some s =>
          rw [hs, List.nil_append] at h
          obtain ⟨more, rest, rfl, rfl, hrest⟩ := run_of_piecesFrom h
          exact ⟨rest, by simp [Piece.bytes, begin?_held hs], hrest⟩

/-- No byte is lost between the pieces. -/
theorem flatMap_bytes_pieces (bs : Bytes) : (pieces bs).flatMap Piece.bytes = bs := by
  generalize hps : pieces bs = ps
  induction ps generalizing bs with
  | nil => exact (pieces_eq_nil_iff.mp hps).symm
  | cons p ps ih =>
    obtain ⟨rest, rfl, hrest⟩ := exists_rest_of_pieces hps
    rw [List.flatMap_cons, ih rest hrest]

/-! ## Reading part by part -/

/-- No byte below `0x80` goes on with the begun character. -/
def Begun.Refuses (s : Option Begun) : Prop := ∀ t ∈ s, 0x80 ≤ t.low.toNat

theorem refuses_first (b : UInt8) : Begun.Refuses (first b).2 := by
  unfold Begun.Refuses first begin?
  split_ifs <;> simp

theorem refuses_step {s : Option Begun} (h : Begun.Refuses s) (b : UInt8) :
    Begun.Refuses (step s b).2 := by
  cases s with
  | none => exact refuses_first b
  | some s =>
    simp only [step]
    split_ifs
    · simp [Begun.Refuses]
    · simp [Begun.Refuses]
    · exact refuses_first b

theorem piecesFrom_append_ascii {s : Option Begun} (hs : Begun.Refuses s) {a : UInt8}
    (ha : a < 0x80) (front rest : Bytes) :
    piecesFrom s (front ++ a :: rest) =
      piecesFrom s front ++ .char (Char.ofNat a.toNat) :: pieces rest := by
  have hfirst : first a = ([.char (Char.ofNat a.toNat)], none) := by rw [first, if_pos ha]
  induction front generalizing s with
  | nil =>
    cases s with
    | none => simp [piecesFrom, step, hfirst, pieces]
    | some s =>
      have hlow : 0x80 ≤ s.low.toNat := hs s rfl
      have hout : ¬ (s.low ≤ a ∧ a ≤ s.high) := by
        simp only [UInt8.lt_iff_toNat_lt, UInt8.le_iff_toNat_le, UInt8.reduceToNat] at ha ⊢
        omega
      simp [piecesFrom, step, if_neg hout, hfirst, pieces]
  | cons b front ih =>
    rw [List.cons_append, piecesFrom, ih (refuses_step hs b), ← List.append_assoc, ← piecesFrom]

/-- A byte that is a character of its own parts what is before it from what is behind it. -/
theorem lossy_append_ascii {a : UInt8} (ha : a < 0x80) (front rest : Bytes) :
    (lossy (front ++ a :: rest)).toList =
      (lossy front).toList ++ Char.ofNat a.toNat :: (lossy rest).toList := by
  unfold lossy
  rw [pieces, piecesFrom_append_ascii (s := none) (by simp [Begun.Refuses]) ha]
  simp [Piece.shown, pieces]

theorem encodeChar_ascii {a : UInt8} (ha : a < 0x80) :
    String.utf8EncodeChar (Char.ofNat a.toNat) = [a] :=
  encodeChar_of_whole (w := [a]) (whole_one.mpr (by simpa [UInt8.lt_iff_toNat_lt] using ha))

/-- Such a character stands in the text only for its byte. -/
theorem mem_of_mem_lossy {a : UInt8} (ha : a < 0x80) {bs : Bytes}
    (h : Char.ofNat a.toNat ∈ (lossy bs).toList) : a ∈ bs := by
  have hencode := encodeChar_ascii ha
  unfold lossy at h
  rw [String.toList_ofList] at h
  obtain ⟨p, hp, hshown⟩ := List.mem_map.mp h
  rw [← flatMap_bytes_pieces bs]
  refine List.mem_flatMap.mpr ⟨p, hp, ?_⟩
  cases p with
  | char c =>
    rw [Piece.shown] at hshown
    rw [Piece.bytes, hshown, hencode]
    exact List.mem_singleton_self a
  | bad run =>
    -- the replacement character has other bytes
    rw [Piece.shown] at hshown
    rw [← hshown] at hencode
    have hlong : 3 = 1 := congrArg List.length hencode
    contradiction

/-- A text without the replacement character is the text of its own bytes alone. -/
theorem eq_encode_of_lossy {bs : Bytes} {s : String} (h : lossy bs = s)
    (hs : Char.ofNat 0xFFFD ∉ s.toList) : bs = encode s := by
  subst h
  rw [lossy, String.toList_ofList] at hs
  have hchars : ∀ p ∈ pieces bs, (Piece.char ∘ Piece.shown) p = p := by
    intro p hp
    cases p with
    | char c => rfl
    | bad run => exact absurd (List.mem_map.mpr ⟨_, hp, rfl⟩) hs
  rw [encode, lossy, String.toList_ofList, ← pieces_eq_chars_iff, List.map_map,
    List.map_congr_left hchars, List.map_id']

/-- The text of a byte string has the texts of its parts for parts. -/
theorem split_lossy {a : UInt8} (ha : a < 0x80) (bs : Bytes) :
    split (Char.ofNat a.toNat) (lossy bs).toList = (split a bs).map fun p => (lossy p).toList := by
  induction bs using induction_on_split a with
  | last front h => rw [split_of_not_mem h, split_of_not_mem (mt (mem_of_mem_lossy ha) h)]; rfl
  | part front rest h ih =>
    rw [lossy_append_ascii ha, split_append h, split_append (mt (mem_of_mem_lossy ha) h), ih]
    rfl

end LocalIpc.Text

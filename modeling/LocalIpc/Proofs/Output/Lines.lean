import LocalIpc.Proofs.Output.Event
import LocalIpc.Proofs.Session.Receiving
import LocalIpc.Proofs.Text.Split
/-!
# Lines of events

What is put out is read line by line. An event in JSON has one line. For a person it has one line
and another for each line break of its preview, and those come from the client.
-/

namespace LocalIpc

/-! ## Lines of an output -/

namespace Text

/-- The lines of an output. Each is ended by a line break. -/
def endedLines (out : Bytes) : List Bytes := (split 0x0A out).dropLast

/-- A line break ends the last line of what is before it. -/
theorem endedLines_append (front rest : Bytes) :
    endedLines (front ++ 0x0A :: rest) = split 0x0A front ++ endedLines rest := by
  unfold endedLines
  induction front using induction_on_split (0x0A : UInt8) with
  | last front h =>
    rw [split_append h, split_of_not_mem h, List.dropLast_cons_of_ne_nil (split_ne_nil _ _)]
    rfl
  | part first others h ih =>
    rw [List.append_assoc, List.cons_append, split_append h, split_append h,
      List.dropLast_cons_of_ne_nil (split_ne_nil _ _), ih]
    rfl

/-- Where every text is followed by a line break, the lines are those of the texts. -/
theorem endedLines_flatMap (texts : List Bytes) :
    endedLines (texts.flatMap (· ++ [0x0A])) = texts.flatMap (split 0x0A) := by
  induction texts with
  | nil => rfl
  | cons text texts ih =>
    rw [List.flatMap_cons, List.flatMap_cons, List.append_assoc, List.singleton_append,
      endedLines_append, ih]

theorem endedLines_of_unbroken {texts : List Bytes} (h : ∀ text ∈ texts, 0x0A ∉ text) :
    endedLines (texts.flatMap (· ++ [0x0A])) = texts := by
  rw [endedLines_flatMap]
  induction texts with
  | nil => rfl
  | cons text texts ih =>
    obtain ⟨htext, hrest⟩ := List.forall_mem_cons.mp h
    rw [List.flatMap_cons, split_of_not_mem htext, ih hrest]
    rfl

/-- No text is lost between the lines. -/
theorem flatMap_split (text : Bytes) :
    (split 0x0A text).flatMap (· ++ [0x0A]) = text ++ [0x0A] := by
  induction text using induction_on_split (0x0A : UInt8) with
  | last front h => rw [split_of_not_mem h, List.flatMap_singleton]
  | part front rest h ih => rw [split_append h, List.flatMap_cons, ih]; simp

theorem flatMap_endedLines (texts : List Bytes) :
    (endedLines (texts.flatMap (· ++ [0x0A]))).flatMap (· ++ [0x0A]) =
      texts.flatMap (· ++ [0x0A]) := by
  simp only [endedLines_flatMap, List.flatMap_assoc, flatMap_split]

theorem length_split {α : Type} [DecidableEq α] (sep : α) (l : List α) :
    (split sep l).length = l.count sep + 1 := by
  induction l using induction_on_split sep with
  | last front h => rw [split_of_not_mem h, List.count_eq_zero_of_not_mem h]; rfl
  | part front rest h ih =>
    rw [split_append h, List.length_cons, ih, List.count_append, List.count_eq_zero_of_not_mem h,
      List.count_cons_self, Nat.zero_add]

/-- There is a line for each text at least, and no other unless a text has a line break. -/
theorem length_endedLines_flatMap (texts : List Bytes) :
    texts.length ≤ (endedLines (texts.flatMap (· ++ [0x0A]))).length ∧
      ((endedLines (texts.flatMap (· ++ [0x0A]))).length = texts.length ↔
        ∀ text ∈ texts, 0x0A ∉ text) := by
  rw [endedLines_flatMap]
  induction texts with
  | nil => simp
  | cons text texts ih =>
    obtain ⟨hle, hiff⟩ := ih
    rw [List.forall_mem_cons, ← hiff, ← List.count_eq_zero, List.flatMap_cons, List.length_append,
      length_split, List.length_cons]
    omega

theorem encode_append (s s' : String) : encode (s ++ s') = encode s ++ encode s' := by
  simp [encode]

/-- Among the bytes of a text there is a line break just when there is one in the text. -/
theorem mem_encode_iff {a : UInt8} (ha : a < 0x80) (s : String) :
    a ∈ encode s ↔ Char.ofNat a.toNat ∈ s.toList := by
  have hread : lossy (encode s) = s := by
    simp [lossy, pieces_encode, Function.comp_def, Piece.shown]
  constructor
  · intro h
    obtain ⟨front, rest, hsplit, -⟩ := List.eq_append_cons_of_mem h
    have htext := lossy_append_ascii ha front rest
    rw [← hsplit, hread] at htext
    simp [htext]
  · intro h
    exact mem_of_mem_lossy ha (by rwa [hread])

end Text

/-! ## Lines of an event -/

namespace Event

/-- A line break in the text. -/
def Breaks (s : String) : Prop := '\n' ∈ s.toList

theorem not_breaks_toJson (e : Event) : ¬ Breaks e.toJson := fun h =>
  absurd (e.shown_of_mem_toJson _ h) (by decide)

theorem not_breaks_digits (n : Nat) : '\n' ∉ Nat.toDigits 10 n := fun h =>
  absurd (Nat.isDigit_of_mem_toDigits (by decide) (by decide) h) (by decide)

theorem not_breaks_int (n : Int) : '\n' ∉ (toString n).toList := fun h =>
  absurd ((Json.number_written n).shown _ h) (by decide)

/-- The line for a person has no line break but those of the transport and the preview. -/
theorem breaks_toLine_iff {e : Event} (htransport : ¬ Breaks e.transport) :
    Breaks e.toLine ↔ Breaks e.preview := by
  have hhandle := not_breaks_int e.handle.toInt
  unfold Breaks at *
  simp_all [toLine, not_breaks_digits]

/-- A number in a preview is no line break. -/
theorem not_breaks_binary (n : Nat) : ¬ Breaks (Preview.binary n) := by
  simp [Breaks, Preview.binary, not_breaks_digits]

/-- The preview of a payload has a line break just when the bytes that are shown have one and are
text. -/
theorem breaks_preview_iff (data : Bytes) : Breaks (Received.of data).preview ↔
    0x0A ∈ data.take Preview.limit ∧ ∃ s, data.take Preview.limit = Text.encode s := by
  by_cases htext : ∃ s, data.take Preview.limit = Text.encode s
  · obtain ⟨s, hs⟩ := htext
    rw [Preview.preview_of_text hs, Preview.ofPayload_of_text hs, and_iff_left ⟨s, hs⟩, hs,
      Text.mem_encode_iff (by decide)]
    split
    · simp [Breaks]
    · rfl
  · rw [Preview.preview_of_no_text (not_exists.mp htext)]
    exact iff_of_false (not_breaks_binary _) fun h => htext h.2

end Event

end LocalIpc

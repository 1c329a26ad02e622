import LocalIpc.Session.Reception
import LocalIpc.Proofs.Text.Utf8
/-!
# What a client sent, and what is shown of it

The bytes that a client's reads deliver are counted in full, and one more of them is kept than a
preview shows, however they were split. The preview of a text is text when a character ends at the
limit, and the bytes that are kept have the preview of the whole when there is text to show or
nothing is left out.
-/

namespace LocalIpc

/-! ## What reads deliver -/

/-- Reads that give these bytes before the end of the stream, or before the failure that ends them.
A read that was interrupted gives nothing and ends nothing. -/
inductive Delivers : List (Except IoError Bytes) → Bytes → Option IoError → Prop
  | hungUp : Delivers [] [] none
  | ended (rest : List (Except IoError Bytes)) : Delivers (.ok [] :: rest) [] none
  | broken {e : IoError} (broken : e.kind ≠ .interrupted) (rest : List (Except IoError Bytes)) :
      Delivers (.error e :: rest) [] (some e)
  | again {e : IoError} {rest : List (Except IoError Bytes)} {data : Bytes}
      {failure : Option IoError} (interrupted : e.kind = .interrupted)
      (others : Delivers rest data failure) : Delivers (.error e :: rest) data failure
  | piece {first : Bytes} {rest : List (Except IoError Bytes)} {data : Bytes}
      {failure : Option IoError} (some : first ≠ []) (others : Delivers rest data failure) :
      Delivers (.ok first :: rest) (first ++ data) failure

/-- Every list of results delivers something. -/
theorem exists_delivers (reads : List (Except IoError Bytes)) :
    ∃ data failure, Delivers reads data failure := by
  induction reads with
  | nil => exact ⟨[], none, .hungUp⟩
  | cons r rest ih =>
    obtain ⟨data, failure, h⟩ := ih
    cases r with
    | ok first =>
      by_cases hfirst : first = []
      · exact ⟨[], none, hfirst ▸ .ended rest⟩
      · exact ⟨first ++ data, failure, .piece hfirst h⟩
    | error e =>
      by_cases he : e.kind = .interrupted
      · exact ⟨data, failure, .again he h⟩
      · exact ⟨[], some e, .broken he rest⟩

/-- What is kept of these bytes: the first of them, and how many they are. -/
def Received.of (data : Bytes) : Received := ⟨data.take headLimit, data.length⟩

theorem Received.add_of (data more : Bytes) : (Received.of data).add more = .of (data ++ more) := by
  unfold add of
  rw [List.take_append, List.length_take, List.length_append]
  congr 2
  -- the room left is the same whether or not the head is full
  by_cases hfull : data.length ≤ headLimit
  · rw [Nat.min_eq_right hfull]
  · rw [Nat.min_eq_left (by omega)]
    congr 1
    omega

theorem receiveFrom_of_delivers {reads : List (Except IoError Bytes)} {data : Bytes}
    {failure : Option IoError} (h : Delivers reads data failure) (before : Bytes) :
    receiveFrom (.of before) reads = ⟨.of (before ++ data), data, failure⟩ := by
  induction h generalizing before with
  | hungUp => rw [receiveFrom, List.append_nil]
  | ended rest => rw [receiveFrom, if_pos rfl, List.append_nil]
  | broken hbroken rest => rw [receiveFrom, if_neg hbroken, List.append_nil]
  | again hinterrupted _ ih => rw [receiveFrom, if_pos hinterrupted, ih]
  | piece hsome _ ih => rw [receiveFrom, if_neg hsome, Received.add_of, ih, List.append_assoc]

/-- A reception depends on the bytes and not on how the reads split them. -/
theorem receive_of_delivers {reads : List (Except IoError Bytes)} {data : Bytes}
    {failure : Option IoError} (h : Delivers reads data failure) :
    receive reads = ⟨.of data, data, failure⟩ := receiveFrom_of_delivers h []

/-! ## Previews -/

namespace Preview

/-- What stands for a payload that is no text. -/
def binary (size : Nat) : String := "<binary " ++ toString size ++ " bytes>"

theorem ofPayload_of_text {payload : Bytes} {s : String} (h : payload.take limit = Text.encode s) :
    ofPayload payload = if limit < payload.length then s ++ "..." else s := by
  unfold ofPayload
  rw [Text.decode?_eq_some_iff.mpr h]

theorem ofPayload_of_no_text {payload : Bytes} (h : ∀ s, payload.take limit ≠ Text.encode s) :
    ofPayload payload = binary payload.length := by
  unfold ofPayload
  rw [Option.eq_none_iff_forall_ne_some.mpr fun s hs => h s (Text.decode?_eq_some_iff.mp hs)]
  rfl

theorem binary_injective : Function.Injective binary := fun m n h => by
  unfold binary at h
  rw [String.append_left_inj, String.append_right_inj, Nat.toString_eq_ofList_toDigits,
    Nat.toString_eq_ofList_toDigits, String.ofList_inj] at h
  rw [← Nat.ofDigitChars_ten_toDigits (n := m), h, Nat.ofDigitChars_ten_toDigits]

theorem text_dots_ne_binary (s : String) (size : Nat) : s ++ "..." ≠ binary size := fun h => by
  have hlast := congrArg (fun t : String => t.toList.getLast?) h
  simp [binary, List.getLast?_cons, List.getLast?_append] at hlast

/-! ### The preview of a text -/

/-- How a text should be shown: whole when it fits, and else by a first part of it that fits. -/
def ShowsText (s shown : String) : Prop :=
  if (Text.encode s).length ≤ limit then shown = s
  else ∃ t : String, t.toList <+: s.toList ∧ (Text.encode t).length ≤ limit ∧ shown = t ++ "..."

/-- A character of the text ends just where a preview does. -/
def EndsAtLimit (s : String) : Prop :=
  ∃ t : String, t.toList <+: s.toList ∧ (Text.encode t).length = limit

theorem take_of_isPrefix {s t : String} (h : t.toList <+: s.toList) :
    (Text.encode s).take (Text.encode t).length = Text.encode t := by
  obtain ⟨rest, hrest⟩ := h
  unfold Text.encode
  rw [← hrest, List.flatMap_append, List.take_left']
  rfl

/-- The shown bytes of a longer text are text just when a character ends there. -/
theorem take_limit_eq_encode_iff {s t : String} (hlong : limit < (Text.encode s).length) :
    (Text.encode s).take limit = Text.encode t ↔
      t.toList <+: s.toList ∧ (Text.encode t).length = limit := by
  constructor
  · intro h
    have hlen : (Text.encode t).length = limit := by
      rw [← h, List.length_take, Nat.min_eq_left (Nat.le_of_lt hlong)]
    refine ⟨?_, hlen⟩
    have hpieces := Text.pieces_encode_append t ((Text.encode s).drop limit)
    rw [← h, List.take_append_drop, Text.pieces_encode, List.map_eq_append_iff] at hpieces
    obtain ⟨front, back, hs, hfront, -⟩ := hpieces
    rw [hs, List.map_injective_iff.mpr (fun _ _ => Text.Piece.char.inj) hfront]
    exact List.prefix_append _ _
  · rintro ⟨hpre, hlen⟩
    rw [← hlen, take_of_isPrefix hpre]

theorem ofPayload_of_short_text {s : String} (h : (Text.encode s).length ≤ limit) :
    ofPayload (Text.encode s) = s := by
  rw [ofPayload_of_text (List.take_of_length_le h), if_neg (Nat.not_lt.mpr h)]

theorem ofPayload_of_endsAtLimit {s t : String} (hlong : limit < (Text.encode s).length)
    (hpre : t.toList <+: s.toList) (hlen : (Text.encode t).length = limit) :
    ofPayload (Text.encode s) = t ++ "..." := by
  rw [ofPayload_of_text ((take_limit_eq_encode_iff hlong).mpr ⟨hpre, hlen⟩), if_pos hlong]

theorem ofPayload_of_cut_text {s : String} (hlong : limit < (Text.encode s).length)
    (hcut : ¬ EndsAtLimit s) : ofPayload (Text.encode s) = binary (Text.encode s).length :=
  ofPayload_of_no_text fun t h => hcut ⟨t, (take_limit_eq_encode_iff hlong).mp h⟩

/-- A text is shown as text just when it fits or one of its characters ends at the limit, and else
it is shown as bytes that are no text. -/
theorem text_shown_iff (s : String) :
    (ShowsText s (ofPayload (Text.encode s)) ↔
      (Text.encode s).length ≤ limit ∨ EndsAtLimit s) ∧
    (¬ ((Text.encode s).length ≤ limit ∨ EndsAtLimit s) →
      ofPayload (Text.encode s) = binary (Text.encode s).length) := by
  unfold ShowsText
  by_cases hshort : (Text.encode s).length ≤ limit
  · simp [hshort, ofPayload_of_short_text hshort]
  · have hlong : limit < (Text.encode s).length := Nat.not_le.mp hshort
    rw [if_neg hshort]
    by_cases hends : EndsAtLimit s
    · obtain ⟨t, hpre, hlen⟩ := hends
      have hshown := ofPayload_of_endsAtLimit hlong hpre hlen
      refine ⟨iff_of_true ⟨t, hpre, Nat.le_of_eq hlen, hshown⟩ (.inr ⟨t, hpre, hlen⟩), ?_⟩
      exact fun h => absurd (.inr ⟨t, hpre, hlen⟩) h
    · have hshown := ofPayload_of_cut_text hlong hends
      refine ⟨iff_of_false ?_ (not_or.mpr ⟨hshort, hends⟩), fun _ => hshown⟩
      rintro ⟨t, -, -, ht⟩
      exact text_dots_ne_binary t _ (ht.symm.trans hshown)

/-- Sixty-three one-byte characters and one of two bytes. -/
theorem text_shown_as_binary :
    let s := String.ofList (List.replicate 63 'x' ++ ['é'])
    ofPayload (Text.encode s) = "<binary 65 bytes>" ∧
      ¬ ShowsText s (ofPayload (Text.encode s)) := by
  intro s
  have hshown : ofPayload (Text.encode s) = binary 65 := by decide
  refine ⟨hshown, ?_⟩
  rw [hshown, ShowsText, if_neg (by decide)]
  rintro ⟨t, -, -, ht⟩
  exact text_dots_ne_binary t 65 ht.symm

/-! ### The preview of what is kept -/

theorem take_limit_of (data : Bytes) : (Received.of data).head.take limit = data.take limit := by
  unfold Received.of Received.headLimit
  rw [List.take_take, Nat.min_eq_left (Nat.le_succ limit)]

theorem length_head_of (data : Bytes) :
    (Received.of data).head.length = min Received.headLimit data.length := List.length_take

theorem preview_of_text {data : Bytes} {s : String} (h : data.take limit = Text.encode s) :
    (Received.of data).preview = ofPayload data := by
  have hmore : limit < min Received.headLimit data.length ↔ limit < data.length := by
    unfold Received.headLimit
    omega
  unfold Received.preview
  rw [ofPayload_of_text h, ofPayload_of_text ((take_limit_of data).trans h), length_head_of]
  simp only [hmore]

theorem preview_of_no_text {data : Bytes} (h : ∀ s, data.take limit ≠ Text.encode s) :
    (Received.of data).preview = binary (min Received.headLimit data.length) := by
  unfold Received.preview
  rw [ofPayload_of_no_text fun s => take_limit_of data ▸ h s, length_head_of]

/-- What is kept has the preview of the whole when the bytes that are shown are text, or when no
byte is left out. -/
theorem preview_of_eq_iff (data : Bytes) : (Received.of data).preview = ofPayload data ↔
    data.length ≤ Received.headLimit ∨ ∃ s, data.take limit = Text.encode s := by
  by_cases htext : ∃ s, data.take limit = Text.encode s
  · obtain ⟨s, hs⟩ := htext
    exact iff_of_true (preview_of_text hs) (.inr ⟨s, hs⟩)
  · have hno := not_exists.mp htext
    rw [preview_of_no_text hno, ofPayload_of_no_text hno, binary_injective.eq_iff,
      or_iff_left htext]
    omega

end Preview

end LocalIpc

import LocalIpc.Text.Json
import LocalIpc.Text.Json.Value
import Mathlib.Data.List.Basic
/-!
# Written JSON is read back

A text comes back character by character, a number digit by digit, and an object member by member.
What is written has no character below the space. That holds of any writer that does what is
documented of it, however it escapes the characters of a text.
-/

namespace LocalIpc.Json

/-! ## Texts -/

section Texts

variable {c : Char} {rest : List Char}

/-- A control character without a letter of its own is written by its number. -/
theorem escapeChar_control (hc : c.toNat < 0x20)
    (hletter : c ∉ ['\x08', '\t', '\n', '\x0c', '\r']) :
    ∃ a b, escapeChar c = ['\\', 'u', '0', '0', a, b] ∧
      hexNumber? ['0', '0', a, b] = some c.toNat := by
  have hdigits : ∀ n < 0x20,
      (if n < 0x10 then '0' :: Text.hexDigits n else Text.hexDigits n) =
        [if n < 0x10 then '0' else '1', (Text.hexDigits (n % 16)).headD '0'] ∧
      hexNumber? ['0', '0', if n < 0x10 then '0' else '1', (Text.hexDigits (n % 16)).headD '0'] =
        some n := by decide
  obtain ⟨hwritten, hread⟩ := hdigits c.toNat hc
  refine ⟨_, _, ?_, hread⟩
  have hquote : c ≠ '"' := by rintro rfl; exact absurd hc (by decide)
  have hbackslash : c ≠ '\\' := by rintro rfl; exact absurd hc (by decide)
  simp only [List.mem_cons, List.not_mem_nil, or_false, not_or] at hletter
  obtain ⟨h1, h2, h3, h4, h5⟩ := hletter
  rw [← hwritten]
  simp only [escapeChar, hquote, hbackslash, h1, h2, h3, h4, h5, hc, if_false, if_true]
  split <;> rfl

theorem escapeChar_plain (hc : 0x20 ≤ c.toNat) (hquote : c ≠ '"') (hbackslash : c ≠ '\\') :
    escapeChar c = [c] := by
  have hne : ∀ d : Char, d.toNat < 0x20 → c ≠ d := by
    rintro d hd rfl
    omega
  have hnot : ¬ c.toNat < 0x10 := by omega
  simp [escapeChar, hquote, hbackslash, hne '\x08' (by decide), hne '\t' (by decide),
    hne '\n' (by decide), hne '\x0c' (by decide), hne '\r' (by decide), Nat.not_lt.mpr hc, hnot]

theorem items?_plain (hc : 0x20 ≤ c.toNat) (hquote : c ≠ '"') (hbackslash : c ≠ '\\') :
    items? (c :: rest) = (items? rest).map fun r => (.char c :: r.1, r.2) := by
  have hnot : ¬ c.toNat < 0x20 := by omega
  rw [items?]
  · rcases items? rest with _ | r <;> simp [hnot]
  · exact fun h => hquote h
  · rintro a b d e r h
    exact absurd h hbackslash
  · exact fun _ _ h => absurd h hbackslash

/-- A letter behind a backslash. -/
theorem items?_letter {a : Char} (ha : escaped? a = some c) (hu : a ≠ 'u') :
    items? ('\\' :: a :: rest) = (items? rest).map fun r => (.char c :: r.1, r.2) := by
  rw [items?]
  · rcases items? rest with _ | r <;> simp [ha]
  · exact fun _ _ _ _ _ h => absurd h hu

theorem items?_number {a b : Char} {n : Nat} (h : hexNumber? ['0', '0', a, b] = some n) :
    items? ('\\' :: 'u' :: '0' :: '0' :: a :: b :: rest) =
      (items? rest).map fun r => (.unit n :: r.1, r.2) := by
  rw [items?, h]
  rcases items? rest with _ | r <;> simp

/-- These characters inside a text are read as `c`, and they are none below the space. -/
structure Stands (c : Char) (cs : List Char) : Prop where
  read : ∃ items,
    (∀ rest, items? (cs ++ rest) = (items? rest).map fun r => (items ++ r.1, r.2)) ∧
      ∀ more, chars? (items ++ more) = (chars? more).map (c :: ·)
  shown : ∀ d ∈ cs, 0x20 ≤ d.toNat

theorem shown_of_mem_escapeChar {c d : Char} (h : d ∈ escapeChar c) : 0x20 ≤ d.toNat := by
  have hascii : ∀ n < 0x80, (escapeChar (Char.ofNat n)).all (fun d => 0x20 ≤ d.toNat) = true := by
    decide +kernel
  rcases Nat.lt_or_ge c.toNat 0x80 with hc | hc
  · have hall := List.all_eq_true.mp (hascii c.toNat hc) d
    rw [Char.ofNat_toNat] at hall
    exact of_decide_eq_true (hall h)
  · have hne : ∀ e : Char, e.toNat < 0x80 → c ≠ e := by
      rintro e he rfl
      omega
    rw [escapeChar_plain (by omega) (hne '"' (by decide)) (hne '\\' (by decide)),
      List.mem_singleton] at h
    exact h ▸ Nat.le_trans (by decide) hc

/-- An escaped character is read as an item of its own, and that stands for it. -/
theorem stands_escapeChar (c : Char) : Stands c (escapeChar c) := by
  suffices h : ∃ item,
      (∀ rest, items? (escapeChar c ++ rest) = (items? rest).map fun r => (item :: r.1, r.2)) ∧
        ∀ more, chars? (item :: more) = (chars? more).map (c :: ·) by
    obtain ⟨item, hread, hstands⟩ := h
    exact ⟨⟨[item], hread, hstands⟩, fun _ => shown_of_mem_escapeChar⟩
  by_cases hplain : 0x20 ≤ c.toNat ∧ c ≠ '"' ∧ c ≠ '\\'
  · obtain ⟨hc, hquote, hbackslash⟩ := hplain
    refine ⟨.char c, fun rest => ?_, fun items => rfl⟩
    rw [escapeChar_plain hc hquote hbackslash]
    exact items?_plain hc hquote hbackslash
  by_cases hletter : c ∈ ['"', '\\', '\x08', '\t', '\n', '\x0c', '\r']
  · refine ⟨.char c, fun rest => ?_, fun items => rfl⟩
    simp only [List.mem_cons, List.not_mem_nil, or_false] at hletter
    rcases hletter with rfl | rfl | rfl | rfl | rfl | rfl | rfl <;>
      exact items?_letter rfl (by decide)
  · have hc : c.toNat < 0x20 := by
      by_contra hc
      simp_all
    obtain ⟨a, b, hwritten, hread⟩ := escapeChar_control hc (by simp_all)
    refine ⟨.unit c.toNat, fun rest => ?_, fun items => ?_⟩
    · rw [hwritten]
      exact items?_number hread
    · rw [chars?.eq_def]
      simp only [show c.toNat < 0xD800 by omega, true_or, if_true, Char.ofNat_toNat]

theorem items?_flatMap {escape : Char → List Char} (h : ∀ c, Stands c (escape c))
    (cs rest : List Char) : ∃ items,
    items? (cs.flatMap escape ++ '"' :: rest) = some (items, rest) ∧ chars? items = some cs := by
  induction cs with
  | nil => exact ⟨[], rfl, rfl⟩
  | cons c cs ih =>
    obtain ⟨items, hitems, hchars⟩ := ih
    obtain ⟨front, hread, hstands⟩ := (h c).read
    refine ⟨front ++ items, ?_, by rw [hstands, hchars]; rfl⟩
    rw [List.flatMap_cons, List.append_assoc, hread, hitems]
    rfl

end Texts

/-! ## Numbers -/

section Numbers

/-- What comes behind a value without a blank between. -/
def Follows (rest : List Char) : Prop := ∃ r, rest = ',' :: r ∨ rest = '\x7d' :: r

variable {rest : List Char}

theorem digits?_toDigits (n : Nat) (h : Follows rest) :
    digits? (Nat.toDigits 10 n ++ rest) = some (Nat.toDigits 10 n, rest) := by
  have hdigits : ∀ d ∈ Nat.toDigits 10 n, d.isDigit = true :=
    fun d hd => Nat.isDigit_of_mem_toDigits (by decide) (by decide) hd
  obtain ⟨htake, hdrop⟩ :
      rest.takeWhile Char.isDigit = [] ∧ rest.dropWhile Char.isDigit = rest := by
    obtain ⟨r, rfl | rfl⟩ := h <;> simp
  obtain ⟨d, ds, hds⟩ := List.exists_cons_of_ne_nil (Nat.toDigits_ne_nil (n := n) (b := 10))
  unfold digits?
  rw [List.takeWhile_append_of_pos hdigits, List.dropWhile_append_of_pos hdigits, htake, hdrop,
    List.append_nil, hds]

/-- Only zero begins with a zero. -/
theorem toDigits_ne_zero_cons (n : Nat) (d : Char) (ds : List Char) :
    Nat.toDigits 10 n ≠ '0' :: d :: ds := by
  induction n using Nat.strongRecOn generalizing d ds with
  | _ n ih =>
    intro h
    rcases Nat.lt_or_ge n 10 with hlt | hge
    · simp [Nat.toDigits_of_lt_base hlt] at h
    · rw [Nat.toDigits_of_base_le (by decide) hge] at h
      obtain ⟨e, es, hes⟩ :=
        List.exists_cons_of_ne_nil (Nat.toDigits_ne_nil (n := n / 10) (b := 10))
      rw [hes, List.cons_append] at h
      obtain ⟨rfl, htail⟩ := List.cons.inj h
      cases es with
      | cons f fs => exact ih (n / 10) (by omega) f fs hes
      | nil =>
        -- the front is a zero alone, and then it is no front
        have hzero := congrArg (fun ds => Nat.ofDigitChars 10 ds 0) hes
        rw [Nat.ofDigitChars_ten_toDigits] at hzero
        have : n / 10 = 0 := hzero
        omega

theorem unsigned?_toDigits (n : Nat) (h : Follows rest) :
    unsigned? (Nat.toDigits 10 n ++ rest) = some ((n, 0), rest) := by
  have hwhole : whole? (Nat.toDigits 10 n ++ rest) = some (Nat.toDigits 10 n, rest) := by
    unfold whole?
    rw [digits?_toDigits n h]
    split
    · rename_i heq
      exact absurd (congrArg Prod.fst (Option.some.inj heq)) (toDigits_ne_zero_cons n _ _)
    · rfl
  have hrest : fraction? rest = some ([], rest) ∧ exponent? rest = some (0, rest) := by
    obtain ⟨r, rfl | rfl⟩ := h <;> exact ⟨rfl, rfl⟩
  simp [unsigned?, hwhole, hrest, Nat.ofDigitChars_ten_toDigits]

theorem toList_number (n : Int) :
    (number n).toList = (if n < 0 then ['-'] else []) ++ Nat.toDigits 10 n.natAbs := by
  unfold number
  rw [Int.toString_eq_repr]
  cases n with
  | ofNat n => simp [Int.repr, Nat.toList_repr, show ¬ (n : Int) < 0 by omega]
  | negSucc n => simp [Int.repr, Nat.toList_repr, Int.negSucc_lt_zero]

/-- What a number begins with. -/
theorem exists_cons_number (n : Int) :
    ∃ c cs, (number n).toList = c :: cs ∧ (c = '-' ∨ c.isDigit = true) := by
  obtain ⟨d, ds, hds⟩ := List.exists_cons_of_ne_nil
    (Nat.toDigits_ne_nil (n := n.natAbs) (b := 10))
  have hd : d.isDigit = true :=
    Nat.isDigit_of_mem_toDigits (b := 10) (by decide) (by decide) (hds ▸ List.mem_cons_self)
  rw [toList_number, hds]
  split
  · exact ⟨'-', d :: ds, rfl, .inl rfl⟩
  · exact ⟨d, ds, rfl, .inr hd⟩

/-- A number that is written is read back, with its sign. -/
theorem number?_written (n : Int) (h : Follows rest) :
    number? ((number n).toList ++ rest) = some (.integer n, rest) := by
  rw [toList_number]
  split
  · rename_i hneg
    rw [List.append_assoc, List.singleton_append, number?, unsigned?_toDigits _ h]
    simp only [Option.map_some, Value.integer, show -(n.natAbs : Int) = n by omega]
  · rename_i hpos
    obtain ⟨d, ds, hds⟩ := List.exists_cons_of_ne_nil
      (Nat.toDigits_ne_nil (n := n.natAbs) (b := 10))
    have hread := unsigned?_toDigits n.natAbs h
    rw [List.nil_append]
    have hd : d ≠ '-' := by
      rintro rfl
      exact absurd (Nat.isDigit_of_mem_toDigits (b := 10) (by decide) (by decide)
        (hds ▸ List.mem_cons_self)) (by decide)
    rw [hds, List.cons_append] at hread ⊢
    rw [number?, hread]
    · simp only [Option.map_some, Value.integer, show (n.natAbs : Int) = n by omega]
    · exact fun _ heq => hd (List.cons.inj heq).1

end Numbers

/-! ## Values -/

section Values

variable {rest : List Char}

/-- What is written as `w` is read as `v` and stays on one line. -/
structure Written (w : String) (v : Value) : Prop where
  reads : ∀ n rest, Follows rest → value? (n + 1) (w.toList ++ rest) = some (v, rest)
  shown : ∀ c ∈ w.toList, 0x20 ≤ c.toNat

theorem skipBlank_cons {c : Char} (h : isBlank c = false) : skipBlank (c :: rest) = c :: rest :=
  List.dropWhile_cons_of_neg (by simp [h])

theorem value?_number {n : Nat} {c : Char} {cs : List Char} (hc : c = '-' ∨ c.isDigit = true) :
    value? (n + 1) (c :: cs) = number? (c :: cs) := by
  have hne : ∀ d ∈ [' ', '\t', '\n', '\r', 'n', 't', 'f', '"', '[', '\x7b'], c ≠ d := by
    have hnot : ∀ d ∈ [' ', '\t', '\n', '\r', 'n', 't', 'f', '"', '[', '\x7b'],
        (d != '-' && !d.isDigit) = true := List.all_eq_true.mp rfl
    rintro d hd rfl
    rcases hc with rfl | hc
    · simpa using hnot _ hd
    · simpa [hc] using hnot _ hd
  have hblank : isBlank c = false := by
    simp [isBlank, hne ' ' (by simp), hne '\t' (by simp), hne '\n' (by simp), hne '\r' (by simp)]
  rw [value?, skipBlank_cons hblank]
  split
  case h_7 => rfl
  all_goals exact absurd (List.cons.inj ‹_›).1 (hne _ (by simp))

theorem number_written (n : Int) : Written (number n) (.integer n) where
  reads k rest h := by
    have hread := number?_written n h
    obtain ⟨c, cs, hcs, hc⟩ := exists_cons_number n
    rw [hcs, List.cons_append] at hread ⊢
    rw [value?_number hc, hread]
  shown c hc := by
    rw [toList_number, List.mem_append] at hc
    rcases hc with hc | hc
    · split at hc
      · rw [List.mem_singleton.mp hc]
        decide
      · exact absurd hc List.not_mem_nil
    · have := Nat.isDigit_of_mem_toDigits (b := 10) (by decide) (by decide) hc
      simp only [Char.isDigit, Bool.and_eq_true, decide_eq_true_eq, UInt32.le_iff_toNat_le] at this
      exact Nat.le_trans (by decide) this.1

end Values

/-! ## Writers -/

/-- What is documented of a library that writes JSON. A text stands in quotation marks, and each of
its characters is escaped as JSON has it. Integers are exact. An object is its members one after
another, and writing it does not fail. -/
structure Writer.Documented (j : Writer) : Prop where
  text : ∃ escape : Char → List Char, (∀ c, Stands c (escape c)) ∧
    ∀ s, (j.text s).toList = '"' :: s.toList.flatMap escape ++ ['"']
  number : ∀ n, j.number n = toString n
  object : ∀ ms, j.object ms =
    some ("\x7b" ++ String.intercalate "," (ms.map fun m => j.text m.1 ++ ":" ++ m.2) ++ "\x7d")

theorem writer_documented : writer.Documented where
  text := ⟨escapeChar, stands_escapeChar, fun s => by simp [writer, text]⟩
  number _ := rfl
  object _ := rfl

namespace Writer

variable {j : Writer} (hj : j.Documented) {w : String} {v : Value} {rest : List Char}

include hj

/-- A text that is written is read back whole, from behind its first quotation mark. -/
theorem toList_text (s : String) : ∃ cs, (j.text s).toList = '"' :: (cs ++ ['"']) ∧
    (∀ rest, text? (cs ++ '"' :: rest) = some (s, rest)) ∧ ∀ c ∈ cs, 0x20 ≤ c.toNat := by
  obtain ⟨escape, hescape, htext⟩ := hj.text
  refine ⟨s.toList.flatMap escape, htext s, fun rest => ?_, fun c hc => ?_⟩
  · obtain ⟨items, hitems, hchars⟩ := items?_flatMap hescape s.toList rest
    simp [text?, hitems, hchars]
  · obtain ⟨d, -, hd⟩ := List.mem_flatMap.mp hc
    exact (hescape d).shown c hd

theorem text_written (s : String) : Written (j.text s) (.text s) := by
  obtain ⟨cs, htoList, hread, hshown⟩ := toList_text hj s
  constructor
  case reads =>
    intro n rest _
    rw [htoList, List.cons_append, List.append_assoc, value?, skipBlank_cons rfl]
    simp only [List.singleton_append, hread, Option.map_some]
  case shown =>
    intro c hc
    rw [htoList] at hc
    simp only [List.mem_cons, List.mem_append, List.not_mem_nil, or_false] at hc
    rcases hc with rfl | hc | rfl
    · decide
    · exact hshown c hc
    · decide

theorem number_written (n : Int) : Written (j.number n) (.integer n) :=
  hj.number n ▸ Json.number_written n

/-- A member that is written is read, and then what its mark asks for: an end or more members. -/
theorem members?_member {name : String} {c : Char} (hw : Written w v) (n : Nat)
    (hc : c = ',' ∨ c = '\x7d') :
    members? (n + 2) ((j.text name ++ ":" ++ w).toList ++ c :: rest) =
      if c = '\x7d' then some ([(name, v)], rest)
      else (members? (n + 1) rest).map fun r => ((name, v) :: r.1, r.2) := by
  obtain ⟨cs, htoList, htext, -⟩ := toList_text hj name
  have hread := hw.reads n (c :: rest) ⟨rest, by simpa using hc⟩
  have hblank : skipBlank (c :: rest) = c :: rest := by
    rcases hc with rfl | rfl <;> exact skipBlank_cons rfl
  have hstart : (j.text name ++ ":" ++ w).toList ++ c :: rest =
      '"' :: (cs ++ '"' :: ':' :: (w.toList ++ c :: rest)) := by
    simp [htoList]
  rw [hstart, members?, skipBlank_cons rfl]
  simp only [htext, skipBlank_cons (c := ':') rfl, hread, hblank, Option.bind_eq_bind,
    Option.bind_some]
  rcases hc with rfl | rfl
  · simp only [Option.map_eq_bind]
    rfl
  · rfl

omit hj

/-- What an object has between its braces. -/
def inside (j : Writer) (ms : List (String × String)) : String :=
  String.intercalate "," (ms.map fun m => j.text m.1 ++ ":" ++ m.2)

theorem inside_singleton (m : String × String) : j.inside [m] = j.text m.1 ++ ":" ++ m.2 :=
  String.intercalate_singleton

theorem inside_cons_cons (m m' : String × String) (ms : List (String × String)) :
    j.inside (m :: m' :: ms) = j.text m.1 ++ ":" ++ m.2 ++ "," ++ j.inside (m' :: ms) :=
  String.intercalate_cons_cons

include hj

theorem object_eq (ms : List (String × String)) :
    j.object ms = some ("\x7b" ++ j.inside ms ++ "\x7d") := hj.object ms

theorem length_le_inside (ms : List (String × String)) :
    ms.length ≤ (j.inside ms).toList.length := by
  have hlength : ∀ s, 2 ≤ (j.text s).toList.length := by
    intro s
    obtain ⟨cs, htoList, -⟩ := toList_text hj s
    simp [htoList]
  induction ms with
  | nil => exact Nat.zero_le _
  | cons m ms ih =>
    have hname := hlength m.1
    cases ms with
    | nil =>
      rw [inside_singleton]
      simp only [String.toList_append, List.length_append, List.length_cons, List.length_nil]
      omega
    | cons m' ms =>
      rw [inside_cons_cons]
      simp only [String.toList_append, List.length_append, List.length_cons] at ih ⊢
      omega

omit hj

end Writer

/-- The members of `ms` say what `vs` lists. -/
abbrev WrittenMembers (ms : List (String × String)) (vs : List (String × Value)) : Prop :=
  List.Forall₂ (fun m v => m.1 = v.1 ∧ Written m.2 v.2) ms vs

namespace Writer

variable {j : Writer} (hj : j.Documented) {ms : List (String × String)}
  {vs : List (String × Value)} {out : String}

include hj

/-- Members that are written one after another are read back in their order. -/
theorem members?_written (h : WrittenMembers ms vs) (hne : ms ≠ []) (rest : List Char) (n : Nat)
    (hn : ms.length < n) :
    members? n ((j.inside ms).toList ++ '\x7d' :: rest) = some (vs, rest) := by
  induction h generalizing n with
  | nil => exact absurd rfl hne
  | @cons m v ms vs hmv hrest ih =>
    obtain ⟨name, w⟩ := m
    obtain ⟨name', v⟩ := v
    obtain ⟨rfl, hw⟩ := hmv
    obtain ⟨n, rfl⟩ : ∃ k, n = k + 2 := ⟨n - 2, by simp at hn; omega⟩
    cases hrest with
    | nil =>
      rw [inside_singleton]
      exact members?_member hj hw n (.inr rfl)
    | @cons m' v' ms vs hmv' hrest' =>
      have htail := ih (by simp) (n + 1) (by simpa using hn)
      have hsplit : (j.inside ((name, w) :: m' :: ms)).toList ++ '\x7d' :: rest =
          (j.text name ++ ":" ++ w).toList ++
            ',' :: ((j.inside (m' :: ms)).toList ++ '\x7d' :: rest) := by
        rw [inside_cons_cons]
        simp
      rw [hsplit, members?_member hj hw n (.inl rfl), if_neg (by decide), htail]
      rfl

theorem shown_of_mem_inside (h : WrittenMembers ms vs) :
    ∀ c ∈ (j.inside ms).toList, 0x20 ≤ c.toNat := by
  have hmember : ∀ name w v, Written w v →
      ∀ c ∈ (j.text name ++ ":" ++ w).toList, 0x20 ≤ c.toNat := by
    intro name w v hw c hc
    rw [String.toList_append, String.toList_append, List.mem_append, List.mem_append] at hc
    rcases hc with (hc | hc) | hc
    · exact (text_written hj name).shown c hc
    · rw [List.mem_singleton.mp hc]
      decide
    · exact hw.shown c hc
  induction h with
  | nil => simp [inside]
  | @cons m v ms vs hmv hrest ih =>
    obtain ⟨name, w⟩ := m
    cases hrest with
    | nil =>
      rw [inside_singleton]
      exact hmember name w _ hmv.2
    | cons hmv' hrest' =>
      intro c hc
      rw [inside_cons_cons, String.toList_append, String.toList_append, List.mem_append,
        List.mem_append] at hc
      rcases hc with (hc | hc) | hc
      · exact hmember name w _ hmv.2 c hc
      · rw [List.mem_singleton.mp hc]
        decide
      · exact ih c hc

/-- An object that is written is read back: its names and its values, in their order. -/
theorem read?_object (h : WrittenMembers ms vs) (hne : ms ≠ []) (hout : j.object ms = some out) :
    read? out = some (.object vs) := by
  obtain rfl := Option.some.inj ((object_eq hj ms).symm.trans hout)
  have htoList : ("\x7b" ++ j.inside ms ++ "\x7d").toList =
      '\x7b' :: ((j.inside ms).toList ++ ['\x7d']) := by
    simp
  generalize hn : ("\x7b" ++ j.inside ms ++ "\x7d").toList.length = n
  have hlength : ms.length < n := by
    have := length_le_inside hj ms
    rw [← hn, htoList]
    simp only [List.length_cons, List.length_append]
    omega
  have hmembers := members?_written hj h hne [] n hlength
  obtain ⟨cs, hcs⟩ : ∃ cs, (j.inside ms).toList = '"' :: cs := by
    obtain - | ⟨m, - | ⟨m', ms⟩⟩ := ms
    · exact absurd rfl hne
    all_goals obtain ⟨cs, hname, -⟩ := toList_text hj m.1
    · rw [inside_singleton, String.toList_append, String.toList_append, hname]
      exact ⟨_, rfl⟩
    · rw [inside_cons_cons, String.toList_append, String.toList_append, String.toList_append,
        String.toList_append, hname]
      exact ⟨_, rfl⟩
  rw [read?, hn, htoList, value?, skipBlank_cons rfl]
  rw [hcs, List.cons_append] at hmembers ⊢
  simp only [skipBlank_cons (c := '"') rfl, hmembers, Option.map_some]
  rfl

theorem shown_of_mem_object (h : WrittenMembers ms vs) (hout : j.object ms = some out) :
    ∀ c ∈ out.toList, 0x20 ≤ c.toNat := by
  obtain rfl := Option.some.inj ((object_eq hj ms).symm.trans hout)
  intro c hc
  rw [String.toList_append, String.toList_append, List.mem_append, List.mem_append] at hc
  rcases hc with (hc | hc) | hc
  · rw [List.mem_singleton.mp hc]
    decide
  · exact shown_of_mem_inside hj h c hc
  · rw [List.mem_singleton.mp hc]
    decide

end Writer

end LocalIpc.Json

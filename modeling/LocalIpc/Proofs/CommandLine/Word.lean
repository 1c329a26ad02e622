import LocalIpc.CommandLine.Spelling
import Mathlib.Data.List.Basic
/-!
# Words that name an option

A word is read as an option just when it is spelled as one. Every level knows the options of the
program's own level by the same names.
-/

namespace LocalIpc.CommandLine

theorem exists_of_choose {α : Type} {table : List (String × α)} {word : Bytes} {a : α}
    (h : choose table word = some a) : ∃ e ∈ table, Text.encode e.1 = word ∧ e.2 = a := by
  obtain ⟨e, he, rfl⟩ := Option.map_eq_some_iff.mp h
  exact ⟨e, List.mem_of_find?_eq_some he, by simpa using List.find?_some he, rfl⟩

/-- Words that are plain in a table are plain wherever the table is asked. -/
theorem plain_of_choose {α : Type} {table : List (String × α)} {word : Bytes} {a : α}
    (hall : ∀ e ∈ table, Word.ofBytes (Text.encode e.1) = .plain)
    (h : choose table word = some a) : Word.ofBytes word = .plain := by
  obtain ⟨e, he, rfl, -⟩ := exists_of_choose h
  exact hall e he

/-! ## The form of a word -/

namespace Word

theorem eq_dashes_of_ofBytes {word : Bytes} (h : ofBytes word = .escape) : word = dashes := by
  unfold ofBytes at h
  split at h
  · cases h
  · cases h
  · split_ifs at h with ha hb hrest
    rw [not_not.mp ha, not_not.mp hb, hrest]
    rfl

/-- The first sign parts the name from the value. -/
theorem ofBytes_append_equals {name : Bytes} (hsign : equals ∉ name) (value : Bytes) :
    ofBytes (dashes ++ name ++ equals :: value) = .long name (some value) := by
  have hall : ∀ b ∈ name, decide (b ≠ equals) = true := by
    intro b hb
    simpa using ne_of_mem_of_not_mem hb hsign
  simp only [dashes, List.cons_append, List.nil_append, ofBytes]
  rw [if_neg (by simp), if_neg (by simp), if_neg (by simp), if_pos (by simp),
    List.takeWhile_append_of_pos hall, List.dropWhile_append_of_pos hall]
  simp

/-- A word that is read as an option is `--`, the name and, behind a sign, the value. -/
theorem eq_of_ofBytes {word name : Bytes} {value : Option Bytes}
    (h : ofBytes word = .long name value) :
    word = dashes ++ name ++ value.elim [] (equals :: ·) := by
  match word with
  | [] => cases h
  | [_] => cases h
  | a :: b :: rest =>
    by_cases hdash : a = dash ∧ b = dash
    · obtain ⟨rfl, rfl⟩ := hdash
      by_cases hsign : equals ∈ rest
      · obtain ⟨first, last, rfl, hfirst⟩ := List.eq_append_cons_of_mem hsign
        obtain ⟨rfl, rfl⟩ := Word.long.inj ((ofBytes_append_equals hfirst last).symm.trans h)
        simp [dashes]
      · by_cases hrest : rest = []
        · simp [ofBytes, hrest] at h
        · obtain ⟨rfl, rfl⟩ : rest = name ∧ none = value := by simpa [ofBytes, hsign, hrest] using h
          simp [dashes]
    · by_cases ha : a = dash <;> simp_all [ofBytes]

theorem names_of_ofBytes {word : Bytes} {name : String} {value : Option Bytes}
    (h : ofBytes word = .long (Text.encode name) value) : Names name word := by
  have hword := eq_of_ofBytes h
  cases value with
  | none => exact .inl (by simpa [option] using hword)
  | some value => exact .inr ⟨value, by simp [hword, option]⟩

end Word

/-! ## Options that every level knows -/

theorem shared_iff {name : String} :
    Shared name ↔ ∃ slot, (name, slot) ∈ Level.program.options := by
  simp [Shared]

section Known

variable {name : String} {slot : Slot} (hknown : (name, slot) ∈ Level.program.options)

include hknown

theorem choose_options (l : Level) : choose l.options (Text.encode name) = some slot := by
  have hall : ∀ o ∈ Level.program.options, choose l.options (Text.encode o.1) = some o.2 := by
    cases l <;> decide
  exact hall (name, slot) hknown

/-- No other option of any level has the place. -/
theorem eq_of_choose_options {l : Level} {word : Bytes} (h : choose l.options word = some slot) :
    word = Text.encode name := by
  have hall : ∀ e ∈ l.options, ∀ o ∈ Level.program.options, e.2 = o.2 → e.1 = o.1 := by
    cases l <;> decide
  obtain ⟨e, he, rfl, hslot⟩ := exists_of_choose h
  rw [hall e he (name, slot) hknown hslot]

theorem ofBytes_option : Word.ofBytes (Word.option name) = .long (Text.encode name) none := by
  have hall : ∀ o ∈ Level.program.options,
      Word.ofBytes (Word.option o.1) = .long (Text.encode o.1) none := by decide
  exact hall (name, slot) hknown

theorem ofBytes_option_append (value : Bytes) :
    Word.ofBytes (Word.option name ++ Word.equals :: value) =
      .long (Text.encode name) (some value) := by
  have hall : ∀ o ∈ Level.program.options, Word.equals ∉ Text.encode o.1 := by decide
  exact Word.ofBytes_append_equals (hall (name, slot) hknown) value

/-- A word names an option just when it is read as one, with or without a value. -/
theorem names_iff {word : Bytes} :
    Names name word ↔ ∃ value, Word.ofBytes word = .long (Text.encode name) value := by
  constructor
  · rintro (rfl | ⟨value, rfl⟩)
    · exact ⟨none, ofBytes_option hknown⟩
    · rw [List.append_assoc]
      exact ⟨some value, ofBytes_option_append hknown value⟩
  · rintro ⟨value, h⟩
    exact Word.names_of_ofBytes h

theorem not_names_dashes : ¬ Names name Word.dashes := by
  intro h
  obtain ⟨value, hdashes⟩ := (names_iff hknown).mp h
  cases hdashes

end Known

/-! ## Lines without an option -/

/-- No word in front of `--` names the option. -/
def Unnamed (name : String) (words : List Bytes) : Prop :=
  ∀ word ∈ words.takeWhile (· ≠ Word.dashes), ¬ Names name word

section Unnamed

variable {name : String} {word : Bytes} {words before behind : List Bytes}

theorem takeWhile_append_of_not_mem (h : Word.dashes ∉ before) (behind : List Bytes) :
    (before ++ behind).takeWhile (· ≠ Word.dashes) =
      before ++ behind.takeWhile (· ≠ Word.dashes) := by
  apply List.takeWhile_append_of_pos
  intro word hword
  simpa using ne_of_mem_of_not_mem hword h

theorem unnamed_of_forall (h : ∀ word ∈ words, ¬ Names name word) : Unnamed name words := by
  intro word hword
  exact h word (List.takeWhile_subset _ hword)

theorem unnamed_append (h : Word.dashes ∉ before) :
    Unnamed name (before ++ behind) ↔
      (∀ word ∈ before, ¬ Names name word) ∧ Unnamed name behind := by
  unfold Unnamed
  rw [takeWhile_append_of_not_mem h]
  simp only [List.forall_mem_append]

theorem unnamed_cons (h : word ≠ Word.dashes) :
    Unnamed name (word :: words) ↔ ¬ Names name word ∧ Unnamed name words := by
  rw [show word :: words = [word] ++ words from rfl, unnamed_append (by simpa using h.symm)]
  simp

theorem unnamed_of_occurrences (h : occurrences name words = 0) : Unnamed name words := by
  intro word hword
  simpa using List.countP_eq_zero.mp h word hword

end Unnamed

end LocalIpc.CommandLine

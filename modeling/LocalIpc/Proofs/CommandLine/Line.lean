import LocalIpc.Proofs.CommandLine.Level
import LocalIpc.Proofs.CommandLine.Parser
/-!
# What a line means

A line stands for an invocation just when it is options of the program's own, a command and what the
level of the command reads to its end.
-/

namespace LocalIpc.CommandLine

/-! ## Commands -/

section Command

variable {l : Level} {word : Bytes} (hcommand : choose Level.program.commands word = some l)

include hcommand

theorem plain_of_isCommand : Word.ofBytes word = .plain :=
  plain_of_choose (by decide) hcommand

theorem ne_help_of_isCommand : word ≠ Text.encode "help" := by
  have hall : ∀ e ∈ Level.program.commands, Text.encode e.1 ≠ Text.encode "help" := by decide
  obtain ⟨e, he, rfl, -⟩ := exists_of_choose hcommand
  exact hall e he

theorem ne_dashes_of_isCommand : word ≠ Word.dashes := by
  rintro rfl
  cases plain_of_isCommand hcommand

end Command

/-! ## The level of the log in the environment -/

theorem finish_eq_resolve {environment : Option Bytes} (h : Sensible environment) (r : Reading) :
    r.finish environment = r.resolve := by
  unfold Reading.finish
  cases r.resolve with
  | error e => rfl
  | ok s =>
    cases environment with
    | none => cases hlevel : s.logLevel <;> simp [hlevel, bind, Except.bind]
    | some word =>
      obtain ⟨level, rfl⟩ := h word rfl
      have hlevel : oneOf logLevels (Text.encode level.word) = .ok level := by cases level <;> rfl
      cases hs : s.logLevel <;> simp [hs, hlevel, bind, Except.bind]

section Line

variable {environment : Option Bytes} {r t : Reading} {word : Bytes} {words : List Bytes}
  {l : Level} {i : Invocation}

theorem readCommand_eq (henv : Sensible environment) :
    readCommand l environment words =
      Reading.empty.toEnd l words >>= fun inner => (commandOf l inner).map (inner, ·) := by
  simp only [readCommand, finish_eq_resolve henv, Reading.toEnd, Reading.after, bind_assoc]
  rfl

/-! ## Words in front of the command -/

/-- The program takes no plain word but as the value of an option. -/
theorem next_program_ne_ok (h : r.escaped = true ∨ Word.ofBytes word = .plain ∧ r.awaits = false) :
    r.next .program word ≠ .ok t := by
  have hplace : r.next .program word = r.place .program word := by
    unfold Reading.next
    by_cases hr : r.escaped = true
    · rw [if_pos hr]
    · obtain ⟨hplain, hawaits⟩ := h.resolve_left hr
      rw [if_neg hr, hplain]
      rcases hp : r.pending with _ | ⟨slot, _ | value⟩
      · rfl
      · simp [Reading.awaits, hp] at hawaits
      · rfl
  rw [hplace]
  unfold Reading.place
  rw [if_neg (by simp [Level.takesPath]), if_neg (by simp)]
  split_ifs <;> simp

theorem read_ne_ok_of_escaped (h : r.escaped = true) : read environment r words ≠ .ok i := by
  intro hread
  cases words with
  | nil =>
    obtain ⟨t, -, ht⟩ := bind_eq_ok hread
    cases ht
  | cons word words =>
    rw [read, if_pos (by simp [h])] at hread
    obtain ⟨t, ht, -⟩ := bind_eq_ok hread
    exact next_program_ne_ok (.inl h) ht

theorem read_cons_of_next (h : r.next .program word = .ok t) :
    read environment r (word :: words) = read environment t words := by
  rw [read]
  by_cases hgoes : (r.escaped || r.awaits) = true
  · rw [if_pos hgoes, h]
    rfl
  · obtain ⟨-, hawaits⟩ : r.escaped = false ∧ r.awaits = false := by simpa using hgoes
    have hplain : Word.ofBytes word ≠ .plain := fun hplain =>
      next_program_ne_ok (.inr ⟨hplain, hawaits⟩) h
    have hhelp : word ≠ Text.encode "help" := by
      rintro rfl
      exact hplain (by decide)
    rw [if_neg hgoes, if_neg hhelp]
    cases hcommand : choose Level.program.commands word with
    | some l => exact absurd (plain_of_isCommand hcommand) hplain
    | none =>
      simp only [h]
      rfl

/-- The first word is read at the program's own level, or it is the command. -/
theorem read_cons_cases (h : read environment r (word :: words) = .ok i) :
    (∃ t, r.next .program word = .ok t ∧ read environment t words = .ok i) ∨
      ∃ l, choose Level.program.commands word = some l ∧
        (do
          let (inner, command) ← readCommand l environment words
          let outer ← r.finish environment
          .ok (invocation outer inner environment command)) = .ok i := by
  rw [read] at h
  split_ifs at h
  · exact .inl (bind_eq_ok h)
  · cases hcommand : choose Level.program.commands word with
    | some l =>
      rw [hcommand] at h
      exact .inr ⟨l, rfl, h⟩
    | none =>
      rw [hcommand] at h
      exact .inl (bind_eq_ok h)

/-! ## The line -/

/-- What a line means after what was read. -/
abbrev Means (environment : Option Bytes) (r : Reading) : List Bytes → Invocation → Prop :=
  Stands (fun words => r.toEnd .program words) (fun l words => Reading.empty.toEnd l words)
    environment

theorem Means.cons (h : r.next .program word = .ok t) (hword : word ≠ Word.dashes)
    (hmeans : Means environment t words i) : Means environment r (word :: words) i := by
  obtain ⟨hdashes, hown, hcommand, hrest, hc⟩ := hmeans
  rw [← List.cons_append]
  refine ⟨List.not_mem_cons_of_ne_of_not_mem hword.symm hdashes, ?_, hcommand, hrest, hc⟩
  rw [Reading.toEnd_cons, h]
  exact hown

theorem means_of_read (henv : Sensible environment) (hr : r.escaped = false)
    (h : read environment r words = .ok i) : Means environment r words i := by
  induction words generalizing r with
  | nil =>
    obtain ⟨t, -, ht⟩ := bind_eq_ok h
    cases ht
  | cons word words ih =>
    rcases read_cons_cases h with ⟨t, ht, hread⟩ | ⟨l, hcommand, hread⟩
    · have hword : word ≠ Word.dashes := by
        rintro rfl
        rw [Reading.next_dashes hr] at ht
        cases ht
        exact read_ne_ok_of_escaped rfl hread
      exact .cons ht hword (ih (((Reading.step_of_next ht).escaped hword).trans hr) hread)
    · rw [readCommand_eq henv, finish_eq_resolve henv] at hread
      obtain ⟨⟨inner, c⟩, hinner, hread⟩ := bind_eq_ok hread
      obtain ⟨outer, houter, hread⟩ := bind_eq_ok hread
      obtain ⟨_, hrest, hinner⟩ := bind_eq_ok hinner
      obtain ⟨_, hc, hinner⟩ := map_eq_ok hinner
      cases hinner
      cases hread
      rw [← List.nil_append (word :: words)]
      exact ⟨List.not_mem_nil, houter, hcommand, hrest, hc⟩

theorem read_of_means (henv : Sensible environment) (hr : r.escaped = false)
    (h : Means environment r words i) : read environment r words = .ok i := by
  obtain @⟨own, rest, word, l, outer, inner, c, hdashes, hown, hcommand, hrest, hc⟩ := h
  -- by induction on the words in front of the command
  induction own generalizing r with
  | nil =>
    rw [Reading.toEnd_nil] at hown
    have hawaits := Reading.awaits_of_resolve hown
    rw [List.nil_append, read, if_neg (by simp [hr, hawaits]),
      if_neg (ne_help_of_isCommand hcommand)]
    simp only [hcommand]
    rw [readCommand_eq henv, hrest, finish_eq_resolve henv, hown]
    show ((commandOf l inner).map (inner, ·) >>= _) = _
    rw [hc]
    rfl
  | cons word own ih =>
    obtain ⟨hword, hdashes⟩ := not_or.mp (mt List.mem_cons.mpr hdashes)
    obtain ⟨t, ht, hown⟩ := bind_eq_ok (Reading.toEnd_cons ▸ hown)
    rw [List.cons_append, read_cons_of_next ht]
    exact ih (((Reading.step_of_next ht).escaped (Ne.symm hword)).trans hr) hdashes hown

/-- A line is read as an invocation just when it means it. -/
theorem parse_eq_ok_iff (henv : Sensible environment) :
    parse environment words = .ok i ↔ Means environment .empty words i :=
  ⟨means_of_read henv rfl, read_of_means henv rfl⟩

end Line

/-! ## What is documented -/

/-- The reader of this project. -/
def parser : Parser := ⟨fun l words => Reading.empty.toEnd l words, parse⟩

theorem parser_documented : parser.Documented where
  wantsValue hknown hwords := Reading.toEnd_ne_ok_of_option hknown rfl hwords
  unset := Reading.has_of_unnamed
  sets := Reading.toEnd_without
  takes := Reading.toEnd_with
  twoLevels := parse_eq_ok_iff

end LocalIpc.CommandLine

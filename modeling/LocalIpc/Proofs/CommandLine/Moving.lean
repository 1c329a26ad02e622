import LocalIpc.Proofs.CommandLine.Line
import Mathlib.Logic.Relation
/-!
# Options that move

An option of the program's own counts wherever it stands in a line: taking it out takes away what it
sets, and putting it in anywhere else sets the same again. So a line keeps its meaning while its
options move, and the log level is what the line gives before it is what the environment asks for.
All this holds of any library that reads command lines as it is documented to.
-/

namespace LocalIpc

/-- What an invocation becomes when an option of the program's own says something else. -/
def Invocation.set (i : Invocation) : CommandLine.Setting → Invocation
  | .format f => { i with format := some f }
  | .logFormat f => { i with logFormat := f }
  | .logLevel level => { i with logLevel := level }

namespace CommandLine

section Moving

variable {environment : Option Bytes} {name : String} {slot : Slot} {σ : Setting} {value : Bytes}
  {words words' said before behind : List Bytes} {word : Bytes} {i : Invocation} {l : Level}
  {outer inner : Reading} {c : Command} {p : Parser}

/-! ## What the two levels set -/

theorem commandOf_set (r : Reading) : commandOf l (r.set σ) = commandOf l r := by
  cases σ <;> rfl

theorem invocation_set_inner :
    invocation outer (inner.set σ) environment c =
      (invocation outer inner environment c).set σ := by
  cases σ <;> rfl

/-- What is set in front of the command counts where nothing behind it sets the same. -/
theorem invocation_set_outer (h : inner.has σ.slot = false) :
    invocation (outer.set σ) inner environment c =
      (invocation outer inner environment c).set σ := by
  cases σ with
  | format f | logFormat f | logLevel f =>
    have hinner := Option.isNone_iff_eq_none.mp (Option.isSome_eq_false_iff.mp h)
    simp [invocation, Reading.set, Invocation.set, logLevel, hinner]

/-! ## Where an option stands -/

/-- Words that are put in stand in front of a given word, behind it or around it. -/
theorem append_cases {own rest : List Bytes} (h : before ++ said ++ behind = own ++ word :: rest) :
    (∃ between, own = before ++ said ++ between ∧ behind = between ++ word :: rest) ∨
      (∃ between, before = own ++ word :: between ∧ rest = between ++ said ++ behind) ∨
      ∃ first last, said = first ++ word :: last ∧ own = before ++ first := by
  rcases List.append_eq_append_iff.mp h with ⟨between, rfl, hbehind⟩ | ⟨last, hlast, hrest⟩
  · exact .inl ⟨between, rfl, hbehind⟩
  cases last with
  | nil => exact .inl ⟨[], by simpa using hlast.symm, by simpa using hrest.symm⟩
  | cons w last =>
    obtain ⟨rfl, rfl⟩ := List.cons.inj hrest
    rcases List.append_eq_append_iff.mp hlast with ⟨first, rfl, hsaid⟩ | ⟨between, rfl, hsaid⟩
    · exact .inr (.inr ⟨first, last, hsaid, rfl⟩)
    cases between with
    | nil => exact .inr (.inr ⟨[], last, by simpa using hsaid.symm, by simp⟩)
    | cons w between =>
      obtain ⟨rfl, rfl⟩ := List.cons.inj hsaid
      exact .inr (.inl ⟨between, rfl, by simp⟩)

theorem not_isCommand_of_names (hknown : (name, slot) ∈ Level.program.options)
    (hnames : Names name word) : choose Level.program.commands word ≠ some l := by
  intro hcommand
  obtain ⟨value, hlong⟩ := (names_iff hknown).mp hnames
  rw [plain_of_isCommand hcommand] at hlong
  cases hlong

/-- No part of an option is read as a command. The option itself is no plain word, and behind it the
words in front would end with an option that waits. -/
theorem Parser.Documented.not_isCommand_of_said (hp : p.Documented)
    (hknown : (name, slot) ∈ Level.program.options)
    (hsaid : Spelled name value said) {first last : List Bytes}
    (hparts : said = first ++ word :: last) (hbefore : Word.dashes ∉ before)
    (hown : p.level .program (before ++ first) = .ok outer) :
    choose Level.program.commands word ≠ some l := by
  cases hsaid with
  | joined =>
    cases first with
    | nil =>
      cases hparts
      exact not_isCommand_of_names hknown (.inr ⟨value, by simp⟩)
    | cons w first => simp at hparts
  | apart =>
    rcases first with _ | ⟨w, _ | ⟨w', first⟩⟩
    · cases hparts
      exact not_isCommand_of_names hknown (.inl rfl)
    · cases hparts
      exact absurd hown (hp.wantsValue hknown hbefore)
    · simp at hparts

/-- No line ends with an option that waits for its value. -/
theorem Parser.Documented.not_means_of_option (hp : p.Documented)
    (hknown : (name, slot) ∈ Level.program.options)
    (hbefore : Word.dashes ∉ before) :
    ¬ p.Means environment (before ++ [Word.option name]) i := by
  intro h
  generalize hwords : before ++ [Word.option name] = words at h
  obtain ⟨hdashes, hown, hcommand, hrest, -⟩ := h
  rw [← List.append_nil (before ++ _)] at hwords
  rcases append_cases hwords with ⟨b, -, hb⟩ | ⟨b, rfl, rfl⟩ | ⟨first, last, hparts, rfl⟩
  · simp at hb
  · -- the command's own level ends with the option
    rw [List.append_nil] at hrest
    exact hp.wantsValue hknown (fun hb => hbefore (by simp [hb])) hrest
  · cases first with
    | nil =>
      cases hparts
      exact not_isCommand_of_names hknown (.inl rfl) hcommand
    | cons w first => simp at hparts

/-! ## One option less, one option more -/

/-- A line without one of its options means the same but for what the option sets. -/
theorem Parser.Documented.without_option (hp : p.Documented)
    (hknown : (name, slot) ∈ Level.program.options)
    (hsaid : Spelled name value said) (hbefore : Word.dashes ∉ before)
    (h : p.Means environment (before ++ said ++ behind) i) :
    ∃ σ, Setting.ofWord? slot value = some σ ∧ (Unnamed name (before ++ behind) →
      ∃ i', p.Means environment (before ++ behind) i' ∧ i = i'.set σ) := by
  generalize hwords : before ++ said ++ behind = words at h
  obtain ⟨hdashes, hown, hcommand, hrest, hc⟩ := h
  rcases append_cases hwords with ⟨b, rfl, rfl⟩ | ⟨b, rfl, rfl⟩ | ⟨first, last, hparts, rfl⟩
  · -- the option stands in front of the command
    obtain ⟨σ, hσ, hset⟩ := hp.sets hknown hsaid hbefore hown
    refine ⟨σ, hσ, ?_⟩
    intro hunnamed
    have hdashes' : Word.dashes ∉ before ++ b := by
      simp only [List.mem_append, not_or] at hdashes ⊢
      exact ⟨hbefore, hdashes.2⟩
    rw [← List.append_assoc] at hunnamed ⊢
    obtain ⟨hfirst, hlast⟩ := (unnamed_append hdashes').mp hunnamed
    obtain ⟨outer, houter, rfl⟩ := hset (unnamed_of_forall hfirst)
    have hinner := hp.unset hknown
      ((unnamed_cons (ne_dashes_of_isCommand hcommand)).mp hlast).2 hrest
    exact ⟨_, ⟨hdashes', houter, hcommand, hrest, hc⟩,
      invocation_set_outer (Setting.slot_eq hσ ▸ hinner)⟩
  · -- it stands behind the command
    have hb : Word.dashes ∉ b := fun hb => hbefore (by simp [hb])
    obtain ⟨σ, hσ, hset⟩ := hp.sets hknown hsaid hb hrest
    refine ⟨σ, hσ, ?_⟩
    intro hunnamed
    rw [List.append_assoc, List.cons_append] at hunnamed ⊢
    obtain ⟨-, hlast⟩ := (unnamed_append hdashes).mp hunnamed
    obtain ⟨inner, hinner, rfl⟩ :=
      hset ((unnamed_cons (ne_dashes_of_isCommand hcommand)).mp hlast).2
    exact ⟨_, ⟨hdashes, hown, hcommand, hinner, (commandOf_set inner).symm.trans hc⟩,
      invocation_set_inner⟩
  · exact absurd hcommand (hp.not_isCommand_of_said hknown hsaid hparts hbefore hown)

theorem dashes_not_mem_of_said (hknown : (name, slot) ∈ Level.program.options)
    (hsaid : Spelled name value said) (hvalue : Setting.ofWord? slot value = some σ) :
    Word.dashes ∉ said := by
  have hplain : Word.dashes ≠ value := by
    rintro rfl
    cases Setting.plain hvalue
  have hoption : Word.dashes ≠ Word.option name := by
    intro heq
    exact not_names_dashes hknown (.inl heq)
  have happend : Word.dashes ≠ Word.option name ++ Word.equals :: value := by
    intro heq
    exact not_names_dashes hknown (.inr ⟨value, by simp [heq]⟩)
  cases hsaid with
  | apart => simp [hplain, hoption]
  | joined => simpa using happend

/-- A line with one option more means the same but for what the option sets. -/
theorem Parser.Documented.with_option (hp : p.Documented)
    (hknown : (name, slot) ∈ Level.program.options)
    (hsaid : Spelled name value said) (hvalue : Setting.ofWord? slot value = some σ)
    (hroom : Open before) (hunnamed : Unnamed name (before ++ behind))
    (h : p.Means environment (before ++ behind) i) :
    p.Means environment (before ++ said ++ behind) (i.set σ) := by
  have hbefore := hroom.unescaped
  generalize hwords : before ++ behind = words at h
  obtain ⟨hdashes, hown, hcommand, hrest, hc⟩ := h
  rw [hwords] at hunnamed
  -- neither level has the option yet, so the new one is the only one that is read
  obtain ⟨hfirst, hlast⟩ := (unnamed_append hdashes).mp hunnamed
  have hlast := ((unnamed_cons (ne_dashes_of_isCommand hcommand)).mp hlast).2
  rw [← List.append_nil before] at hwords
  rcases append_cases hwords with ⟨b, rfl, rfl⟩ | ⟨b, rfl, rfl⟩ | ⟨first, last, hparts, -⟩
  · -- the option comes to stand in front of the command
    rw [List.append_nil] at hdashes hown hfirst
    have hsaid' := dashes_not_mem_of_said hknown hsaid hvalue
    have hinner := hp.unset hknown hlast hrest
    have houter := hp.takes hknown hsaid hvalue hbefore (hroom.valued .program)
      (unnamed_of_forall hfirst) hown
    rw [← invocation_set_outer (Setting.slot_eq hvalue ▸ hinner), ← List.append_assoc]
    refine ⟨?_, houter, hcommand, hrest, hc⟩
    simp only [List.mem_append, not_or] at hdashes ⊢
    exact ⟨⟨hbefore, hsaid'⟩, hdashes.2⟩
  · -- it comes to stand behind the command
    rw [List.append_nil] at hrest hlast
    have hb : Word.dashes ∉ b := fun hb => hbefore (by simp [hb])
    have hvalued : ∀ l : Level, ∀ o ∈ l.options, b.getLast? ≠ some (Word.option o.1) := by
      intro l o ho hend
      exact hroom.valued l o ho (by simp [List.getLast?_cons, hend])
    have hinner := hp.takes hknown hsaid hvalue hb (hvalued _) hlast hrest
    rw [← invocation_set_inner, List.append_assoc, List.append_assoc, List.cons_append,
      ← List.append_assoc b]
    exact ⟨hdashes, hown, hcommand, hinner, (commandOf_set _).trans hc⟩
  · simp at hparts

/-! ## One option moved -/

/-- Both spellings of an option name it once, and no other option. -/
theorem countP_said (hknown : (name, slot) ∈ Level.program.options)
    (hsaid : Spelled name value said) (hvalue : Setting.ofWord? slot value = some σ)
    {other : String} (hother : Shared other) :
    said.countP (Names other ·) = if other = name then 1 else 0 := by
  obtain ⟨place, hother⟩ := shared_iff.mp hother
  have hinj : ∀ o ∈ Level.program.options, ∀ e ∈ Level.program.options,
      Text.encode o.1 = Text.encode e.1 → e.1 = o.1 := by decide
  have hiff : Text.encode name = Text.encode other ↔ other = name :=
    ⟨hinj _ hknown _ hother, fun h => by rw [h]⟩
  have hplain : ¬ Names other value := by
    simp [names_iff hother, Setting.plain hvalue]
  have hoption : Names other (Word.option name) ↔ other = name := by
    simp [names_iff hother, ofBytes_option hknown, hiff]
  have happend : Names other (Word.option name ++ Word.equals :: value) ↔ other = name := by
    simp [names_iff hother, ofBytes_option_append hknown, hiff]
  cases hsaid with
  | apart => simp [List.countP_cons, hplain, hoption]
  | joined => simp [List.countP_cons, happend]

theorem occurrences_append (hbefore : Word.dashes ∉ before) (behind : List Bytes) :
    occurrences name (before ++ behind) =
      before.countP (Names name ·) + occurrences name behind := by
  unfold occurrences
  rw [takeWhile_append_of_not_mem hbefore, List.countP_append]

theorem occurrences_said (hbefore : Word.dashes ∉ before) (hsaid : Word.dashes ∉ said) :
    occurrences name (before ++ said ++ behind) =
      occurrences name (before ++ behind) + said.countP (Names name ·) := by
  rw [List.append_assoc, occurrences_append hbefore, occurrences_append hsaid,
    occurrences_append hbefore]
  omega

/-- A line that has an option once does not name it in the rest. -/
theorem unnamed_of_once (hknown : (name, slot) ∈ Level.program.options)
    (hsaid : Spelled name value said) (hvalue : Setting.ofWord? slot value = some σ)
    (hbefore : Word.dashes ∉ before) (honce : occurrences name (before ++ said ++ behind) ≤ 1) :
    Unnamed name (before ++ behind) := by
  apply unnamed_of_occurrences
  rw [occurrences_said hbefore (dashes_not_mem_of_said hknown hsaid hvalue),
    countP_said hknown hsaid hvalue (shared_iff.mpr ⟨slot, hknown⟩), if_pos rfl] at honce
  omega

/-- When one option moves, a line keeps its meaning and has each option as often as before. -/
theorem Parser.Documented.means_of_moved (hp : p.Documented) (h : Moved words words')
    (honce : ∀ name, Shared name → occurrences name words ≤ 1)
    (hmeans : p.Means environment words i) :
    p.Means environment words' i ∧
      ∀ name, Shared name → occurrences name words' = occurrences name words := by
  obtain ⟨hshared, was, hbefore, becomes, room, rest⟩ := h
  -- the option is taken out where it stood, and put in where it comes to stand
  obtain ⟨slot, hknown⟩ := shared_iff.mp hshared
  obtain ⟨σ, hσ, hwithout⟩ := hp.without_option hknown was hbefore hmeans
  have hunnamed := unnamed_of_once hknown was hσ hbefore (honce _ hshared)
  obtain ⟨i, hi, rfl⟩ := hwithout hunnamed
  rw [rest] at hi hunnamed
  refine ⟨hp.with_option hknown becomes hσ room hunnamed hi, ?_⟩
  intro other hother
  rw [occurrences_said hbefore (dashes_not_mem_of_said hknown was hσ), rest,
    occurrences_said room.unescaped (dashes_not_mem_of_said hknown becomes hσ),
    countP_said hknown was hσ hother, countP_said hknown becomes hσ hother]

theorem Parser.Documented.means_of_moves (hp : p.Documented)
    (h : Relation.ReflTransGen Moved words words')
    (honce : ∀ name, Shared name → occurrences name words ≤ 1)
    (hmeans : p.Means environment words i) :
    p.Means environment words' i ∧ ∀ name, Shared name → occurrences name words' ≤ 1 := by
  induction h with
  | refl => exact ⟨hmeans, honce⟩
  | tail _ hmoved ih =>
    obtain ⟨hmeans, honce⟩ := ih
    obtain ⟨hmeans', hoccurrences⟩ := hp.means_of_moved hmoved honce hmeans
    refine ⟨hmeans', ?_⟩
    intro name hname
    rw [hoccurrences name hname]
    exact honce name hname

/-! ## The log level -/

theorem eq_word_of_choose {level : LogLevel} (h : choose logLevels value = some level) :
    value = Text.encode level.word := by
  have hall : ∀ e ∈ logLevels, e.1 = e.2.word := by decide
  obtain ⟨e, he, rfl, rfl⟩ := exists_of_choose h
  rw [hall e he]

/-- A line that gives an option no value does not name it. -/
theorem Parser.Documented.unnamed_of_not_gives (hp : p.Documented)
    (hshared : Shared name) (hmeans : p.Means environment words i)
    (hgives : ∀ value, ¬ Gives name value words) : Unnamed name words := by
  obtain ⟨slot, hknown⟩ := shared_iff.mp hshared
  intro word hword hnames
  obtain ⟨before, last, hfront⟩ := List.append_of_mem hword
  have hbefore : Word.dashes ∉ before := by
    intro hmem
    have hfrom : Word.dashes ∈ words.takeWhile (· ≠ Word.dashes) := by
      rw [hfront]
      exact List.mem_append_left _ hmem
    simpa using List.all_eq_true.mp List.all_takeWhile _ hfrom
  have hwords : words = before ++ word :: (last ++ words.dropWhile (· ≠ Word.dashes)) := by
    rw [← List.cons_append, ← List.append_assoc, ← hfront, List.takeWhile_append_dropWhile]
  generalize last ++ words.dropWhile (· ≠ Word.dashes) = behind at hwords
  rcases hnames with rfl | ⟨value, rfl⟩
  · -- the option is a word of its own, so the next word is its value
    cases behind with
    | nil => exact hp.not_means_of_option hknown hbefore (hwords ▸ hmeans)
    | cons value behind => exact hgives value ⟨before, _, behind, by simp [hwords], hbefore, .apart⟩
  · exact hgives value ⟨before, _, behind, by simp [hwords], hbefore, .joined⟩

theorem Parser.Documented.ranked_of_means (hp : p.Documented) (henv : Sensible environment)
    (honce : ∀ name, Shared name → occurrences name words ≤ 1)
    (hmeans : p.Means environment words i) : Ranked environment words i.logLevel := by
  have hknown : ("log-level", Slot.logLevel) ∈ Level.program.options := by decide
  have hshared : Shared "log-level" := shared_iff.mpr ⟨.logLevel, hknown⟩
  -- where the line gives no level, neither level of the line has read one
  have hnone : (∀ value, ¬ Gives "log-level" value words) →
      i.logLevel = logLevel none environment := by
    intro hgives
    have hunnamed := hp.unnamed_of_not_gives hshared hmeans hgives
    obtain ⟨hdashes, hown, hcommand, hrest, -⟩ := hmeans
    obtain ⟨hfirst, hlast⟩ := (unnamed_append hdashes).mp hunnamed
    have houter := hp.unset hknown (unnamed_of_forall hfirst) hown
    have hinner := hp.unset hknown
      ((unnamed_cons (ne_dashes_of_isCommand hcommand)).mp hlast).2 hrest
    simp only [Reading.has, Option.isSome_eq_false_iff, Option.isNone_iff_eq_none] at houter hinner
    simp [invocation, houter, hinner]
  constructor
  · rintro value ⟨before, said, behind, rfl, hbefore, hsaid⟩
    obtain ⟨σ, hσ, hwithout⟩ := hp.without_option hknown hsaid hbefore hmeans
    obtain ⟨i, -, rfl⟩ := hwithout (unnamed_of_once hknown hsaid hσ hbefore (honce _ hshared))
    obtain ⟨level, hlevel, rfl⟩ := Option.map_eq_some_iff.mp hσ
    exact eq_word_of_choose hlevel
  · intro hgives word hword
    obtain ⟨level, rfl⟩ := henv word hword
    rw [hnone hgives, Option.mem_def.mp hword]
    cases level <;> rfl
  · rintro hgives rfl
    exact hnone hgives

/-- Whatever library reads the line: options that every level knows, each given once at most, may
move and be written either way, and the log level is ranked. -/
theorem Parser.Documented.options_count (hp : p.Documented) (henv : Sensible environment)
    (honce : ∀ name, Shared name → occurrences name words ≤ 1)
    (hvalid : p.line environment words = .ok i) :
    (∀ words', Relation.ReflTransGen Moved words words' → p.line environment words' = .ok i) ∧
      Ranked environment words i.logLevel := by
  have hmeans := (hp.twoLevels henv).mp hvalid
  refine ⟨?_, hp.ranked_of_means henv honce hmeans⟩
  intro words' hmoves
  exact (hp.twoLevels henv).mpr (hp.means_of_moves hmoves honce hmeans).1

end Moving

/-- In a valid line that has each shared option at most once, these options may move and be written
either way without any change of what the line is read as, and the log level is the option's, else
the environment's, else `info`. -/
theorem options_count_wherever_they_stand {environment : Option Bytes} {words : List Bytes}
    {i : Invocation} (henv : Sensible environment)
    (honce : ∀ name, Shared name → occurrences name words ≤ 1)
    (hvalid : parse environment words = .ok i) :
    (∀ words', Relation.ReflTransGen Moved words words' → parse environment words' = .ok i) ∧
      Ranked environment words i.logLevel :=
  parser_documented.options_count henv honce hvalid

/-- Each option moves over the command, and the other way round it is written the other way. -/
theorem log_level_moves_behind_command :
    let environment := some (Text.encode "warn")
    let words := ["--log-level=debug", "listen", "--count", "2", "s", "--format", "json"].map
      Text.encode
    let words' := ["--format=json", "listen", "--count", "2", "--log-level", "debug", "s"].map
      Text.encode
    let i : Invocation := ⟨some .json, .text, .debug, .listen (Text.encode "s") (some 2)⟩
    Sensible environment ∧ (∀ name, Shared name → occurrences name words ≤ 1) ∧
      parse environment words = .ok i ∧ Relation.ReflTransGen Moved words words' ∧
      parse environment words' = .ok i ∧ Ranked environment words .debug := by
  intro environment words words' i
  have henv : Sensible environment := by
    intro word hword
    exact ⟨.warn, (Option.some.inj hword).symm⟩
  have honce : ∀ name ∈ Level.program.options.map Prod.fst, occurrences name words ≤ 1 := by decide
  have hvalid : parse environment words = .ok i := rfl
  have hbehind : Open (["listen", "--count", "2"].map Text.encode) :=
    ⟨by decide, by intro l; cases l <;> decide⟩
  have hfirst : Moved words
      (["listen", "--count", "2", "--log-level", "debug", "s", "--format", "json"].map
        Text.encode) :=
    @Moved.intro "log-level" (Text.encode "debug") [] _ _ _ _
      (["s", "--format", "json"].map Text.encode) (by decide) .joined (by decide) .apart hbehind rfl
  have hlast : Moved _ words' :=
    @Moved.intro "format" (Text.encode "json")
      (["listen", "--count", "2", "--log-level", "debug", "s"].map Text.encode) _ [] [] _ _
      (by decide) .apart (by decide) .joined ⟨by decide, by simp⟩ rfl
  have hmoves := Relation.ReflTransGen.single hfirst |>.tail hlast
  obtain ⟨hmoved, hranked⟩ := options_count_wherever_they_stand henv honce hvalid
  exact ⟨henv, honce, hvalid, hmoves, hmoved words' hmoves, hranked⟩

end CommandLine

end LocalIpc

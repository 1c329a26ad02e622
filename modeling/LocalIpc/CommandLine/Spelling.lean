import LocalIpc.CommandLine.Basic
/-!
# Spellings of a command line

The options that every level knows can be written in many places and in two ways. Here is what it
means for a line to give such an option, for one line to be another with an option moved, and for a
log level to be the one that is asked for.
-/

namespace LocalIpc.CommandLine

namespace Word

/-- The word behind which all words are plain. -/
def dashes : Bytes := [dash, dash]

/-- An option as a word of its own. -/
def option (name : String) : Bytes := dashes ++ Text.encode name

end Word

/-- The option may stand at any level: it is one of the program's own. -/
def Shared (name : String) : Prop := name ∈ Level.program.options.map Prod.fst

instance (name : String) : Decidable (Shared name) := inferInstanceAs (Decidable (_ ∈ _))

/-- An option and its value, in two words or in one. -/
inductive Spelled (name : String) (value : Bytes) : List Bytes → Prop
  | apart : Spelled name value [Word.option name, value]
  | joined : Spelled name value [Word.option name ++ Word.equals :: value]

/-- The word is the option, with or without a value in it. -/
def Names (name : String) (word : Bytes) : Prop :=
  word = Word.option name ∨ Word.option name ++ [Word.equals] <+: word

instance (name : String) (word : Bytes) : Decidable (Names name word) :=
  inferInstanceAs (Decidable (_ ∨ _))

/-- How often a line has an option. What stands behind `--` is none. -/
def occurrences (name : String) (words : List Bytes) : Nat :=
  (words.takeWhile (· ≠ Word.dashes)).countP (Names name ·)

/-- The line gives the option this value. -/
def Gives (name : String) (value : Bytes) (words : List Bytes) : Prop :=
  ∃ before said behind, words = before ++ said ++ behind ∧ Word.dashes ∉ before ∧
    Spelled name value said

/-- Behind these words there is room for an option: `--` is none of them, and the last of them is
not an option that waits for its value. -/
structure Open (before : List Bytes) : Prop where
  unescaped : Word.dashes ∉ before
  valued : ∀ l : Level, ∀ o ∈ l.options, before.getLast? ≠ some (Word.option o.1)

/-- The second line is the first with one option moved to another place, or written the other
way. -/
inductive Moved : List Bytes → List Bytes → Prop
  | intro {name : String} {value : Bytes} {before said behind before' said' behind' : List Bytes}
      (shared : Shared name) (was : Spelled name value said) (unescaped : Word.dashes ∉ before)
      (becomes : Spelled name value said') (room : Open before')
      (rest : before ++ behind = before' ++ behind') :
      Moved (before ++ said ++ behind) (before' ++ said' ++ behind')

/-- The environment asks for no log level, or for one that there is. -/
def Sensible (environment : Option Bytes) : Prop :=
  ∀ word ∈ environment, ∃ level : LogLevel, word = Text.encode level.word

/-- The log level is the one that the line gives, else the one that the environment asks for, else
`info`. -/
structure Ranked (environment : Option Bytes) (words : List Bytes) (level : LogLevel) : Prop where
  given : ∀ value, Gives "log-level" value words → value = Text.encode level.word
  inherited : (∀ value, ¬ Gives "log-level" value words) →
    ∀ word ∈ environment, word = Text.encode level.word
  otherwise : (∀ value, ¬ Gives "log-level" value words) → environment = none → level = .info

end LocalIpc.CommandLine

import LocalIpc.Proofs.CommandLine.Setting
/-!
# Libraries that read command lines

A line is read on two levels, and each level knows the options of the program's own. What is
documented of a library that reads lines is said here of one level at a time, and of how the two
levels go together.
-/

namespace LocalIpc.CommandLine

structure Parser where
  /-- What is read of the words of one level. -/
  level : Level → List Bytes → Except UsageError Reading
  /-- What a whole line asks for. -/
  line : Option Bytes → List Bytes → Except UsageError Invocation

/-- Options, a command and the words behind it, and what they stand for: what is given behind the
command counts before what is given in front of it, and that before the environment. -/
inductive Stands (own : List Bytes → Except UsageError Reading)
    (level : Level → List Bytes → Except UsageError Reading) (environment : Option Bytes) :
    List Bytes → Invocation → Prop
  | intro {front rest : List Bytes} {word : Bytes} {l : Level} {outer inner : Reading} {c : Command}
      (unescaped : Word.dashes ∉ front) (readsOwn : own front = .ok outer)
      (isCommand : choose Level.program.commands word = some l)
      (readsRest : level l rest = .ok inner) (asks : commandOf l inner = .ok c) :
      Stands own level environment (front ++ word :: rest) (invocation outer inner environment c)

namespace Parser

/-- What a line means to a library. -/
def Means (p : Parser) : Option Bytes → List Bytes → Invocation → Prop :=
  Stands (p.level .program) p.level

/-- What is documented of a library that reads command lines. -/
structure Documented (p : Parser) : Prop where
  /-- An option wants its value. -/
  wantsValue : ∀ {l name slot words r}, (name, slot) ∈ Level.program.options →
    Word.dashes ∉ words → p.level l (words ++ [Word.option name]) ≠ .ok r
  /-- A level has nothing for an option that no word of it names. -/
  unset : ∀ {l name slot words r}, (name, slot) ∈ Level.program.options → Unnamed name words →
    p.level l words = .ok r → r.has slot = false
  /-- The value of an option is one of those that there are. The option sets that, and nothing else
  that is read depends on it. -/
  sets : ∀ {l name slot value before said behind r}, (name, slot) ∈ Level.program.options →
    Spelled name value said → Word.dashes ∉ before →
    p.level l (before ++ said ++ behind) = .ok r →
    ∃ σ, Setting.ofWord? slot value = some σ ∧ (Unnamed name (before ++ behind) →
      ∃ s, p.level l (before ++ behind) = .ok s ∧ r = s.set σ)
  /-- An option is taken wherever there is room for it. -/
  takes : ∀ {l name slot value before said behind r σ}, (name, slot) ∈ Level.program.options →
    Spelled name value said → Setting.ofWord? slot value = some σ → Word.dashes ∉ before →
    (∀ o ∈ l.options, before.getLast? ≠ some (Word.option o.1)) →
    Unnamed name (before ++ behind) → p.level l (before ++ behind) = .ok r →
    p.level l (before ++ said ++ behind) = .ok (r.set σ)
  /-- A line is options of the program's own, a command, and what the level of the command reads. -/
  twoLevels : ∀ {environment words i}, Sensible environment →
    (p.line environment words = .ok i ↔ p.Means environment words i)

end Parser

end LocalIpc.CommandLine

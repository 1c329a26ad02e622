import LocalIpc.CommandLine.Value
/-!
# Reading one level

A command line has two levels, the program's own and that of its command, and each is read word by
word. The value of an option is looked at when the next thing of its level comes, or at the end, so
that a word which nobody knows is reported first.
-/

namespace LocalIpc.CommandLine

inductive Level
  | program
  | echo
  | listen
  | version
  deriving DecidableEq

/-- A place for a value. -/
inductive Slot
  | format
  | logFormat
  | logLevel
  | count
  | path
  deriving DecidableEq

inductive Flag
  | help
  | version
  | extended
  deriving DecidableEq

namespace Level

/-- The options with a value that a level knows by their long names. -/
def options (l : Level) : List (String × Slot) :=
  [("format", .format), ("log-format", .logFormat), ("log-level", .logLevel)]
    ++ if l = .listen then [("count", .count)] else []

/-- The options without a value. -/
def flags (l : Level) : List (String × Flag) :=
  ("help", .help) :: match l with
    | .program => [("version", .version)]
    | .version => [("extended", .extended)]
    | _ => []

/-- The options of one letter. -/
def letters (l : Level) : List (String × Flag) :=
  ("h", .help) :: if l = .program then [("V", .version)] else []

/-- The commands that a level has. -/
def commands : Level → List (String × Level)
  | .program => [("echo", .echo), ("listen", .listen), ("version", .version)]
  | _ => []

def takesPath : Level → Bool
  | .echo | .listen => true
  | _ => false

end Level

/-- The form of a word. -/
inductive Word
  /-- `--`: all words behind it are plain. -/
  | escape
  | long (name : Bytes) (value : Option Bytes)
  | short (letter : UInt8)
  | plain
  deriving DecidableEq

namespace Word

def dash : UInt8 := 0x2D

def equals : UInt8 := 0x3D

def ofBytes : Bytes → Word
  | [] => .plain
  | [_] => .plain
  | a :: b :: rest =>
    if a ≠ dash then .plain
    else if b ≠ dash then .short b
    else if rest = [] then .escape
    else if equals ∈ rest then
      .long (rest.takeWhile (· ≠ equals)) (some ((rest.dropWhile (· ≠ equals)).drop 1))
    else .long rest none

end Word

/-- What was read of a level so far. -/
structure Reading where
  format : Option OutputFormat
  logFormat : Option LogFormat
  logLevel : Option LogLevel
  count : Option UInt64
  path : Option Path
  extended : Bool
  /-- A place whose value was not looked at yet, or did not come yet. -/
  pending : Option (Slot × Option Bytes)
  /-- The path has come. -/
  placed : Bool
  escaped : Bool
  deriving DecidableEq

namespace Reading

def empty : Reading := ⟨none, none, none, none, none, false, none, false, false⟩

/-- An option waits for its value. -/
def awaits (r : Reading) : Bool :=
  match r.pending with
  | some (_, none) => true
  | _ => false

/-- An option may stand once. -/
def once {α : Type} (old : Option α) (new : Except UsageError α) : Except UsageError (Option α) :=
  match old with
  | some _ => .error .argumentConflict
  | none => new.map some

def fill (r : Reading) (slot : Slot) (word : Bytes) : Except UsageError Reading :=
  match slot with
  | .format => do .ok { r with format := ← once r.format (oneOf formats word) }
  | .logFormat => do .ok { r with logFormat := ← once r.logFormat (oneOf logFormats word) }
  | .logLevel => do .ok { r with logLevel := ← once r.logLevel (oneOf logLevels word) }
  | .count => do .ok { r with count := ← once r.count (CommandLine.count word) }
  | .path => do .ok { r with path := ← once r.path (CommandLine.path word) }

/-- Looks at the value that was left. -/
def resolve (r : Reading) : Except UsageError Reading :=
  match r.pending with
  | none => .ok r
  | some (_, none) => .error .invalidValue
  | some (slot, some word) => { r with pending := none }.fill slot word

def raise (r : Reading) : Flag → Except UsageError Reading
  | .help => .error .displayHelp
  | .version => .error .displayVersion
  | .extended => if r.extended then .error .argumentConflict else .ok { r with extended := true }

def long (l : Level) (name : Bytes) (value : Option Bytes) (r : Reading) :
    Except UsageError Reading :=
  match choose l.options name, choose l.flags name, value with
  | some slot, _, some word => do (← r.resolve).fill slot word
  | some slot, _, none => do .ok { (← r.resolve) with pending := some (slot, none) }
  | none, some _, some _ => .error .tooManyValues
  | none, some flag, none => do (← r.resolve).raise flag
  | none, none, _ => .error .unknownArgument

def short (l : Level) (letter : UInt8) (r : Reading) : Except UsageError Reading :=
  match choose l.letters [letter] with
  | some flag => do (← r.resolve).raise flag
  | none => .error .unknownArgument

/-- A word that is no option. A command behind `--` is no command. -/
def place (l : Level) (word : Bytes) (r : Reading) : Except UsageError Reading :=
  if l.takesPath && !r.placed then do
    .ok { (← r.resolve) with pending := some (.path, some word), placed := true }
  else if l ≠ .program then .error .unknownArgument
  else if r.escaped && (word = Text.encode "help" || (choose l.commands word).isSome) then
    .error .unknownArgument
  else .error .invalidSubcommand

/-- Reads the next word. -/
def next (l : Level) (word : Bytes) (r : Reading) : Except UsageError Reading :=
  if r.escaped then r.place l word
  else match Word.ofBytes word, r.pending with
    | .escape, _ => .ok { r with escaped := true }
    | .long name value, _ => r.long l name value
    | .short letter, _ => r.short l letter
    | .plain, some (slot, none) => .ok { r with pending := some (slot, some word) }
    | .plain, _ => r.place l word

/-- The end of a level. The level of the log may come from the environment; what stands there has to
be a level unless the option is given here. -/
def finish (environment : Option Bytes) (r : Reading) : Except UsageError Reading := do
  let r ← r.resolve
  match r.logLevel, environment with
  | none, some word => do
    let _ ← oneOf logLevels word
    .ok r
  | _, _ => .ok r

/-- No option was given. -/
def isBare (r : Reading) : Bool := r.format.isNone && r.logFormat.isNone && r.logLevel.isNone

end Reading

end LocalIpc.CommandLine

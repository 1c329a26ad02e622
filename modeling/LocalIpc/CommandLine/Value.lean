import LocalIpc.CommandLine.Invocation
/-!
# Values on the command line
-/

namespace LocalIpc.CommandLine

/-- The entry whose name is the given word, byte for byte. -/
def choose {α : Type} (table : List (String × α)) (word : Bytes) : Option α :=
  (table.find? fun e => Text.encode e.1 = word).map Prod.snd

def formats : List (String × OutputFormat) :=
  [("json", .json), ("table", .table), ("pretty", .pretty), ("raw", .raw)]

def logFormats : List (String × LogFormat) := [("text", .text), ("json", .json)]

def logLevels : List (String × LogLevel) :=
  [LogLevel.off, .error, .warn, .info, .debug, .trace].map fun l => (l.word, l)

/-- One of the values that there are. -/
def oneOf {α : Type} (table : List (String × α)) (word : Bytes) : Except UsageError α :=
  match choose table word with
  | some a => .ok a
  | none => .error .invalidValue

def digit? (b : UInt8) : Option Nat := if 0x30 ≤ b ∧ b ≤ 0x39 then some (b.toNat - 0x30) else none

/-- The number that digits make, with `n` in front of them. -/
def decimalFrom (n : Nat) : Bytes → Option Nat
  | [] => some n
  | b :: rest =>
    match digit? b with
    | some d => decimalFrom (10 * n + d) rest
    | none => none

/-- A whole number in digits, with or without a plus sign in front. -/
def decimal? : Bytes → Option Nat
  | [] => none
  | b :: rest =>
    if b = 0x2B then (if rest = [] then none else decimalFrom 0 rest)
    else decimalFrom 0 (b :: rest)

/-- A count of connections. -/
def count (word : Bytes) : Except UsageError UInt64 :=
  if (Text.decode? word).isNone then .error .invalidUtf8
  else match decimal? word with
    | some n => if n < UInt64.size then .ok (UInt64.ofNat n) else .error .valueValidation
    | none => .error .valueValidation

/-- A path. The empty word is none. -/
def path (word : Bytes) : Except UsageError Path :=
  if word = [] then .error .invalidValue else .ok word

end LocalIpc.CommandLine

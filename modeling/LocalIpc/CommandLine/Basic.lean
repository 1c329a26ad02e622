import LocalIpc.CommandLine.Reading
/-!
# Command lines

From the words of a command line to an invocation. Options that both levels know count wherever they
stand; where both levels give one, the inner one counts.
-/

namespace LocalIpc.CommandLine

/-- The command that a level asks for. -/
def commandOf (l : Level) (r : Reading) : Except UsageError Command :=
  match l, r.path with
  | .program, _ => .error .missingSubcommand
  | .version, _ => .ok (.version r.extended)
  | .echo, some path => .ok (.echo path)
  | .listen, some path => .ok (.listen path r.count)
  | _, none => .error .missingArgument

/-- Reads the words behind a command. -/
def readCommand (l : Level) (environment : Option Bytes) (words : List Bytes) :
    Except UsageError (Reading × Command) := do
  let r ← words.foldlM (fun r word => r.next l word) Reading.empty
  let r ← r.finish environment
  .ok (r, ← commandOf l r)

/-- The log level: the option's, else the environment's, else `info`. -/
def logLevel (given : Option LogLevel) (environment : Option Bytes) : LogLevel :=
  (given <|> environment.bind (choose logLevels)).getD .info

def invocation (outer inner : Reading) (environment : Option Bytes) (c : Command) : Invocation where
  format := inner.format <|> outer.format
  logFormat := (inner.logFormat <|> outer.logFormat).getD .text
  logLevel := logLevel (inner.logLevel <|> outer.logLevel) environment
  command := c

/-- The words behind `help` have to name a command. -/
def help : List Bytes → UsageError
  | [] => .displayHelp
  | [word] =>
    if word = Text.encode "help" || (choose Level.program.commands word).isSome then .displayHelp
    else .invalidSubcommand
  | _ => .invalidSubcommand

/-- Reads the words of the program's own level up to a command. -/
def read (environment : Option Bytes) : Reading → List Bytes → Except UsageError Invocation
  | r, [] => do
    let r ← r.finish environment
    .error (if r.isBare && environment.isNone then .displayHelpOnMissing else .missingSubcommand)
  | r, word :: rest =>
    if r.escaped || r.awaits then do read environment (← r.next .program word) rest
    else if word = Text.encode "help" then .error (help rest)
    else match choose Level.program.commands word with
      | some l => do
        let (inner, command) ← readCommand l environment rest
        let outer ← r.finish environment
        .ok (invocation outer inner environment command)
      | none => do read environment (← r.next .program word) rest

/-- The invocation that a command line stands for. `environment` is the log level that the
environment asks for. -/
def parse (environment : Option Bytes) (words : List Bytes) : Except UsageError Invocation :=
  read environment Reading.empty words

end LocalIpc.CommandLine

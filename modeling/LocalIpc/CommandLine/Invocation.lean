import LocalIpc.Address.Path
import LocalIpc.Command.ExitStatus
import LocalIpc.Log.Level
import LocalIpc.Output.Format
/-!
# Invocations

What a command line asks for, and the ways in which one asks for nothing that can be done.
-/

namespace LocalIpc

inductive Command
  /-- Sends back what each client sends. -/
  | echo (path : Path)
  /-- Reports on each client; with a count, it ends after so many. -/
  | listen (path : Path) (count : Option UInt64)
  | version (extended : Bool)
  deriving DecidableEq

structure Invocation where
  format : Option OutputFormat
  logFormat : LogFormat
  logLevel : LogLevel
  command : Command
  deriving DecidableEq

/-- Why there is no invocation. Asking for help or for the version is one of the reasons. -/
inductive UsageError
  | displayHelp
  | displayVersion
  /-- Nothing at all was asked for. -/
  | displayHelpOnMissing
  | missingSubcommand
  | invalidSubcommand
  | missingArgument
  | unknownArgument
  | tooManyValues
  /-- An option stands twice at the same level. -/
  | argumentConflict
  /-- A value is missing, or is none of those that there are. -/
  | invalidValue
  /-- A value is no number in range. -/
  | valueValidation
  | invalidUtf8
  deriving DecidableEq

namespace UsageError

/-- Help and version are answers, not failures. -/
def isAnswer : UsageError → Bool
  | displayHelp | displayVersion => true
  | _ => false

def exitCode (e : UsageError) : Nat := if e.isAnswer then ExitCode.success else ExitCode.usage

end UsageError

end LocalIpc

import LocalIpc.ListenerError
/-!
# Exit status

The code with which a command ends, and what it says when it fails.
-/

namespace LocalIpc

namespace ExitCode

def success : Nat := 0
def failure : Nat := 1
def usage : Nat := 2
def transport : Nat := 3
def permissionDenied : Nat := 50
def badData : Nat := 60
/-- The command line names something that can never work, such as an unusable path. -/
def unusable : Nat := 64
def timeout : Nat := 124
def unclassified : Nat := 125

/-- The code for the kinds that a user can act on. -/
def ofKind? : ErrorKind → Option Nat
  | .permissionDenied => some permissionDenied
  | .timedOut | .wouldBlock => some timeout
  | .invalidData => some badData
  | .connectionRefused | .notFound => some failure
  | _ => none

end ExitCode

/-- A failure that ends a command. -/
structure CommandFailure where
  code : Nat
  message : String
  deriving DecidableEq

namespace CommandFailure

/-- A plain I/O failure, with what the command was doing in front. -/
def ofIo (context : String) (e : IoError) : CommandFailure where
  code := (ExitCode.ofKind? e.kind).getD ExitCode.unclassified
  message := context ++ ": " ++ e.message

/-- A failure of a listener. A bad path is an error of use; a native call is judged by its kind. -/
def ofListener (context : String) (e : ListenerError) : CommandFailure :=
  match e with
  | .io source => ofIo context source
  | .pathTooLong .. | .invalidPath .. => ⟨ExitCode.unusable, context ++ ": " ++ e.message⟩
  | .native _ source =>
    ⟨(ExitCode.ofKind? source.kind).getD ExitCode.transport, context ++ ": " ++ e.message⟩
  | _ => ⟨ExitCode.transport, context ++ ": " ++ e.message⟩

end CommandFailure

end LocalIpc

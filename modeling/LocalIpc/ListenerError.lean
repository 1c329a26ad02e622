import LocalIpc.Address.Path
import LocalIpc.IoError.Basic
import LocalIpc.Text.Quoted
/-!
# Errors of a listener

Every way in which an operation on a listener or a connection can fail, by cause. `message` is the
text that a user reads.
-/

namespace LocalIpc

/-- The native calls whose failures a listener reports. -/
inductive SystemCall
  | socket | bind | listen | accept | shutdown | close
  | pipeCreate | pipeConnect | pipeWait | pipeCancel | pipeDisconnect
  deriving DecidableEq

/-- The name under which the system knows the call. -/
def SystemCall.name : SystemCall → String
  | socket => "socket"
  | bind => "bind"
  | listen => "listen"
  | accept => "accept"
  | shutdown => "shutdown"
  | close => "close"
  | pipeCreate => "CreateNamedPipe"
  | pipeConnect => "ConnectNamedPipe"
  | pipeWait => "GetOverlappedResult"
  | pipeCancel => "CancelIoEx"
  | pipeDisconnect => "DisconnectNamedPipe"

inductive ListenerError
  /-- The path does not fit an address record. -/
  | pathTooLong (path : Path) (length max : Nat)
  /-- The path can name no socket file. -/
  | invalidPath (path : Path) (reason : String)
  | alreadyBound
  | notBound
  | alreadyClosed
  | unsupported (what : String)
  | native (op : SystemCall) (source : IoError)
  | io (source : IoError)
  deriving DecidableEq

namespace ListenerError

def message : ListenerError → String
  | pathTooLong path length max =>
    "socket path too long (" ++ toString length ++ " bytes, max " ++ toString max ++ "): "
      ++ Text.lossy path
  | invalidPath path reason => "invalid socket path " ++ Text.quoted path ++ ": " ++ reason
  | alreadyBound => "socket is already bound"
  | notBound => "socket is not bound"
  | alreadyClosed => "socket is already closed"
  | unsupported what => "unsupported operation: " ++ what
  | native op source => op.name ++ " failed: " ++ source.message
  | io source => "transport I/O error: " ++ source.message

/-- The I/O error behind the failure, if there is one. -/
def source? : ListenerError → Option IoError
  | native _ source => some source
  | io source => some source
  | _ => none

/-- The listener was used in a state that does not allow the operation. Trying again cannot help. -/
def isMisuse : ListenerError → Bool
  | alreadyBound | notBound | alreadyClosed | unsupported _ => true
  | _ => false

/-- The empty path names nothing. -/
def emptyPath : ListenerError := invalidPath [] "path is empty"

end ListenerError

end LocalIpc

import LocalIpc.Handle
import LocalIpc.IoError.Basic
/-!
# The pipe layer

The native calls that a pipe listener makes, and what the pipe layer may reply to them.
-/

namespace LocalIpc.Pipe

/-- A call to the pipe layer. -/
inductive Call
  /-- Reserves a name by a pipe of one instance. -/
  | createLock (path : String) (bufferSize : UInt32)
  | create (path : String) (maxInstances bufferSize : UInt32)
  /-- Starts to wait for a client. -/
  | connect (h : Handle)
  /-- Waits until a started connect is over. -/
  | wait (h : Handle)
  /-- Ends all work under way on an instance. -/
  | cancel (h : Handle)
  /-- Waits until work under way is over, or for `timeout` milliseconds. -/
  | quiesce (h : Handle) (timeout : Nat)
  | disconnect (h : Handle)
  | close (h : Handle)
  deriving DecidableEq

/-- How a connect starts out. -/
inductive ConnectStart
  | connected
  /-- A client came between the creation of the instance and the connect. -/
  | alreadyConnected
  /-- A client came and left before the connect. -/
  | noData
  /-- No client came yet. -/
  | pending
  | failed (e : IoError)
  deriving DecidableEq

/-- A reply of the pipe layer, of the kind that its call asks for. -/
inductive Reply
  | created (r : Except IoError Handle)
  | connect (status : ConnectStart)
  | done (r : Except IoError Unit)

/-- The failure in a reply that carries nothing else. -/
def failure? : Except IoError Unit → Option IoError
  | .ok _ => none
  | .error e => some e

end LocalIpc.Pipe

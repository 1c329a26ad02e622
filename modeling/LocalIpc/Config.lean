/-!
# Listener settings
-/

namespace LocalIpc

/-- Settings of a listener on a socket file. -/
structure UnixConfig where
  /-- How many connections may wait to be accepted. -/
  backlog : Int32
  /-- The permissions given to the socket file. Without them it keeps those it was made with. -/
  mode : Option UInt32
  /-- The listener removes the socket file it made when it is closed. -/
  cleanupOnClose : Bool
  deriving DecidableEq

namespace UnixConfig

def default : UnixConfig := ⟨50, some 0o600, true⟩

def ofBacklog (backlog : Int32) : UnixConfig := { default with backlog }

end UnixConfig

/-- Settings of a listener on a named pipe. -/
structure PipeConfig where
  /-- How many instances of the pipe may exist at once. -/
  maxInstances : UInt32
  bufferSize : UInt32
  /-- A read that gives fewer bytes than asked for is an error. -/
  strictLength : Bool
  /-- How many milliseconds an orderly disconnect waits for work under way. -/
  disconnectTimeout : Nat
  deriving DecidableEq

namespace PipeConfig

def default : PipeConfig := ⟨255, 65535, false, 10000⟩

end PipeConfig

end LocalIpc

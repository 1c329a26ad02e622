import LocalIpc.Address.Record
import LocalIpc.Handle
/-!
# The socket layer

The native calls that a listener on a socket file makes, and what the socket layer may reply to
them.
-/

namespace LocalIpc.Unix

/-- A call to the socket layer. -/
inductive Call
  | socket
  | bind (fd : Fd) (address : AddressRecord)
  | listen (fd : Fd) (backlog : Int32)
  /-- Waits for a client; the address of the client goes into the record. -/
  | accept (fd : Fd) (peer : AddressRecord)
  | shutdown (fd : Fd)
  | close (fd : Fd)

/-- What an operation that waits is told: a reply of the socket layer, of the kind that its call
asks for, or that it may go on at the file system. -/
inductive Reply
  | opened (r : Except IoError Fd)
  | done (r : Except IoError Unit)
  /-- As `done`, but before the operation removes a file, others may come in between. -/
  | doneSlowly (r : Except IoError Unit)
  | files

end LocalIpc.Unix

import LocalIpc.Command.ExitStatus
/-!
# Opening and closing the listener of a command
-/

namespace LocalIpc.CommandFailure

def ofBind (e : ListenerError) : CommandFailure := ofListener "bind failed" e

def ofAccept (e : ListenerError) : CommandFailure := ofListener "accept failed" e

def ofReceive (e : IoError) : CommandFailure := ofIo "receive failed" e

/-- What the close of a listener means for its command. An interrupt may have closed it before. -/
def ofClose? : Except ListenerError Unit → Option CommandFailure
  | .ok _ => none
  | .error e => if e.isMisuse then none else some (ofListener "close failed" e)

end LocalIpc.CommandFailure

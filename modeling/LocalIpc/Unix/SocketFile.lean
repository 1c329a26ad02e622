import LocalIpc.Host.Basic
import LocalIpc.ListenerError
/-!
# Socket files

When a listener may remove a file: before it binds, a socket file on which nobody answers, and after
it is closed, the socket file that it made itself.
-/

namespace LocalIpc.Unix

/-- The path names something else than a socket. -/
def notASocket : IoError := .custom .alreadyExists "existing path is not a unix socket"

/-- Somebody answers on the path. -/
def listenerActive : IoError := .custom .addrInUse "a listener is active on this path"

/-- Tries a connect and hangs up at once. -/
def probe (host : Host) (path : Path) : Except IoError Unit × Host :=
  match host.connect path with
  | (.ok fd, host) => (.ok (), (host.close fd).2)
  | (.error e, host) => (.error e, host)

/-! ## Before a bind -/

/-- Whether there is a socket file at a path. Anything else that is there is in the way. -/
def look (host : Host) (path : Path) : Except IoError Bool :=
  match host.tree.status path with
  | .error _ => .ok false
  | .ok status => if status.kind = .socket then .ok true else .error notASocket

/-- Whether a connect to the path is refused, so that the socket file counts as dead. One that has
gone by now is not in the way. -/
def isDead (host : Host) (path : Path) : Except IoError Bool × Host :=
  match probe host path with
  | (.ok _, host) => (.error listenerActive, host)
  | (.error e, host) =>
    if e.kind = .connectionRefused then (.ok true, host)
    else if e.kind = .notFound then (.ok false, host)
    else (.error e, host)

/-- Tries to remove what is at a path. -/
def remove (host : Host) (path : Path) : Except IoError Unit × Host :=
  match host.tree.unlink path with
  | .ok tree => (.ok (), { host with tree })
  | .error e => (.error e, host)

/-- Clears the way for a bind at a path, with nobody in between. A socket file goes only when a
connect to it is refused. -/
def clearWay (host : Host) (path : Path) : Except IoError Unit × Host :=
  match look host path with
  | .error e => (.error e, host)
  | .ok false => (.ok (), host)
  | .ok true =>
    match isDead host path with
    | (.error e, host) => (.error e, host)
    | (.ok false, host) => (.ok (), host)
    | (.ok true, host) => remove host path

/-! ## The own file -/

/-- The identity of the file at a path. -/
def identity? (host : Host) (path : Path) : Option FileId :=
  (host.tree.status path).toOption.map Tree.Status.id

/-- The path still names the socket file with that identity. -/
def isOwn (host : Host) (path : Path) (created : FileId) : Bool :=
  match host.tree.status path with
  | .ok status => status.kind == .socket && status.id == created
  | .error _ => false

/-- Removes the socket file that a listener made, if it is still there. Nobody is told when that
fails. -/
def removeOwn (host : Host) (path : Path) (created : FileId) : Host :=
  if isOwn host path created then (remove host path).2 else host

end LocalIpc.Unix

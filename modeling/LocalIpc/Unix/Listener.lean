import LocalIpc.Config
import LocalIpc.Connection.Basic
import LocalIpc.Unix.Native
import LocalIpc.Unix.SocketFile
/-!
# Listeners on a socket file

A listener is bound once and closed once. Bind and close hold a lock from start to end; accept only
looks at the listener under that lock and waits for a client without it. Every operation runs from
one native call to the next: a `Task` is an operation that waits, and a `Progress` is what it comes
to after the reply. An operation that is not alone with the files waits before each call to the file
system as well.
-/

namespace LocalIpc.Unix

inductive Phase
  | unbound
  | bound
  | closed
  deriving DecidableEq

def Phase.name : Phase → String
  | unbound => "Unbound"
  | bound => "Bound"
  | closed => "Closed"

structure Listener where
  config : UnixConfig
  slot : DescriptorSlot
  phase : Phase
  /-- The path that the listener was bound to. It is kept after a close. -/
  path : Option Path
  /-- The file that the native bind made. -/
  created : Option FileId

/-! ## Operations that wait -/

/-- An operation that waits, inside a native call or before a call to the file system. -/
inductive Task
  | binding (fd : Fd) (path : Path) (address : AddressRecord)
  | listening (fd : Fd) (path : Path) (created : Option FileId)
  /-- A bind that failed half way gives its descriptor back. -/
  | givingUp (fd : Fd) (path : Path) (created : Option FileId) (cause : ListenerError)
  | accepting (fd : Fd)
  /-- A client that came during a close is given back. -/
  | refusing (client : Fd)
  | shuttingDown (fd : Fd) (quiet : Bool)
  | closing (fd : Fd) (quiet : Bool)
  /-- A bind is about to look at its path. -/
  | looking (fd : Fd) (path : Path) (address : AddressRecord)
  /-- A bind has seen a socket file at its path, and is about to connect to it. -/
  | probing (fd : Fd) (path : Path) (address : AddressRecord)
  /-- A bind was refused at its path, and is about to remove what is there. -/
  | clearing (fd : Fd) (path : Path) (address : AddressRecord)
  /-- An operation at its end has seen its own file at the path, and is about to remove what is
  there. -/
  | sweeping (path : Path) (own : FileId) (quiet : Bool) (result : Except ListenerError Unit)

/-- The native call that a task waits in. -/
def Task.call (config : UnixConfig) : Task → Option Call
  | binding fd _ address => some (.bind fd address)
  | listening fd _ _ => some (.listen fd config.backlog)
  | givingUp fd _ _ _ => some (.close fd)
  | accepting fd => some (.accept fd .empty)
  | refusing client => some (.close client)
  | shuttingDown fd _ => some (.shutdown fd)
  | closing fd _ => some (.close fd)
  | looking .. | probing .. | clearing .. | sweeping .. => none

/-- A task goes on with a reply to its call. At the file system it goes on when it may. -/
def Task.takes : Task → Reply → Bool
  | accepting _, .opened _ => true
  | binding .., .done _ | listening .., .done _ | givingUp .., .done _ | refusing _, .done _
  | shuttingDown .., .done _ | closing .., .done _ => true
  | givingUp .., .doneSlowly _ | closing .., .doneSlowly _ => true
  | looking .., .files | probing .., .files | clearing .., .files | sweeping .., .files => true
  | _, _ => false

/-- The task waits before a call to the file system. -/
def Task.pauses (t : Task) : Bool := t.takes .files

/-- The operation holds the lock of its listener. -/
def Task.holdsLock : Task → Bool
  | accepting _ | refusing _ => false
  | _ => true

/-- How far an operation comes without the socket layer. -/
inductive Progress
  | waits (t : Task)
  /-- An accept hands out a client. -/
  | accepted (client : Fd)
  | done
  | failed (e : ListenerError)
  /-- A quiet close is over. -/
  | over

namespace Listener

def fresh (config : UnixConfig) (fd : Fd) : Listener := ⟨config, ⟨fd⟩, .unbound, none, none⟩

/-! ## Binding -/

/-- What keeps a listener from being bound to a path, before anything is looked at. -/
def checkBind (l : Listener) (path : Path) : Except ListenerError (Fd × AddressRecord) :=
  match l.phase with
  | .bound => .error .alreadyBound
  | .closed => .error .alreadyClosed
  | .unbound =>
    if path = [] then .error .emptyPath
    else do
      let address ← AddressRecord.encode .family path
      match l.slot.get with
      | some fd => .ok (fd, address)
      | none => .error .alreadyClosed

/-- A bind that is alone with the files. -/
def beginBind (l : Listener) (host : Host) (path : Path) : Progress × Host :=
  match l.checkBind path with
  | .error e => (.failed e, host)
  | .ok (fd, address) =>
    match clearWay host path with
    | (.ok _, host) => (.waits (.binding fd path address), host)
    | (.error e, host) => (.failed (.native .bind e), host)

/-- A bind that is not. -/
def beginBindSlowly (l : Listener) (path : Path) : Progress :=
  match l.checkBind path with
  | .error e => .failed e
  | .ok (fd, address) => .waits (.looking fd path address)

def afterLook (host : Host) (fd : Fd) (path : Path) (address : AddressRecord) : Progress :=
  match look host path with
  | .error e => .failed (.native .bind e)
  | .ok false => .waits (.binding fd path address)
  | .ok true => .waits (.probing fd path address)

def afterProbe (host : Host) (fd : Fd) (path : Path) (address : AddressRecord) : Progress × Host :=
  match isDead host path with
  | (.error e, host) => (.failed (.native .bind e), host)
  | (.ok false, host) => (.waits (.binding fd path address), host)
  | (.ok true, host) => (.waits (.clearing fd path address), host)

def afterClear (host : Host) (fd : Fd) (path : Path) (address : AddressRecord) : Progress × Host :=
  match remove host path with
  | (.ok _, host) => (.waits (.binding fd path address), host)
  | (.error e, host) => (.failed (.native .bind e), host)

/-- The file at the path is taken for the one that the native bind made. -/
def afterBind (host : Host) (fd : Fd) (path : Path) : Except IoError Unit → Progress
  | .ok _ => .waits (.listening fd path (identity? host path))
  | .error e => .failed (.native .bind e)

/-- Gives the file the permissions that are asked for. -/
def applyMode (config : UnixConfig) (host : Host) (path : Path) : Except IoError Host :=
  match config.mode with
  | none => .ok host
  | some mode => (host.tree.changeMode path mode).map fun tree => { host with tree }

/-- What an operation at its end comes to. `quiet` says that nobody is told that it is over, or how
it went. -/
def told (quiet : Bool) (result : Except ListenerError Unit) : Progress :=
  match result, quiet with
  | _, true => .over
  | .error e, false => .failed e
  | .ok _, false => .done

/-- The end of an operation that is alone with the files. Its own file goes. -/
def finishEnd (host : Host) (own : Option (Path × FileId)) (quiet : Bool)
    (result : Except ListenerError Unit) : Progress × Host :=
  (told quiet result, match own with
    | some (path, file) => removeOwn host path file
    | none => host)

/-- The end of one that is not. -/
def finishEndSlowly (host : Host) (own : Option (Path × FileId)) (quiet : Bool)
    (result : Except ListenerError Unit) : Progress :=
  match own with
  | some (path, file) =>
    if isOwn host path file then .waits (.sweeping path file quiet result) else told quiet result
  | none => told quiet result

/-- The file that a bind has made at its path. -/
def madeAt (path : Path) (created : Option FileId) : Option (Path × FileId) :=
  created.map fun file => (path, file)

def finishGiveUp (host : Host) (path : Path) (created : Option FileId) (cause : ListenerError) :
    Progress × Host :=
  finishEnd host (madeAt path created) false (.error cause)

/-- A bind that fails after the native bind closes the listener for good. -/
def giveUp (l : Listener) (host : Host) (path : Path) (created : Option FileId)
    (cause : ListenerError) : Progress × Listener × Host :=
  let closed := { l with phase := .closed, slot := l.slot.retire }
  match l.slot.get with
  | some fd => (.waits (.givingUp fd path created cause), closed, host)
  | none =>
    let (p, host) := finishGiveUp host path created cause
    (p, closed, host)

def afterListen (l : Listener) (host : Host) (path : Path) (created : Option FileId) :
    Except IoError Unit → Progress × Listener × Host
  | .error e => l.giveUp host path created (.native .listen e)
  | .ok _ =>
    match applyMode l.config host path with
    | .error e => l.giveUp host path created (.native .bind e)
    | .ok host => (.done, { l with phase := .bound, path := some path, created }, host)

/-! ## Accepting -/

def beginAccept (l : Listener) : Progress :=
  match l.phase with
  | .unbound => .failed .notBound
  | .closed => .failed .alreadyClosed
  | .bound =>
    match l.slot.get with
    | some fd => .waits (.accepting fd)
    | none => .failed .alreadyClosed

/-- A close that began in the meantime wins over the client. -/
def afterAccept (l : Listener) : Except IoError Fd → Progress
  | .error e => .failed (.native .accept e)
  | .ok client =>
    match l.slot.get with
    | some _ => .accepted client
    | none => .waits (.refusing client)

/-! ## Closing -/

/-- The own file, if it is to go when the listener is closed. -/
def own? (l : Listener) : Option (Path × FileId) :=
  match l.config.cleanupOnClose, l.path with
  | true, some path => madeAt path l.created
  | _, _ => none

def finishClose (l : Listener) (host : Host) (quiet : Bool) (r : Except IoError Unit) :
    Progress × Host :=
  finishEnd host l.own? quiet (r.mapError (.native .close))

/-- Closes the listener once. A bound listener is shut down first, which wakes an accept that
waits. -/
def beginClose (l : Listener) (host : Host) (quiet : Bool) : Progress × Listener × Host :=
  if l.phase = .closed then (if quiet then .over else .failed .alreadyClosed, l, host)
  else
    let closed := { l with phase := .closed, slot := l.slot.retire }
    match l.slot.get with
    | some fd =>
      (.waits (if l.phase = .bound then .shuttingDown fd quiet else .closing fd quiet),
        closed, host)
    | none =>
      let (p, host) := closed.finishClose host quiet (.ok ())
      (p, closed, host)

end Listener

/-- The name of this transport. -/
def transport : String := "unix-domain-socket"

end LocalIpc.Unix

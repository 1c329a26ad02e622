import LocalIpc.Address.PipeName
import LocalIpc.Config
import LocalIpc.Connection.Basic
import LocalIpc.Pipe.Native
import LocalIpc.Pipe.Registry
/-!
# Pipe listeners

A pipe listener makes a new instance of its pipe for every accept, so it owns a set of handles, and
one more that reserves the name. Every operation runs from one native call to the next: a `Task` is
an operation that waits inside a native call, and a `Progress` is what it comes to after the reply.
Other operations may run in between, so each part reads the listener anew.
-/

namespace LocalIpc.Pipe

structure Listener where
  path : String
  config : PipeConfig
  /-- The instance that reserves the name. -/
  lock : Handle
  closed : Bool
  registry : Registry

/-- The name that reserves a pipe. -/
def lockPath (path : String) : String := path ++ "_lock"

/-! ## Operations that wait -/

/-- The native call that a release is in. -/
inductive ReleaseCall
  | cancel
  | quiesce
  | disconnect
  | close
  deriving DecidableEq

/-- What comes after a release. `quiet` says that nobody is told how it went; of a quiet close
nobody is told that it is over either. -/
inductive After
  /-- The accept that made the instance fails. -/
  | refuse (e : ListenerError)
  /-- The connection is released. -/
  | settle (quiet : Bool)
  /-- The listener goes on with the instances that waited, then with those handed out. -/
  | clearWaiting (rest : List Handle) (failure : Option IoError) (quiet : Bool)
  | clearHandedOut (rest : List Handle) (failure : Option IoError) (quiet : Bool)
  deriving DecidableEq

/-- An operation that waits inside a native call. -/
inductive Task
  | creatingLock
  | resettingLock (lock : Handle)
  | givingUpLock (lock : Handle) (cause : IoError)
  | creating
  | connecting (h : Handle)
  | waiting (h : Handle)
  | releasing (call : ReleaseCall) (h : Handle) (next : After)
  | closingLock (lock : Handle) (failure : Option IoError) (quiet : Bool)
  deriving DecidableEq

/-- The call that a task waits in. -/
def Task.call (path : String) (config : PipeConfig) : Task → Call
  | creatingLock => .createLock (lockPath path) config.bufferSize
  | resettingLock lock => .disconnect lock
  | givingUpLock lock _ => .close lock
  | creating => .create path config.maxInstances config.bufferSize
  | connecting h => .connect h
  | waiting h => .wait h
  | releasing .cancel h _ => .cancel h
  | releasing .quiesce h _ => .quiesce h config.disconnectTimeout
  | releasing .disconnect h _ => .disconnect h
  | releasing .close h _ => .close h
  | closingLock lock _ _ => .close lock

/-- The reply is of the kind that the task waits for. -/
def Task.takes : Task → Reply → Bool
  | creatingLock, .created _ | creating, .created _ => true
  | connecting _, .connect _ => true
  | resettingLock _, .done _ | givingUpLock _ _, .done _ | waiting _, .done _ => true
  | releasing .., .done _ | closingLock .., .done _ => true
  | _, _ => false

/-- The task belongs to an operation of the listener itself, which keeps the listener in being. -/
def Task.holdsListener : Task → Bool
  | creating | connecting _ | waiting _ | closingLock .. => true
  | releasing _ _ (.settle _) => false
  | releasing .. => true
  | creatingLock | resettingLock _ | givingUpLock .. => false

/-- How far an operation comes without the pipe layer. -/
inductive Progress
  | waits (t : Task)
  /-- An accept hands out a handle. -/
  | accepted (h : Handle)
  | done
  | failed (e : ListenerError)
  /-- A quiet close is over. -/
  | over
  deriving DecidableEq

namespace Listener

/-! ## Accepting -/

def beginAccept (l : Listener) : Progress :=
  if l.closed then .failed .alreadyClosed else .waits .creating

/-- A new instance is tracked at once. A close that ran in the meantime has missed it, so then it is
given back here. -/
def afterCreate (l : Listener) : Except IoError Handle → Progress × Listener
  | .error e => (.failed (.native .pipeCreate e), l)
  | .ok h =>
    let registry := (l.registry.enroll h).2
    if l.closed then
      let (had, registry) := registry.strikeWaiting h
      (if had then .waits (.releasing .cancel h (.refuse .alreadyClosed))
        else .failed .alreadyClosed, { l with registry })
    else (.waits (.connecting h), { l with registry })

/-- Hands out an instance, unless a close has taken it out of the registry. -/
def deliver (l : Listener) (h : Handle) : Progress × Listener :=
  let (moved, registry) := l.registry.handOut h
  if moved then (.accepted h, { l with registry }) else (.failed .alreadyClosed, l)

/-- A client that is gone again is handed out too: its first read or write fails. The instance stays
among those that wait, and so does one whose connect failed. -/
def afterConnect (l : Listener) (h : Handle) : ConnectStart → Progress × Listener
  | .connected | .alreadyConnected => l.deliver h
  | .noData => (.accepted h, l)
  | .pending => (.waits (.waiting h), l)
  | .failed e => (.failed (.native .pipeConnect e), l)

def afterWait (l : Listener) (h : Handle) : Except IoError Unit → Progress × Listener
  | .ok _ => l.deliver h
  | .error e =>
    let (had, registry) := l.registry.strikeWaiting h
    (if had then .waits (.releasing .cancel h (.refuse (.native .pipeWait e)))
      else .failed (.native .pipeWait e), { l with registry })

/-! ## Closing -/

/-- Goes on after a release. -/
def proceed (l : Listener) : After → Progress × Listener
  | .refuse e => (.failed e, l)
  | .settle _ => (.done, l)
  | .clearWaiting (h :: rest) e q => (.waits (.releasing .cancel h (.clearWaiting rest e q)), l)
  | .clearWaiting [] e q =>
    let (handles, registry) := l.registry.clearHandedOut
    let l := { l with registry }
    match handles with
    | h :: rest => (.waits (.releasing .disconnect h (.clearHandedOut rest e q)), l)
    | [] => (.waits (.closingLock l.lock e q), l)
  | .clearHandedOut (h :: rest) e q =>
    (.waits (.releasing .disconnect h (.clearHandedOut rest e q)), l)
  | .clearHandedOut [] e q => (.waits (.closingLock l.lock e q), l)

/-- The first failure to close an instance is kept for the end. -/
def afterClose (l : Listener) (r : Except IoError Unit) : After → Progress × Listener
  | .settle false =>
    match r with
    | .ok _ => (.done, l)
    | .error e => (.failed (.native .close e), l)
  | .clearWaiting rest e q => l.proceed (.clearWaiting rest (e <|> failure? r) q)
  | .clearHandedOut rest e q => l.proceed (.clearHandedOut rest (e <|> failure? r) q)
  | next => l.proceed next

/-- A failed cancel or disconnect holds nothing up. -/
def afterRelease (l : Listener) (call : ReleaseCall) (h : Handle) (next : After)
    (r : Except IoError Unit) : Progress × Listener :=
  match call with
  | .quiesce => (.waits (.releasing .disconnect h next), l)
  | .cancel | .disconnect => (.waits (.releasing .close h next), l)
  | .close => l.afterClose r next

def afterLock (e : Option IoError) (quiet : Bool) (r : Except IoError Unit) : Progress :=
  if quiet then .over
  else match e <|> failure? r with
    | some e => .failed (.native .close e)
    | none => .done

/-- Closes the listener once. Instances that wait are given back first, then those handed out, then
the lock. -/
def beginClose (l : Listener) (quiet : Bool) : Progress × Listener :=
  if l.closed then (if quiet then .over else .failed .alreadyClosed, l)
  else
    let (handles, registry) := l.registry.clearWaiting
    { l with closed := true, registry }.proceed (.clearWaiting handles none quiet)

/-- Gives back the instance of a connection. The listener may have done so already. -/
def beginRelease (l : Listener) (h : Handle) (quiet : Bool) : Progress × Listener :=
  if l.registry.isHandedOut h then
    (.waits (.releasing .quiesce h (.settle quiet)),
      { l with registry := (l.registry.strikeHandedOut h).2 })
  else if l.registry.isWaiting h then
    (.waits (.releasing .cancel h (.settle quiet)),
      { l with registry := (l.registry.strikeWaiting h).2 })
  else (.done, l)

/-- A pipe has its name from the start. -/
def bindError : ListenerError :=
  .unsupported "named pipes are bound at construction; pass the path to the constructor"

end Listener

/-- The name of this transport. -/
def transport : String := "named-pipe"

end LocalIpc.Pipe

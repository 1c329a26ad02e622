import LocalIpc.Unix.Listener
/-!
# Runs of socket listeners

Any number of listeners on one host, the connections they handed out, and the operations that wait,
the innermost first: an operation may start while another one waits, and then it is the one that
goes on first. An operation that needs the lock of its listener cannot start while another one holds
it. A listener that its owner has let go is closed as soon as no operation of it is under way. The
history keeps everything that happened, oldest first.
-/

namespace LocalIpc.Unix

inductive Operation
  /-- Makes a new listener. -/
  | create (config : UnixConfig)
  | bind (l : Nat) (path : Path)
  /-- A bind that waits before each of its calls to the file system, so that others may come in
  between. -/
  | bindSlowly (l : Nat) (path : Path)
  | accept (l : Nat)
  | close (l : Nat)
  /-- The owner of a listener lets it go. -/
  | drop (l : Nat)
  /-- A client connects to the listener at a path. -/
  | connect (path : Path)
  | closeConnection (i : Nat)
  | dropConnection (i : Nat)
  deriving DecidableEq

/-- What an operation gives its caller. -/
inductive Outcome
  | created (l : Nat)
  /-- A connection, accepted or made. -/
  | opened (i : Nat) (c : Connection)
  | done
  | failed (e : ListenerError)
  /-- There is no such listener or connection any more. -/
  | gone
  deriving DecidableEq

inductive Entry
  | began (op : Operation)
  | called (c : Call)
  | replied (r : Reply)
  | finished (o : Outcome)

/-- An operation under way. -/
inductive Frame
  | creating (config : UnixConfig)
  | working (l : Nat) (t : Task)
  /-- An accepted connection gives its descriptor back. -/
  | releasing (fd : Fd) (quiet : Bool)

/-- A connection in use. A connection that was made by connecting is closed without the listeners'
socket layer. -/
structure Held where
  connection : Connection
  accepted : Bool
  deriving DecidableEq

structure State where
  host : Host
  listeners : List Listener
  /-- The listeners whose owner has let them go. -/
  dropped : List Nat
  /-- The connections, in order; one that was closed or dropped leaves its place. -/
  connections : List (Option Held)
  tasks : List Frame
  history : List Entry

namespace State

def start (host : Host) : State := ⟨host, [], [], [], [], []⟩

def note (s : State) (e : Entry) : State := { s with history := s.history ++ [e] }

def finish (s : State) (o : Outcome) : State := s.note (.finished o)

/-- An operation goes on to wait in a native call. -/
def push (s : State) (f : Frame) (c : Call) : State :=
  { s with tasks := f :: s.tasks }.note (.called c)

/-- An operation of a listener goes on to wait. -/
def wait (s : State) (l : Nat) (config : UnixConfig) (t : Task) : State :=
  { s with
    tasks := .working l t :: s.tasks
    history := s.history ++ ((t.call config).map Entry.called).toList }

/-- A listener that still has an owner. -/
def listener? (s : State) (l : Nat) : Option Listener :=
  if l ∈ s.dropped then none else s.listeners[l]?

def connection? (s : State) (i : Nat) : Option Held := s.connections[i]?.join

def setListener (s : State) (l : Nat) (x : Listener) : State :=
  { s with listeners := s.listeners.set l x }

/-- Adds a connection. -/
def addConnection (s : State) (c : Connection) (accepted : Bool) : State :=
  { s with connections := s.connections ++ [some (Held.mk c accepted)] }.finish
    (.opened s.connections.length c)

/-- The lock of a listener is held by an operation under way. -/
def isLocked (s : State) (l : Nat) : Bool :=
  s.tasks.any fun f => match f with
    | .working k t => k == l && t.holdsLock
    | _ => false

/-- Nobody uses a listener any more: its owner has let it go, and no operation of it is under
way. -/
def isUnheld (s : State) (l : Nat) : Bool :=
  s.dropped.contains l && !s.tasks.any fun f => match f with
    | .working k _ => k == l
    | _ => false

/-- Closes a listener if nobody uses it any more. -/
def closeUnheld (s : State) (l : Nat) : State :=
  match s.listeners[l]? with
  | some x =>
    if s.isUnheld l then
      let (p, x, host) := x.beginClose s.host true
      let s := { s.setListener l x with host }
      match p with
      | .waits t => s.wait l x.config t
      | _ => s
    else s
  | none => s

/-- Takes what an operation of listener `l` has come to. -/
def advance (s : State) (l : Nat) (config : UnixConfig) : Progress → State
  | .waits t => s.wait l config t
  | .accepted client => (s.addConnection (Connection.ofFd client) true).closeUnheld l
  | .done => (s.finish .done).closeUnheld l
  | .failed e => (s.finish (.failed e)).closeUnheld l
  | .over => s

/-- As `advance`, with the listener and the host that the operation left behind. -/
def advanceWith (s : State) (l : Nat) (p : Progress × Listener × Host) : State :=
  { s.setListener l p.2.1 with host := p.2.2 }.advance l p.2.1.config p.1

/-- Gives the descriptor of a connection back. -/
def letGo (s : State) (i : Nat) (quiet : Bool) : State :=
  match s.connection? i with
  | none => s.finish .gone
  | some held =>
    let fd := held.connection.handle.fd
    let s := { s with connections := s.connections.set i none }
    if held.accepted then s.push (.releasing fd quiet) (.close fd)
    else { s with host := (s.host.close fd).2 }.finish .done

def withListener (s : State) (l : Nat) (f : Listener → State) : State :=
  match s.listener? l with
  | some x => f x
  | none => s.finish .gone

/-- The operation needs the lock of a listener. -/
def lockOf : Operation → Option Nat
  | .bind l _ | .bindSlowly l _ | .accept l | .close l => some l
  | _ => none

def begin (s : State) : Operation → State
  | .create config => s.push (.creating config) .socket
  | .bind l path => s.withListener l fun x =>
      let (p, host) := x.beginBind s.host path
      { s with host }.advance l x.config p
  | .bindSlowly l path => s.withListener l fun x => s.advance l x.config (x.beginBindSlowly path)
  | .accept l => s.withListener l fun x => s.advance l x.config x.beginAccept
  | .close l => s.withListener l fun x => s.advanceWith l (x.beginClose s.host false)
  | .drop l => s.withListener l fun _ =>
      ({ s with dropped := l :: s.dropped }.finish .done).closeUnheld l
  | .connect path =>
    match s.host.connect path with
    | (.ok fd, host) => { s with host }.addConnection (Connection.ofFd fd) false
    | (.error e, host) => { s with host }.finish (.failed (.io e))
  | .closeConnection i => s.letGo i false
  | .dropConnection i => s.letGo i true

/-- Starts an operation, inside the call that the innermost task waits in. One that would have to
wait for a lock does not start. -/
def perform (s : State) (op : Operation) : State :=
  if (lockOf op).any s.isLocked then s else (s.note (.began op)).begin op

/-- The task of a listener goes on with a reply. -/
def resume (s : State) (l : Nat) (x : Listener) : Task → Reply → State
  | .binding fd path _, .done r => s.advance l x.config (Listener.afterBind s.host fd path r)
  | .listening _ path created, .done r => s.advanceWith l (x.afterListen s.host path created r)
  | .givingUp _ path created cause, .done _ =>
    let (p, host) := Listener.finishGiveUp s.host path created cause
    { s with host }.advance l x.config p
  | .accepting _, .opened r => s.advance l x.config (x.afterAccept r)
  | .refusing _, .done _ => s.advance l x.config (.failed .alreadyClosed)
  | .shuttingDown fd quiet, .done _ => s.advance l x.config (.waits (.closing fd quiet))
  | .closing _ quiet, .done r =>
    let (p, host) := x.finishClose s.host quiet r
    { s with host }.advance l x.config p
  -- others were there in between
  | .givingUp _ path created cause, .doneSlowly _ =>
    s.advance l x.config
      (Listener.finishEndSlowly s.host (Listener.madeAt path created) false (.error cause))
  | .closing _ quiet, .doneSlowly r =>
    s.advance l x.config
      (Listener.finishEndSlowly s.host x.own? quiet (r.mapError (.native .close)))
  | .looking fd path address, .files =>
    s.advance l x.config (Listener.afterLook s.host fd path address)
  | .probing fd path address, .files =>
    let (p, host) := Listener.afterProbe s.host fd path address
    { s with host }.advance l x.config p
  | .clearing fd path address, .files =>
    let (p, host) := Listener.afterClear s.host fd path address
    { s with host }.advance l x.config p
  | .sweeping path _ quiet result, .files =>
    { s with host := (remove s.host path).2 }.advance l x.config (Listener.told quiet result)
  | _, _ => s

def Frame.takes : Frame → Reply → Bool
  | .creating _, .opened _ => true
  | .working _ t, r => t.takes r
  | .releasing .., .done _ => true
  | _, _ => false

/-- What an operation makes of a reply. -/
def resumeFrame (s : State) : Frame → Reply → State
  | .creating config, .opened (.ok fd) =>
    { s with listeners := s.listeners ++ [Listener.fresh config fd] }.finish
      (.created s.listeners.length)
  | .creating _, .opened (.error e) => s.finish (.failed (.native .socket e))
  | .working l t, r =>
    match s.listeners[l]? with
    | some x => s.resume l x t r
    | none => s
  | .releasing _ false, .done (.error e) => s.finish (.failed (.native .close e))
  | .releasing .., .done _ => s.finish .done
  | _, _ => s

/-- The innermost operation goes on. A reply of another kind than it waits for does not reach
it. -/
def reply (s : State) (r : Reply) : State :=
  match s.tasks with
  | [] => s
  | f :: rest =>
    if Frame.takes f r then ({ s with tasks := rest }.note (.replied r)).resumeFrame f r else s

end State

/-! ## Runs -/

inductive Event
  | start (op : Operation)
  | reply (r : Reply)
  /-- Other processes change the host. -/
  | world (host : Host)

namespace State

def step (s : State) : Event → State
  | .start op => s.perform op
  | .reply r => s.reply r
  | .world host => { s with host }

def run (s : State) (es : List Event) : State := es.foldl step s

/-- The operation at a place among those that wait comes to be the innermost. -/
def raise (s : State) (i : Nat) : State :=
  match s.tasks[i]? with
  | some f => { s with tasks := f :: s.tasks.eraseIdx i }
  | none => s

/-- A run in which the operations that wait go on in any order, as threads do. Every event comes
with the place of the operation that is the innermost then. -/
def interleave (s : State) (es : List (Nat × Event)) : State :=
  es.foldl (fun s e => (s.raise e.1).step e.2) s

/-- What the last finished operation gave. -/
def lastOutcome (s : State) : Outcome :=
  s.history.foldl (fun o e => match e with | .finished o => o | _ => o) .gone

/-- The native calls made since the history had `n` entries. -/
def callsSince (s : State) (n : Nat) : List Call :=
  (s.history.drop n).filterMap fun e => match e with | .called c => some c | _ => none

end State

end LocalIpc.Unix

import LocalIpc.Session.Loop
import LocalIpc.Unix.Layer
/-!
# Rounds

Clients that connect to a listener on a socket file, write once and wait; then they are served in
order, and each is read to its end after it has hung up.
-/

namespace LocalIpc

structure Round where
  state : Unix.State
  listener : Nat
  running : Bool
  /-- The client ends that are still open. -/
  clients : List Nat
  /-- What each served client sent, and how its close went. -/
  served : List (Except IoError Bytes × Except ListenerError Unit)
  /-- The flag is cleared after so many clients. -/
  stopAfter : Nat

namespace Round

/-- A client connects and writes. One that cannot connect is left out. -/
def join (path : Path) (data : Bytes) (r : Round) :
    Except ListenerError (Except IoError Nat) × Round :=
  let s := r.state.carryOut (.connect path)
  match s.lastOutcome with
  | .opened i c =>
    let (written, host) := c.write (Host.write c.handle.fd) data s.host
    (.ok written, { r with state := { s with host }, clients := r.clients ++ [i] })
  | .failed e => (.error e, { r with state := s })
  | _ => (.error .alreadyClosed, { r with state := s })

def joinAll (path : Path) : List Bytes → Round →
    List (Except ListenerError (Except IoError Nat)) × Round
  | [], r => ([], r)
  | data :: rest, r =>
    let (x, r) := r.join path data
    let (xs, r) := joinAll path rest r
    (x :: xs, r)

/-- Accepts the next client; gives the number of its connection. -/
def accept (r : Round) : Except ListenerError (Nat × Connection) × Round :=
  let s := r.state.carryOut (.accept r.listener)
  match s.lastOutcome with
  | .opened i c => (.ok (i, c), { r with state := s })
  | .failed e => (.error e, { r with state := s })
  | _ => (.error .alreadyClosed, { r with state := s })

/-- The next client hangs up, and what it sent is read to the end. -/
def handle (client : Nat × Connection) (r : Round) : Round :=
  let s := match r.clients with
    | c :: _ => r.state.carryOut (.dropConnection c)
    | [] => r.state
  let fd := client.2.handle.fd
  let (data, host) := client.2.readToEnd (Host.read fd) (s.host.unread fd + 1) s.host
  let s := { s with host }.carryOut (.closeConnection client.1)
  let closed := match s.lastOutcome with
    | .failed e => .error e
    | _ => .ok ()
  let served := r.served ++ [(data, closed)]
  { r with
    state := s
    clients := r.clients.tail
    served
    running := r.running && served.length < r.stopAfter }

def service : Loop.Service Round (Nat × Connection) := ⟨Round.running, accept⟩

/-- Serves the clients that joined. -/
def serve (r : Round) : Option Loop.Ending × Round :=
  Loop.serve service handle (r.clients.length + 1) r

end Round

end LocalIpc

import LocalIpc.Connection.Basic
import LocalIpc.Connection.Stream
/-!
# Exchanges over one connection

A connection and the other end of its stream, used step by step. The exchange keeps the handles with
which the release of the connection was called.
-/

namespace LocalIpc

structure Exchange where
  connection : Connection
  /-- The connection was neither closed nor dropped. -/
  held : Bool
  /-- The stream behind the handle, its far end being the peer's. -/
  stream : Option Stream
  /-- What the release of the connection gives. -/
  release : Except IoError Unit
  /-- The handles passed to the release so far. -/
  released : List Handle

namespace Exchange

inductive Step
  | info
  | read (length : Nat)
  | write (data : Bytes)
  | flush
  | close
  | drop
  | peerRead (length : Nat)
  | peerWrite (data : Bytes)
  | peerClose

inductive Answer
  /-- There is no such end any more. -/
  | gone
  | info (c : Connection)
  | data (r : Except IoError Bytes)
  | count (r : Except IoError Nat)
  | done (r : Except ListenerError Unit)

def start (c : Connection) (release : Except IoError Unit) : Exchange where
  connection := c
  held := true
  stream := if c.kind = .socket then some .fresh else none
  release := release
  released := []

/-- The native read of the connection. -/
def nativeRead (n : Nat) : Option Stream → Except IoError Bytes × Option Stream
  | none => (.error .badDescriptor, none)
  | some s => ((s.read .near n).1, some (s.read .near n).2)

def nativeWrite (data : Bytes) : Option Stream → Except IoError Nat × Option Stream
  | none => (.error .badDescriptor, none)
  | some s => ((s.write .near data).1, some (s.write .near data).2)

/-- The release of the connection, which closes its end of the stream. -/
def nativeRelease (given : Except IoError Unit) (h : Handle) (s : Option Stream × List Handle) :
    Except IoError Unit × Option Stream × List Handle :=
  (given, s.1.map (Stream.close .near), s.2 ++ [h])

/-- The connection in the hands of its owner. -/
def holding (x : Exchange) : Connection.Held (Option Stream × List Handle) :=
  ⟨x.connection.handle, x.held, x.stream, x.released⟩

def close (x : Exchange) : Except ListenerError Unit × Exchange :=
  let (r, y) := x.holding.close (nativeRelease x.release)
  (r, { x with held := y.held, stream := y.state.1, released := y.state.2 })

/-- Gives the handle back, once. -/
def letGo (x : Exchange) : Exchange :=
  let (_, stream, released) := x.holding.drop (nativeRelease x.release)
  { x with held := false, stream, released }

/-- A step of the connection's owner. -/
def own (x : Exchange) : Step → Answer × Exchange
  | .info => (.info x.connection, x)
  | .read n =>
    let (r, s) := x.connection.read nativeRead n x.stream
    (.data r, { x with stream := s })
  | .write data =>
    let (r, s) := x.connection.write nativeWrite data x.stream
    (.count r, { x with stream := s })
  | .flush => (.count (.ok 0), x)
  | .close => (.done x.close.1, x.close.2)
  | .drop => (.done (.ok ()), x.letGo)
  | _ => (.gone, x)

/-- A step of the peer. -/
def peer (x : Exchange) (s : Stream) : Step → Answer × Exchange
  | .peerRead n => (.data (s.read .far n).1, { x with stream := some (s.read .far n).2 })
  | .peerWrite data =>
    (.count (s.write .far data).1, { x with stream := some (s.write .far data).2 })
  | .peerClose => (.done (.ok ()), { x with stream := some (s.close .far) })
  | _ => (.gone, x)

def step (x : Exchange) (t : Step) : Answer × Exchange :=
  match t with
  | .peerRead _ | .peerWrite _ | .peerClose =>
    match x.stream with
    | some s => if s.far.closed then (.gone, x) else x.peer s t
    | none => (.gone, x)
  | _ => if x.held then x.own t else (.gone, x)

/-- The answers to a run of steps, each with the handles released by then, and the exchange left. -/
def run (x : Exchange) : List Step → List (Answer × List Handle) × Exchange
  | [] => ([], x)
  | t :: ts =>
    let (a, y) := x.step t
    let (as, z) := y.run ts
    ((a, y.released) :: as, z)

end Exchange

end LocalIpc

import LocalIpc.Program.Site
import LocalIpc.Unix.Layer
/-!
# Visits

A command at a host: it listens on a socket file there, and visitors come one after another. After
the last one the accept that waits is interrupted, or fails.
-/

namespace LocalIpc

/-- How a visitor behaves after the first part of what it has to send. -/
inductive Manner
  /-- It hangs up. -/
  | plain
  /-- It hangs up with something unread, so that the next read of its connection is reset. -/
  | reset
  /-- It waits too long. -/
  | stalls
  /-- The read is interrupted; then it sends the rest and hangs up. -/
  | interruptsRead
  /-- The command is interrupted twice; then it sends the rest and hangs up. -/
  | interruptsCommand
  deriving DecidableEq

structure Visitor where
  manner : Manner
  data : Bytes
  more : Bytes

namespace Visitor

/-- What reads of the visitor's connection give. -/
def reads (v : Visitor) : List (Except IoError Bytes) :=
  let piece (data : Bytes) : List (Except IoError Bytes) := if data = [] then [] else [.ok data]
  piece v.data ++ match v.manner with
    | .plain => []
    | .reset => [.error .connectionReset]
    | .stalls => [.error .wouldBlock]
    | .interruptsRead => .error .interrupted :: piece v.more
    | .interruptsCommand => piece v.more

def interrupts (v : Visitor) : Nat := if v.manner = .interruptsCommand then 2 else 0

end Visitor

structure Visits where
  state : Unix.State
  listener : Nat
  running : Bool
  coming : List Visitor
  /-- The path that visitors connect to. -/
  target : Path
  /-- What the accept after the last visitor fails with; without it the command is interrupted. -/
  ending : Option IoError

namespace Visits

def bind (path : Path) (w : Visits) : Except ListenerError Unit × Visits :=
  match Unix.bindNew w.state .default path with
  | (.ok l, state) => (.ok (), { w with state, listener := l })
  | (.error e, state) => (.error e, { w with state })

def close (w : Visits) : Except ListenerError Unit × Visits :=
  let state := w.state.carryOut (.close w.listener)
  (match state.lastOutcome with
    | .failed e => .error e
    | _ => .ok (), { w with state })

def stop (w : Visits) : Visits := { w with running := false }

/-- What the accept has come to, for a visitor that came. -/
def accepted (w : Visits) (v : Visitor) : Except ListenerError Client × Visits :=
  (match w.state.lastOutcome with
    | .opened _ c => .ok ⟨c.handle, v.reads, [], v.interrupts, 0, 0⟩
    | .failed e => .error e
    | _ => .error .alreadyClosed, w)

/-- Nobody comes any more: the accept that waits fails, or is woken by the close of its listener. -/
def acceptLast (w : Visits) : Except ListenerError Client × Visits :=
  let waiting := { w with state := w.state.carryOut (.accept w.listener) }
  let (e, w) := match w.ending with
    | some e => (e, waiting)
    | none => (.invalidArgument, (close waiting.stop).2)
  { w with state := w.state.reply (.opened (.error e)) }.accepted ⟨.plain, [], []⟩

def accept (w : Visits) : Except ListenerError Client × Visits :=
  match w.coming with
  | v :: rest =>
    let state := (w.state.carryOut (.connect w.target)).carryOut (.accept w.listener)
    { w with state, coming := rest }.accepted v
  | [] => w.acceptLast

/-- The number of the connection with a handle. -/
def numberOf (w : Visits) (h : Handle) : Nat :=
  w.state.connections.findIdx fun c =>
    c.any fun held => held.accepted && held.connection.handle == h

def release (h : Handle) (w : Visits) : Except IoError Unit × Visits :=
  let state := w.state.carryOut (.closeConnection (w.numberOf h))
  (match state.lastOutcome with
    | .failed (.native .close e) => .error e
    | _ => .ok (), { w with state })

def site : Site Visits := ⟨bind, running, stop, accept, release, close⟩

/-- More turns than the accept loop takes. -/
def turns (w : Visits) : Nat := w.coming.length + 2

def start (host : Host) (target : Path) (coming : List Visitor) (ending : Option IoError) :
    Visits :=
  ⟨.start host, 0, true, coming, target, ending⟩

end Visits

end LocalIpc

import LocalIpc.Connection.Basic
import LocalIpc.Log.Record
import LocalIpc.Output.Event
import LocalIpc.Command.Shutdown
import LocalIpc.Session.Loop
/-!
# Sites

Where a command runs: a listener that it binds, serves and closes, the flag that an interrupt
clears, and the clients that come. A site is a part of a state `σ`.
-/

namespace LocalIpc

/-- A client, as a command meets it. -/
structure Client where
  handle : Handle
  /-- What reads of its connection give, in order; behind them is the end of the stream. -/
  reads : List (Except IoError Bytes)
  /-- What writes to its connection give, in order; behind them writes take all. -/
  writes : List (Except IoError Nat)
  /-- How many interrupts come while it is served. -/
  interrupts : Nat
  /-- When it was accepted, in seconds since 1970. -/
  began : Nat
  /-- How many milliseconds it was served. -/
  lasted : Nat

structure Site (σ : Type) where
  bind : Path → σ → Except ListenerError Unit × σ
  /-- The flag is set. -/
  running : σ → Bool
  /-- Clears the flag. -/
  stop : σ → σ
  accept : σ → Except ListenerError Client × σ
  /-- Gives the handle of a connection back. -/
  release : Handle → σ → Except IoError Unit × σ
  close : σ → Except ListenerError Unit × σ

namespace Site

variable {σ : Type}

/-- What an interrupt does: it clears the flag and closes the listener. -/
def interrupt (t : Site σ) (w : σ) : σ := (t.close (t.stop w)).2

def interrupts (t : Site σ) : Nat → σ → σ
  | 0, w => w
  | n + 1, w => t.interrupts n (t.interrupt w)

end Site

/-- A command at work, with everything that it has put out. -/
structure Work (σ : Type) where
  world : σ
  /-- How many sessions have begun. -/
  sessions : Nat
  events : List Event
  /-- What went to standard output. -/
  output : Bytes
  log : List LogRecord
  /-- What was written back to clients whose copy ended well. -/
  replies : List Bytes
  failure : Option CommandFailure

namespace Work

variable {σ : Type}

def start (world : σ) : Work σ := ⟨world, 0, [], [], [], [], none⟩

def note (w : Work σ) (r : LogRecord) : Work σ := { w with log := w.log ++ [r] }

def write (w : Work σ) (data : Bytes) : Work σ := { w with output := w.output ++ data }

/-- A connection that was dropped could not be released. -/
def dropFailed (thread : String) (h : Handle) (e : IoError) : LogRecord :=
  ⟨.warn, thread, "failed to release connection",
    [("handle", .number h.toInt), ("error", .shown e.message)]⟩

/-- The session of a client is over, with the interrupts that came in it, and the thread that served
the client lets its connection go. -/
def leave (t : Site σ) (thread : String) (c : Client) (failed : Bool) (w : Work σ) :
    Except ListenerError Unit × Work σ :=
  let held : Connection.Held σ := ⟨c.handle, true, t.interrupts c.interrupts w.world⟩
  let (closed, lost, world) := held.leave t.release failed
  (closed, { w with world, log := w.log ++ (lost.map (dropFailed thread c.handle)).toList })

section Leave

variable {t : Site σ} {thread : String} {c : Client} {w : Work σ} {released : Except IoError Unit}
  {v : σ}

/-- The connection of a session that went well is closed. -/
theorem leave_of_ok
    (hv : t.release c.handle (t.interrupts c.interrupts w.world) = (released, v)) :
    w.leave t thread c false = (Connection.closeResult released, { w with world := v }) := by
  unfold leave
  simp only [Connection.Held.leave_held, hv]
  simp

/-- The connection of a session that has failed is dropped. -/
theorem leave_of_failed
    (hv : t.release c.handle (t.interrupts c.interrupts w.world) = (released, v)) :
    w.leave t thread c true = (.ok (), { w with
      world := v
      log := w.log ++
        ((Connection.Held.lost? released).map (dropFailed thread c.handle)).toList }) := by
  unfold leave
  simp only [Connection.Held.leave_held, hv]
  simp

/-- Either way the connection is released once. -/
theorem world_leave (t : Site σ) (thread : String) (c : Client) (failed : Bool) (w : Work σ) :
    (w.leave t thread c failed).2.world =
      (t.release c.handle (t.interrupts c.interrupts w.world)).2 := by
  simp only [leave, Connection.Held.leave_held]

end Leave

/-- A site, seen by the accept loop of a command at work. -/
def service (t : Site σ) : Loop.Service (Work σ) Client where
  running w := t.running w.world
  accept w := ((t.accept w.world).1, { w with world := (t.accept w.world).2 })

def acceptFailed (e : ListenerError) : LogRecord :=
  ⟨.warn, "main", "accept failed", [("error", .shown e.message)]⟩

/-- Serves clients and then closes the listener, in at most `turns` turns. `handle` serves one
client, and `farewell` is logged when the loop has ended in good order. -/
def serve (t : Site σ) (handle : Client → Work σ → Work σ) (farewell : Nat → List LogRecord)
    (turns : Nat) (w : Work σ) : Option (Except CommandFailure Unit) × Work σ :=
  match Loop.serve (service t) handle turns w with
  | (none, w) => (none, w)
  | (some (.failed e), w) => (some (.error (.ofAccept e)), w.note (acceptFailed e))
  | (some (.stopped n), w) =>
    let w := (farewell n).foldl note w
    let (closed, world) := t.close w.world
    match CommandFailure.ofClose? closed with
    | some f => (some (.error f), { w with world })
    | none => (some (w.failure.elim (.ok ()) .error), { w with world })

end Work

end LocalIpc

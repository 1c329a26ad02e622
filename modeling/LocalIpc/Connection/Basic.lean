import LocalIpc.Handle
import LocalIpc.ListenerError
/-!
# Connections

One client, behind one native handle. The connection is released once, by closing or by dropping it.
-/

namespace LocalIpc

/-- What stands behind the handle of a connection. -/
inductive Medium
  | socket
  | pipe
  deriving DecidableEq

def Medium.name : Medium → String
  | socket => "Socket"
  | pipe => "Pipe"

structure Connection where
  handle : Handle
  kind : Medium
  /-- A read that gives fewer bytes than asked for is an error. -/
  strictLength : Bool
  deriving DecidableEq

namespace Connection

/-- A connection that a socket listener accepted or that was made to one. -/
def ofFd (fd : Fd) : Connection := ⟨Handle.ofFd fd, .socket, false⟩

/-- This host has no byte stream for pipes. -/
def noStream : IoError :=
  .custom .unsupported "handle kind has no stream adapter on this platform"

/-- A strict connection takes a read only when it is full or at the end of the stream. -/
def checkLength (c : Connection) (wanted : Nat) (data : Bytes) : Except IoError Bytes :=
  if c.strictLength ∧ data ≠ [] ∧ data.length ≠ wanted then
    .error (.custom .invalidData
      ("read " ++ toString data.length ++ " bytes, expected " ++ toString wanted))
  else .ok data

variable {σ : Type}

/-- Reads up to `n` bytes through the native read. A read of no bytes does not reach it. -/
def read (c : Connection) (native : Nat → σ → Except IoError Bytes × σ) (n : Nat) (s : σ) :
    Except IoError Bytes × σ :=
  if n = 0 then (.ok [], s)
  else match c.kind with
    | .pipe => (.error noStream, s)
    | .socket => ((native n s).1.bind (c.checkLength n), (native n s).2)

def write (c : Connection) (native : Bytes → σ → Except IoError Nat × σ) (data : Bytes) (s : σ) :
    Except IoError Nat × σ :=
  match c.kind with
  | .pipe => (.error noStream, s)
  | .socket => native data s

/-- How much a read to the end asks for at once. -/
def chunk : Nat := 8192

/-- Reads until the stream ends or fails, in at most `turns` reads. -/
def readAll (c : Connection) (native : Nat → σ → Except IoError Bytes × σ) :
    Nat → Bytes → σ → Except IoError Bytes × σ
  | 0, got, s => (.ok got, s)
  | turns + 1, got, s =>
    match c.read native chunk s with
    | (.ok [], s) => (.ok got, s)
    | (.ok data, s) => readAll c native turns (got ++ data) s
    | (.error e, s) => (.error e, s)

/-- Reads everything up to the end of the stream. -/
def readToEnd (c : Connection) (native : Nat → σ → Except IoError Bytes × σ) (turns : Nat) (s : σ) :
    Except IoError Bytes × σ := c.readAll native turns [] s

/-- What closing the connection gives, from what its release gave. -/
def closeResult : Except IoError Unit → Except ListenerError Unit
  | .ok _ => .ok ()
  | .error e => .error (.native .close e)

/-- The connection as diagnostics show it, while it is open. -/
def shown (c : Connection) : String :=
  "Connection \x7b handle: " ++ toString c.handle.toInt ++ ", kind: " ++ c.kind.name
    ++ ", open: true \x7d"

/-! ## Letting go -/

/-- A connection in the hands of its owner, in a state that its release changes. -/
structure Held (σ : Type) where
  handle : Handle
  /-- The release was not called yet. -/
  held : Bool
  state : σ

namespace Held

variable {σ : Type} (release : Handle → σ → Except IoError Unit × σ) (x : Held σ) (failed : Bool)

/-- Calls the release, unless it was called before. -/
def letGo : Except IoError Unit × Held σ :=
  if x.held then
    ((release x.handle x.state).1, ⟨x.handle, false, (release x.handle x.state).2⟩)
  else (.ok (), x)

def close : Except ListenerError Unit × Held σ :=
  (closeResult (x.letGo release).1, (x.letGo release).2)

/-- What a drop leaves to be logged. -/
def lost? : Except IoError Unit → Option IoError
  | .ok _ => none
  | .error e => some e

def drop : Option IoError × σ := (lost? (x.letGo release).1, (x.letGo release).2.state)

/-- The end of a use. One that went well closes the connection, and behind every use it is
dropped. -/
def leave : Except ListenerError Unit × Option IoError × σ :=
  let (closed, x) := if failed then (.ok (), x) else x.close release
  (closed, x.drop release)

variable {release x} {handle : Handle} {s : σ}

/-- However its use went, a connection is released once: by the close, or else by the drop. -/
theorem leave_held : (Held.mk handle true s).leave release failed =
    (if failed then .ok () else closeResult (release handle s).1,
      if failed then lost? (release handle s).1 else none, (release handle s).2) := by
  cases failed <;> rfl

end Held

end Connection

end LocalIpc

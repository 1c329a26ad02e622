import LocalIpc.Program.Site
import LocalIpc.Session.Reception
/-!
# Reporting on clients

Every client is read until it hangs up, one after another, and an event is put out for each. The
first client that cannot be read ends the command.
-/

namespace LocalIpc

structure Reporting where
  path : Path
  transport : String
  format : OutputFormat
  /-- The command ends after so many clients. -/
  count : Option UInt64

namespace Reporting

variable {σ : Type}

/-- A connection that cannot be closed counts as a failed read. -/
def notClosed? : Except ListenerError Unit → Option IoError
  | .ok _ => none
  | .error e => some (.custom .other e.message)

/-- What comes of closing a connection whose release gave this. -/
def closeFailure? (released : Except IoError Unit) : Option IoError :=
  notClosed? (Connection.closeResult released)

@[simp] theorem closeFailure?_ok : closeFailure? (.ok ()) = none := rfl

@[simp] theorem closeFailure?_error (e : IoError) :
    closeFailure? (.error e) = some (.custom .other (ListenerError.native .close e).message) := rfl

def event (o : Reporting) (sequence : Nat) (c : Client) (r : Received) : Event :=
  { Event.closed o.transport (Text.lossy o.path) sequence c.handle c.began with
    bytesReceived := r.count
    preview := r.preview
    durationMs := c.lasted }

/-- The last of the clients that were asked for. -/
def isLast (o : Reporting) (sequence : Nat) : Bool := o.count.any fun n => n.toNat ≤ sequence

/-- Serves one client. A connection that was read to its end is closed. -/
def handle (t : Site σ) (o : Reporting) (c : Client) (w : Work σ) : Work σ :=
  let sequence := w.sessions + 1
  let d := receive c.reads
  let (closed, w) := w.leave t "main" c d.failure.isSome
  let w := { w with sessions := sequence }
  let w := if o.format = .raw then w.write d.data else w
  match d.failure <|> notClosed? closed with
  | some e => { w with failure := some (.ofReceive e), world := t.stop w.world }
  | none =>
    let e := o.event sequence c d.received
    let w := { w with events := w.events ++ [e] }.write (Text.encode (e.printed o.format))
    if o.isLast sequence then { w with world := t.stop w.world } else w

/-- Reports on clients until the end, in at most `turns` turns. -/
def run (t : Site σ) (o : Reporting) (turns : Nat) (w : Work σ) :
    Option (Except CommandFailure Unit) × Work σ :=
  w.serve t (handle t o) (fun _ => []) turns

end Reporting

end LocalIpc

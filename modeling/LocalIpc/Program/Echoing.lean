import LocalIpc.Program.Reporting
import LocalIpc.Session.Copy
/-!
# Echoing to clients

Every client gets back what it sends, each from a worker of its own. How a worker ends is logged and
ends nothing else.
-/

namespace LocalIpc.Echoing

variable {σ : Type}

/-- The thread that serves a client. -/
def worker (h : Handle) : String := "echo-" ++ toString h.toInt

def disconnected (h : Handle) (count : Nat) : LogRecord :=
  ⟨.info, worker h, "client disconnected", [("handle", .number h.toInt), ("bytes", .number count)]⟩

def failed (h : Handle) (e : IoError) : LogRecord :=
  ⟨.warn, worker h, "echo failed", [("handle", .number h.toInt), ("error", .shown e.message)]⟩

def stopped (served : Nat) : LogRecord :=
  ⟨.info, "main", "echo server stopped", [("connections", .number served)]⟩

/-- How a worker ends: a copy that went well still has to close its connection. -/
def ending (c : Copied) (closed : Except ListenerError Unit) : Except IoError Nat :=
  match c.result, Reporting.notClosed? closed with
  | .ok _, some e => .error e
  | r, _ => r

/-- How a worker ends whose connection gave this when it was released. -/
def outcome (c : Copied) (released : Except IoError Unit) : Except IoError Nat :=
  ending c (Connection.closeResult released)

/-- Serves one client. A copy that has failed leaves its connection to be dropped. -/
def handle (t : Site σ) (c : Client) (w : Work σ) : Work σ :=
  let copied := copy c.reads c.writes
  let (closed, w) := w.leave t (worker c.handle) c !copied.result.isOk
  let w := { w with sessions := w.sessions + 1 }
  match ending copied closed with
  | .ok n =>
    { w with replies := w.replies ++ [Transfer.bytesWritten copied.transfers] }.note
      (disconnected c.handle n)
  | .error e => w.note (failed c.handle e)

/-- Echoes until the end, in at most `turns` turns. -/
def run (t : Site σ) (turns : Nat) (w : Work σ) : Option (Except CommandFailure Unit) × Work σ :=
  w.serve t (handle t) (fun n => [stopped n]) turns

end LocalIpc.Echoing

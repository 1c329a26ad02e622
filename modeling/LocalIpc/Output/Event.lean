import LocalIpc.Handle
import LocalIpc.Output.Format
import LocalIpc.Text.Json
import LocalIpc.Text.Table
/-!
# Events

The report on one client session that has ended.
-/

namespace LocalIpc

structure Event where
  event : String
  transport : String
  path : String
  /-- Which session of the command it was. -/
  sequence : Nat
  handle : Handle
  bytesReceived : Nat
  preview : String
  durationMs : Nat
  /-- When the session began, in seconds since 1970. -/
  timestamp : String
  deriving DecidableEq

namespace Event

/-- The event of a session before anything is known of what the client sent. -/
def closed (transport path : String) (sequence : Nat) (handle : Handle) (now : Nat) : Event where
  event := "connection_closed"
  transport := transport
  path := path
  sequence := sequence
  handle := handle
  bytesReceived := 0
  preview := ""
  durationMs := 0
  timestamp := toString now

/-- The fields of the event as members of a JSON object. -/
def members (w : Json.Writer) (e : Event) : List (String × String) := [
  ("event", w.text e.event),
  ("transport", w.text e.transport),
  ("path", w.text e.path),
  ("sequence", w.number e.sequence),
  ("handle", w.number e.handle.toInt),
  ("bytes_received", w.number e.bytesReceived),
  ("preview", w.text e.preview),
  ("duration_ms", w.number e.durationMs),
  ("timestamp", w.text e.timestamp)]

/-- The event as a JSON object, on one line. One that cannot be written is shown empty. -/
def jsonBy (w : Json.Writer) (e : Event) : String := (w.object (e.members w)).getD "\x7b\x7d"

def toJson (e : Event) : String := e.jsonBy Json.writer

def toTable (e : Event) : String :=
  Text.Table.render ["#", "TRANSPORT", "HANDLE", "BYTES", "MS", "PREVIEW"]
    [[toString e.sequence, e.transport, toString e.handle.toInt,
      toString e.bytesReceived, toString e.durationMs, e.preview]]

/-- The event for a person, on one line as long as the preview has none of its own. -/
def toLine (e : Event) : String :=
  "#" ++ toString e.sequence ++ " transport=" ++ e.transport
    ++ " handle=" ++ toString e.handle.toInt ++ " bytes=" ++ toString e.bytesReceived
    ++ " duration=" ++ toString e.durationMs ++ "ms preview=" ++ e.preview

/-- What is written to standard output for an event. In raw format the payload has been written
already. -/
def printed (e : Event) : OutputFormat → String
  | .json => e.toJson ++ "\n"
  | .table => e.toTable ++ "\n"
  | .pretty => e.toLine ++ "\n"
  | .raw => ""

end Event

end LocalIpc

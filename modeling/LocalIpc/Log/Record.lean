import LocalIpc.Log.Level
import LocalIpc.Text.Json
/-!
# Log records

What a command tells of its work on standard error, as text or as JSON, one line a record.
-/

namespace LocalIpc

inductive LogValue
  /-- A word, quoted where records are text. -/
  | word (s : String)
  /-- A value that is shown as it is. -/
  | shown (s : String)
  | number (n : Int)
  deriving DecidableEq

structure LogRecord where
  level : LogLevel
  thread : String
  message : String
  fields : List (String × LogValue)
  deriving DecidableEq

namespace LogValue

def asText : LogValue → String
  | word s => Text.quoted (Text.encode s)
  | shown s => s
  | number n => toString n

def asJson : LogValue → String
  | word s => Json.text s
  | shown s => Json.text s
  | number n => Json.number n

end LogValue

namespace LogRecord

def alignRight (width : Nat) (s : String) : String :=
  String.ofList (List.replicate (width - s.length) ' ') ++ s

/-- A record as text. The names of threads line up with the longest one before, `width`. -/
def textLine (time : String) (width : Nat) (r : LogRecord) : String :=
  time ++ " " ++ alignRight 5 r.level.mark ++ " " ++ alignRight width r.thread ++ " " ++ r.message
    ++ String.join (r.fields.map fun f => " " ++ f.1 ++ "=" ++ f.2.asText)

def jsonLine (time : String) (r : LogRecord) : String :=
  Json.object [
    ("timestamp", Json.text time),
    ("level", Json.text r.level.mark),
    ("fields", Json.object
      (("message", Json.text r.message) :: r.fields.map fun f => (f.1, f.2.asJson))),
    ("threadName", Json.text r.thread)]

/-- The lines of records, when the longest name of a thread before them is `width` long. -/
def linesFrom (format : LogFormat) (time : String) : Nat → List LogRecord → List String
  | _, [] => []
  | width, r :: rest =>
    (match format with
      | .text => r.textLine time width
      | .json => r.jsonLine time) :: linesFrom format time (max width r.thread.length) rest

/-- The lines that are logged under a threshold. -/
def lines (format : LogFormat) (threshold : LogLevel) (time : String) (rs : List LogRecord) :
    List String :=
  linesFrom format time 0 (rs.filter fun r => threshold.admits r.level)

end LogRecord

end LocalIpc

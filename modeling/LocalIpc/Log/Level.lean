/-!
# Log levels
-/

namespace LocalIpc

inductive LogFormat
  | text
  | json
  deriving DecidableEq

/-- How much is logged: everything up to a level. -/
inductive LogLevel
  | off
  | error
  | warn
  | info
  | debug
  | trace
  deriving DecidableEq

namespace LogLevel

/-- The level in small letters, as it is given on the command line. -/
def word : LogLevel → String
  | off => "off"
  | error => "error"
  | warn => "warn"
  | info => "info"
  | debug => "debug"
  | trace => "trace"

/-- The level as it stands in log lines. -/
def mark : LogLevel → String
  | off => "OFF"
  | error => "ERROR"
  | warn => "WARN"
  | info => "INFO"
  | debug => "DEBUG"
  | trace => "TRACE"

def rank : LogLevel → Nat
  | off => 0
  | error => 1
  | warn => 2
  | info => 3
  | debug => 4
  | trace => 5

/-- A record of level `l` is logged under the threshold. -/
def admits (threshold l : LogLevel) : Bool := l.rank ≤ threshold.rank

end LogLevel

end LocalIpc

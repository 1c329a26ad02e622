/-!
# Output formats
-/

namespace LocalIpc

/-- How a command reports on standard output. -/
inductive OutputFormat
  | json
  | table
  | pretty
  /-- What clients send, byte for byte, and nothing else. -/
  | raw
  deriving DecidableEq

namespace OutputFormat

/-- The format when none is asked for: a table for a person, JSON for a program. -/
def default (terminal : Bool) : OutputFormat := if terminal then table else json

end OutputFormat

end LocalIpc

import LocalIpc.CommandLine.Basic
import LocalIpc.Config
import LocalIpc.Program.BuildInfo
import LocalIpc.Program.Echoing
import LocalIpc.Program.Reporting
import LocalIpc.Unix.Listener
/-!
# The program

One run of the program: its words are read, its command is carried out at a site, and it ends with a
code, with what it wrote to standard output, and with what it has to say on standard error.
-/

namespace LocalIpc.Program

/-- What the program is started with. -/
structure Start where
  words : List Bytes
  /-- The log level that the environment asks for. -/
  environment : Option Bytes
  /-- Standard output is a terminal. -/
  terminal : Bool

structure Ended where
  exitCode : Nat
  output : Bytes
  log : List LogRecord
  /-- The failure that is told last. -/
  failure : Option CommandFailure
  logFormat : LogFormat
  logLevel : LogLevel
  replies : List Bytes

/-- A run that ends without a log. -/
def Ended.quiet (exitCode : Nat) (output : String) : Ended :=
  ⟨exitCode, Text.encode output, [], none, .text, .info, []⟩

/-- The lines on standard error; `time` stands for the time of each. -/
def Ended.complaints (e : Ended) (time : String) : List String :=
  LogRecord.lines e.logFormat e.logLevel time e.log
    ++ (e.failure.map fun f => "error: " ++ f.message).toList

/-- What is logged when a listener is bound. -/
def bound (path : Path) : List LogRecord := [
  ⟨.info, "main", "listening on unix domain socket",
    [("path", .shown (Text.quoted path)), ("backlog", .number UnixConfig.default.backlog.toInt)]⟩,
  ⟨.info, "main", "listening",
    [("path", .shown (Text.lossy path)), ("transport", .word Unix.transport)]⟩]

/-- How the program is used. -/
def help (b : BuildInfo) : String :=
  "Serve connections on a local IPC socket\n\n"
    ++ "Usage: " ++ b.name ++ " [OPTIONS] <COMMAND>\n\n"
    ++ "Commands:\n"
    ++ "  echo     Accept connections and echo every byte back\n"
    ++ "  listen   Accept connections and report what each client sent\n"
    ++ "  version  Show version information\n"
    ++ "  help     Print this message or the help of the given subcommand(s)\n\n"
    ++ "Options:\n"
    ++ "      --format <FORMAT>      json, table, pretty or raw\n"
    ++ "      --log-format <FORMAT>  text or json\n"
    ++ "      --log-level <LEVEL>    off, error, warn, info, debug or trace\n"
    ++ "  -h, --help                 Print help\n"
    ++ "  -V, --version              Print version\n"

/-- What is told to someone whose words made no invocation. -/
def answer (b : BuildInfo) : UsageError → String
  | .displayVersion => b.short
  | _ => help b

variable {σ : Type}

/-- Binds a listener and serves with it. -/
def serve (t : Site σ) (path : Path)
    (command : Work σ → Option (Except CommandFailure Unit) × Work σ) (w : Work σ) :
    Option (Except CommandFailure Unit) × Work σ :=
  match t.bind path w.world with
  | (.error e, world) => (some (.error (.ofBind e)), { w with world })
  | (.ok _, world) => command ((bound path).foldl Work.note { w with world })

/-- Carries a command out, in at most `turns` turns of its accept loop. -/
def carryOut (t : Site σ) (turns : Nat) (info : BuildInfo) (format : OutputFormat) (w : Work σ) :
    Command → Option (Except CommandFailure Unit) × Work σ
  | .version extended =>
    (some (.ok ()), w.write (Text.encode (if extended then info.extended else info.short)))
  | .echo path => serve t path (Echoing.run t turns) w
  | .listen path count =>
    serve t path (Reporting.run t ⟨path, Unix.transport, format, count⟩ turns) w

/-- The end of a run that carried its command out. -/
def ended (i : Invocation) (r : Except CommandFailure Unit) (w : Work σ) : Ended where
  exitCode := match r with
    | .ok _ => ExitCode.success
    | .error f => f.code
  output := w.output
  log := w.log
  failure := match r with
    | .ok _ => none
    | .error f => some f
  logFormat := i.logFormat
  logLevel := i.logLevel
  replies := w.replies

/-- Runs the program, in at most `turns` turns of its accept loop. Without an end it would go on. -/
def run (t : Site σ) (turns : Nat) (info : BuildInfo) (s : Start) (world : σ) :
    Except UsageError (Option Ended × σ) :=
  match CommandLine.parse s.environment s.words with
  | .error e => .error e
  | .ok i =>
    let format := i.format.getD (OutputFormat.default s.terminal)
    let (r, w) := carryOut t turns info format (.start world) i.command
    .ok (r.map fun r => ended i r w, w.world)

end LocalIpc.Program

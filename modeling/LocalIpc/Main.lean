import LocalIpc.Program.Console
/-!
# The command line

Standard input is what the one client sends, and standard output takes the reports or what is sent
back to the client. There is no clock here, so log lines have a dash in place of a time.
-/

namespace LocalIpc.Main

/-- Reads a stream to its end, after `got`. -/
partial def readAll (stream : IO.FS.Stream) (got : ByteArray) : IO ByteArray := do
  let piece ← stream.read 65536
  if piece.isEmpty then return got else readAll stream (got ++ piece)

def put (stream : IO.FS.Stream) (data : Bytes) : IO Unit := do
  stream.write ⟨data.toArray⟩
  stream.flush

def putEnded (e : Program.Ended) : IO UInt32 := do
  let out ← IO.getStdout
  put out e.output
  e.replies.forM (put out)
  (e.complaints "-").forM IO.eprintln
  return UInt32.ofNat e.exitCode

def putUsage (info : BuildInfo) (e : UsageError) : IO UInt32 := do
  let stream ← if e.isAnswer then IO.getStdout else IO.getStderr
  put stream (Text.encode (Program.answer info e))
  return UInt32.ofNat e.exitCode

end LocalIpc.Main

open LocalIpc in
def main (words : List String) : IO UInt32 := do
  let environment ← IO.getEnv "LOCALSOCK_LOG_LEVEL"
  let terminal ← (← IO.getStdout).isTty
  let start : Program.Start := ⟨words.map Text.encode, environment.map Text.encode, terminal⟩
  let input ← if Console.serves start then Main.readAll (← IO.getStdin) .empty else pure .empty
  match Console.run .plain start input.toList with
  | .ok (some e) => Main.putEnded e
  | .ok none => return UInt32.ofNat ExitCode.failure
  | .error e => Main.putUsage .plain e

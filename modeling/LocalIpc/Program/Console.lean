import LocalIpc.Program.Basic
/-!
# A console

The site of a program that has a console and no sockets: it has one client, which sends what stands
on standard input.
-/

namespace LocalIpc

structure Console where
  listener : Unix.Listener
  running : Bool
  /-- What the client sends, until the client has come. -/
  input : Option Bytes

namespace Console

def start (input : Bytes) : Console := ⟨.fresh .default 0, true, some input⟩

/-- A path has to be one that a socket file could have. -/
def bind (path : Path) (w : Console) : Except ListenerError Unit × Console :=
  match w.listener.checkBind path with
  | .error e => (.error e, w)
  | .ok _ => (.ok (), { w with listener := { w.listener with phase := .bound, path := some path } })

def stop (w : Console) : Console := { w with running := false }

/-- When the client has been there, nobody comes any more. -/
def accept (w : Console) : Except ListenerError Client × Console :=
  match w.input with
  | some data => (.ok ⟨⟨0⟩, [.ok data], [], 0, 0, 0⟩, { w with input := none })
  | none => (.error .alreadyClosed, w)

def close (w : Console) : Except ListenerError Unit × Console :=
  if w.listener.phase = .closed then (.error .alreadyClosed, w)
  else (.ok (), { w with listener := { w.listener with phase := .closed } })

def site : Site Console := ⟨bind, running, stop, accept, fun _ w => (.ok (), w), close⟩

/-- The program has a client to serve. -/
def serves (s : Program.Start) : Bool :=
  match CommandLine.parse s.environment s.words with
  | .ok i => match i.command with
    | .echo _ | .listen _ _ => true
    | .version _ => false
  | .error _ => false

/-- Runs the program with what its client sends. The accept loop takes two turns at most. -/
def run (info : BuildInfo) (s : Program.Start) (input : Bytes) :
    Except UsageError (Option Program.Ended) :=
  (Program.run site 3 info s (start input)).map Prod.fst

end Console

end LocalIpc

import LocalIpc.Program.Site
import LocalIpc.Unix.Happening
/-!
# Gatherings

A command at a host where others are at work too: listeners are made and bound, clients connect,
write and hang up, while the command waits for a client or hears one out. An agenda says what the
others do. They leave alone what belongs to the command: its listener, and the connection that it
serves.
-/

namespace LocalIpc

open Unix (Happening)

/-- What others do while the command accepts one client and hears it out. -/
structure Episode where
  /-- What happens until the accept is over. What is left of it happens after that. -/
  coming : List Happening
  /-- What happens before each read. -/
  talk : List (List Happening)

structure Gathering where
  state : Unix.State
  /-- What has happened since the listener of the command was bound, until it is closed. -/
  since : List Happening
  listener : Nat
  /-- The number of the connection that the command serves. -/
  serving : Option Nat
  running : Bool
  /-- An episode for each accept. -/
  agenda : List Episode

namespace Gathering

/-- How much the command reads at once. -/
def bufferSize : Nat := 8192

def happen (w : Gathering) (e : Happening) : Gathering :=
  { w with state := w.state.happen e, since := w.since ++ [e] }

/-- The host replies to what was begun above `depth` other operations, up to `n` times. -/
def settle (depth : Nat) : Nat → Gathering → Gathering
  | 0, w => w
  | n + 1, w => if depth < w.state.tasks.length then settle depth n (w.happen .answer) else w

/-- The command carries an operation out. -/
def carryOut (w : Gathering) (op : Unix.Operation) : Gathering :=
  settle w.state.tasks.length Unix.State.callBound (w.happen (.start op))

/-! ## The others -/

/-- Something is done with what belongs to the command. -/
def owns (w : Gathering) : Happening → Bool
  | .start (.bind l _) | .start (.bindSlowly l _) | .start (.accept l) | .start (.close l)
  | .start (.drop l) => l == w.listener
  | .start (.closeConnection i) | .start (.dropConnection i) => w.serving == some i
  | _ => false

/-- Somebody else does something. -/
def meanwhile (w : Gathering) (e : Happening) : Gathering := if w.owns e then w else w.happen e

def meanwhileAll (w : Gathering) (es : List Happening) : Gathering := es.foldl meanwhile w

/-- Lets others do things until no more than `depth` operations are under way, and gives what is
left of what they do. -/
def await (depth : Nat) : List Happening → Gathering → List Happening × Gathering
  | [], w => ([], w)
  | e :: es, w =>
    if w.state.tasks.length = depth then (e :: es, w) else await depth es (w.meanwhile e)

/-! ## The command -/

def bind (path : Path) (w : Gathering) : Except ListenerError Unit × Gathering :=
  match Unix.bindNew w.state .default path with
  | (.ok l, state) => (.ok (), { w with state, since := [], listener := l })
  | (.error e, state) => (.error e, { w with state })

def stop (w : Gathering) : Gathering := { w with running := false }

def read (fd : Fd) (w : Gathering) : Except IoError Bytes × Gathering :=
  ((w.state.host.read fd bufferSize).1, w.happen (.read fd bufferSize))

def reads (fd : Fd) : Nat → Gathering → List (Except IoError Bytes) × Gathering
  | 0, w => ([], w)
  | n + 1, w =>
    let (r, w) := w.read fd
    let (rs, w) := reads fd n w
    (r :: rs, w)

/-- Hears a client out. When nothing happens any more, all that has come is read, and then what
follows it: the end of the stream or a failure. -/
def hear (fd : Fd) : List (List Happening) → Gathering → List (Except IoError Bytes) × Gathering
  | [], w => w.reads fd (w.state.host.unread fd / bufferSize + 2)
  | es :: talk, w =>
    let (r, w) := (w.meanwhileAll es).read fd
    let (rs, w) := hear fd talk w
    (r :: rs, w)

/-- What an accept that is over has come to. -/
def accepted (rest : List Happening) (talk : List (List Happening)) (w : Gathering) :
    Except ListenerError Client × Gathering :=
  match w.state.lastOutcome with
  | .opened i c =>
    let (reads, w) := ({ w with serving := some i }.meanwhileAll rest).hear c.handle.fd talk
    (.ok ⟨c.handle, reads, [], 0, 0, 0⟩, w)
  | .failed e => (.error e, w.meanwhileAll rest)
  | _ => (.error .alreadyClosed, w.meanwhileAll rest)

/-- Accepts a client and hears it out. There is no answer if the accept still waits when nothing
happens any more. -/
def answer (w : Gathering) : Option (Except ListenerError Client) × Gathering :=
  let depth := w.state.tasks.length
  let episode := w.agenda.headD ⟨[], []⟩
  let (rest, w) := ({ w with agenda := w.agenda.tail }.happen (.start (.accept w.listener))).await
    depth episode.coming
  let w := if w.state.tasks.length = depth then w else w.happen .answer
  if w.state.tasks.length = depth then
    (some (w.accepted rest episode.talk).1, (w.accepted rest episode.talk).2)
  else (none, w)

/-- The accept as the command takes it. One that never returns would hold up the command for good.
Here it is the last one, as if the listener were closed. -/
def accept (w : Gathering) : Except ListenerError Client × Gathering :=
  (w.answer.1.getD (.error .alreadyClosed), w.answer.2)

/-- Gives the connection back that was served. -/
def release (w : Gathering) : Except IoError Unit × Gathering :=
  match w.serving with
  | none => (.ok (), w)
  | some i =>
    let w := { w with serving := none }.carryOut (.closeConnection i)
    (match w.state.lastOutcome with
      | .failed (.native .close e) => .error e
      | _ => .ok (), w)

def close (w : Gathering) : Except ListenerError Unit × Gathering :=
  let closed := w.carryOut (.close w.listener)
  (match closed.state.lastOutcome with
    | .failed e => .error e
    | _ => .ok (), { closed with since := w.since })

def site : Site Gathering := ⟨bind, running, stop, accept, fun _ => release, close⟩

def start (state : Unix.State) (agenda : List Episode) : Gathering :=
  ⟨state, [], 0, none, true, agenda⟩

end Gathering

end LocalIpc

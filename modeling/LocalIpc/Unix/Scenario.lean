import LocalIpc.Host.Change
import LocalIpc.Unix.Layer
/-!
# Scenarios of socket listeners

A scenario is a list of steps for listeners and for other processes on one host. Native calls are
answered by the host or by a script, and further steps may run inside them, to any depth. Every
scenario is a run: its steps only start operations, give replies and change the host.
-/

namespace LocalIpc.Unix

/-- Who replies to native calls. -/
inductive Layer
  | native
  /-- A script replies. A scripted bind may make a socket file that nobody listens on. -/
  | script (makesFiles : Bool)
  deriving DecidableEq

/-- The scripted calls that succeed unless a failure is set for them. -/
inductive Fallible
  | bind
  | listen
  | shutdown
  | close (fd : Fd)
  deriving DecidableEq

inductive Step
  /-- Makes a listener; a script gives its descriptor. -/
  | create (script : Except IoError Fd)
  /-- A bind, with the steps that run inside its calls. -/
  | bind (l : Nat) (path : Path) (inBind inListen : List Step)
  /-- An accept with its scripted client, and with the steps that run inside its call. -/
  | accept (l : Nat) (script : Except IoError Fd) (inside : List Step)
  | operate (op : Operation)
  | change (c : Change)
  | read (i : Nat) (length : Nat)
  | readToEnd (i : Nat)
  | write (i : Nat) (data : Bytes)
  | flush (i : Nat)
  | inspect (i : Nat)
  /-- Sets or removes the failure of a call. -/
  | fail (call : Fallible) (e : Option IoError)
  | settings (l : Nat)

inductive Answer
  | outcome (o : Outcome)
  | data (r : Except IoError Bytes)
  | count (r : Except IoError Nat)
  | changed (r : Except IoError Unit)
  | shown (s : String)
  | settings (config : UnixConfig)

structure Scenario where
  state : State
  config : UnixConfig
  layer : Layer
  failures : List (Fallible × IoError)
  kept : List (Path × Fd)

namespace Scenario

def start (config : UnixConfig) (layer : Layer) : Scenario :=
  ⟨.start .fresh, config, layer, [], []⟩

def failureOf (s : Scenario) (call : Fallible) : Except IoError Unit :=
  match s.failures.lookup call with
  | some e => .error e
  | none => .ok ()

def setFailure (s : Scenario) (call : Fallible) (e : Option IoError) : Scenario :=
  let others := s.failures.filter fun f => f.1 ≠ call
  { s with failures := (e.map fun e => (call, e)).toList ++ others }

def setHost (s : Scenario) (host : Host) : Scenario :=
  { s with state := s.state.step (.world host) }

def give (s : Scenario) (r : Reply) : Scenario := { s with state := s.state.reply r }

def apply (s : Scenario) (c : Change) : Except IoError Unit × Scenario :=
  let (r, w) := World.apply ⟨s.state.host, s.kept⟩ c
  (r, { s.setHost w.host with kept := w.kept })

/-- What a script replies to a bind, with the file that it may make. -/
def scriptedBind (s : Scenario) (makesFiles : Bool) (path : Path) : Except IoError Unit × Host :=
  match s.failureOf .bind with
  | .error e => (.error e, s.state.host)
  | .ok _ =>
    if makesFiles then
      match s.state.host.makeSocketFile path with
      | .ok (_, tree) => (.ok (), { s.state.host with tree })
      | .error e => (.error e, s.state.host)
    else (.ok (), s.state.host)

/-- What the layer replies to a call that has no script of its own. -/
def replyTo (s : Scenario) (c : Call) : Option (Reply × Host) :=
  match s.layer, c with
  | .native, c => nativeReply s.state.host c
  | .script makesFiles, .bind _ address =>
    let (r, host) := s.scriptedBind makesFiles address.path
    some (.done r, host)
  | .script _, .listen _ _ => some (.done (s.failureOf .listen), s.state.host)
  | .script _, .shutdown _ => some (.done (s.failureOf .shutdown), s.state.host)
  | .script _, .close fd => some (.done (s.failureOf (.close fd)), s.state.host)
  | .script _, _ => none

/-- Replies to the innermost operation above `depth` others, up to `n` times, while its calls have
no script of their own. -/
def settle (depth : Nat) : Nat → Scenario → Scenario
  | 0, s => s
  | n + 1, s =>
    match (s.state.waiting? depth).bind s.replyTo with
    | some (r, host) => settle depth n ((s.setHost host).give r)
    | none => s

def begin (s : Scenario) (op : Operation) : Scenario := { s with state := s.state.perform op }

/-- Starts an operation and replies to all its calls. -/
def carryOut (s : Scenario) (op : Operation) : Scenario :=
  settle s.state.tasks.length State.callBound (s.begin op)

/-- The reply to a call that a script has an answer for. -/
def opened (s : Scenario) (c : Call) (script : Except IoError Fd) : Option (Reply × Host) :=
  match s.layer with
  | .native => nativeReply s.state.host c
  | .script _ => some (.opened script, s.state.host)

def giveOpened (s : Scenario) (depth : Nat) (c : Call) (script : Except IoError Fd) : Scenario :=
  match s.opened c script with
  | some (r, host) => settle depth State.callBound ((s.setHost host).give r)
  | none => s

def useConnection (s : Scenario) (i : Nat) (f : Connection → Answer × Scenario) :
    Answer × Scenario :=
  match s.state.connection? i with
  | some held => f held.connection
  | none => (.outcome .gone, s)

/-- A use of a connection's stream. -/
def useStream {α : Type} (s : Scenario) (i : Nat) (answer : Except IoError α → Answer)
    (f : Connection → Host → Except IoError α × Host) : Answer × Scenario :=
  s.useConnection i fun c =>
    let (r, host) := f c s.state.host
    (answer r, s.setHost host)

/-- The answer to a step that has no others inside it. -/
def simple (s : Scenario) : Step → Answer × Scenario
  | .change c =>
    let (r, s) := s.apply c
    (.changed r, s)
  | .read i n => s.useStream i .data fun c => c.read (Host.read c.handle.fd) n
  | .readToEnd i => s.useStream i .data fun c host =>
      c.readToEnd (Host.read c.handle.fd) (host.unread c.handle.fd + 1) host
  | .write i data => s.useStream i .count fun c => c.write (Host.write c.handle.fd) data
  | .flush i => s.useStream i .count fun _ host => (.ok 0, host)
  | .inspect i => s.useConnection i fun c => (.shown c.shown, s)
  | .fail call e => (.outcome .done, s.setFailure call e)
  | .settings l =>
    match s.state.listener? l with
    | some x => (.settings x.config, s)
    | none => (.outcome .gone, s)
  | .create script =>
    let depth := s.state.tasks.length
    let s := (s.begin (.create s.config)).giveOpened depth .socket script
    (.outcome s.state.lastOutcome, s)
  | .operate op =>
    let s := s.carryOut op
    (.outcome s.state.lastOutcome, s)
  | _ => (.outcome .gone, s)

mutual

/-- Runs one step. Gives its answer, the answers of the steps inside it in the order in which they
were completed, and the scenario after it. -/
def step (s : Scenario) : Step → Answer × List Answer × Scenario
  | .bind l path inBind inListen =>
    let depth := s.state.tasks.length
    let s := s.begin (.bind l path)
    let (as, s) :=
      match (s.state.waiting? depth).bind fun c => (s.replyTo c) with
      | some (.done (.ok _), host) =>
        let (as, s) := (s.setHost host).steps inBind
        (as, s.give (.done (.ok ())))
      | some (r, host) => ([], (s.setHost host).give r)
      | none => ([], s)
    let (bs, s) :=
      match s.state.waiting? depth with
      | some _ => s.steps inListen
      | none => ([], s)
    let s := settle depth State.callBound s
    (.outcome s.state.lastOutcome, as ++ bs, s)
  | .accept l script inside =>
    let depth := s.state.tasks.length
    let s := s.begin (.accept l)
    let (as, s) :=
      match s.state.waiting? depth with
      | some c =>
        let (as, s) := s.steps inside
        (as, s.giveOpened depth c script)
      | none => ([], s)
    (.outcome s.state.lastOutcome, as, s)
  | t =>
    let (a, s) := s.simple t
    (a, [], s)

/-- Runs steps one after another. Gives the answers of all of them, and of the steps inside them, in
the order in which they were completed. -/
def steps (s : Scenario) : List Step → List Answer × Scenario
  | [] => ([], s)
  | t :: ts =>
    let (a, inner, s) := s.step t
    let (rest, s) := s.steps ts
    (inner ++ a :: rest, s)

end

/-! ## Reports -/

/-- What is seen of one step. -/
structure Report where
  answer : Answer
  nested : List Answer
  calls : List Call
  /-- The listeners that were not dropped. -/
  listeners : List (Option Listener)
  files : List (Path × File)

def report (s : Scenario) (t : Step) : Report × Scenario :=
  let n := s.state.history.length
  let (answer, nested, s) := s.step t
  ({ answer, nested, calls := s.state.callsSince n
     listeners := (List.range s.state.listeners.length).map s.state.listener?
     files := s.state.host.tree.listing }, s)

def reports (s : Scenario) : List Step → List Report × Scenario
  | [] => ([], s)
  | t :: ts =>
    let (r, s) := s.report t
    let (rs, s) := s.reports ts
    (r :: rs, s)

/-- The end of a scenario: the listeners are dropped, then the connections in order. -/
def finish (s : Scenario) : Scenario :=
  let s := (List.range s.state.listeners.length).foldl (fun s l => s.carryOut (.drop l)) s
  (List.range s.state.connections.length).foldl (fun s i => s.carryOut (.dropConnection i)) s

end Scenario

end LocalIpc.Unix

import LocalIpc.Pipe.State
/-!
# Scenarios of a pipe listener

A scenario is a list of steps for one listener, with a script of what the pipe layer replies and
with further steps inside the calls of an accept, to any depth. Every scenario is a run: its steps
only start operations and give replies.
-/

namespace LocalIpc.Pipe

/-- The calls that succeed unless a failure is set for them. -/
inductive Fallible
  | cancel
  | disconnect
  | close
  deriving DecidableEq

/-- What the pipe layer replies to the calls of one accept. -/
structure AcceptScript where
  /-- The new instance; without one the scenario counts on. -/
  create : Option (Except IoError Handle)
  connect : ConnectStart
  wait : Except IoError Unit

inductive Step
  /-- An accept, with the steps that run inside its calls. -/
  | accept (script : AcceptScript) (inCreate inConnect inWait : List Step)
  | operate (op : Operation)
  | read (i : Nat) (length : Nat)
  | write (i : Nat) (data : Bytes)
  | flush (i : Nat)
  | inspect (i : Nat)
  /-- Sets or removes the failure of a call on a handle. -/
  | fail (call : Fallible) (h : Handle) (e : Option IoError)

inductive Answer
  | outcome (o : Outcome)
  | data (r : Except IoError Bytes)
  | count (r : Except IoError Nat)
  | shown (s : String)

structure Scenario where
  state : State
  failures : List ((Fallible × Handle) × IoError)
  /-- The last handle that the scenario gave out on its own. -/
  lastHandle : Int64

namespace Scenario

def failureOf (s : Scenario) (call : Fallible) (h : Handle) : Except IoError Unit :=
  match s.failures.lookup (call, h) with
  | some e => .error e
  | none => .ok ()

def setFailure (s : Scenario) (call : Fallible) (h : Handle) (e : Option IoError) : Scenario :=
  let others := s.failures.filter fun f => f.1 ≠ (call, h)
  { s with failures := (e.map fun e => ((call, h), e)).toList ++ others }

/-- The reply to a call that the script of an accept says nothing about. -/
def replyTo (s : Scenario) : Call → Option Reply
  | .cancel h => some (.done (s.failureOf .cancel h))
  | .quiesce _ _ => some (.done (.ok ()))
  | .disconnect h => some (.done (s.failureOf .disconnect h))
  | .close h => some (.done (s.failureOf .close h))
  | _ => none

def give (s : Scenario) (r : Reply) : Scenario := { s with state := s.state.reply r }

/-- Replies to the innermost task at depth `depth`, up to `n` times, while the scenario knows what
to reply. -/
def settle (depth : Nat) : Nat → Scenario → Scenario
  | 0, s => s
  | n + 1, s =>
    match s.state.tasks with
    | [] => s
    | t :: rest =>
      if rest.length = depth then
        match s.replyTo (t.call s.state.path s.state.config) with
        | some r => settle depth n (s.give r)
        | none => s
      else s

/-- More calls than any operation makes on its own: two for every tracked instance, three for a
connection and one for the lock. -/
def callBound (s : Scenario) : Nat :=
  match s.state.listener with
  | some l => 2 * (l.registry.waiting.length + l.registry.handedOut.length) + 4
  | none => 4

/-- Starts an operation and replies to it as far as the scenario knows what to reply. -/
def begin (s : Scenario) (op : Operation) : Scenario :=
  settle s.state.tasks.length (s.callBound) { s with state := s.state.start op }

/-- The innermost task waits in task `p`, above `depth` others. -/
def waitsIn (s : Scenario) (depth : Nat) (p : Task → Bool) : Bool :=
  match s.state.tasks with
  | t :: rest => rest.length = depth && p t
  | [] => false

/-- The new instance of an accept: the scripted one, or the next handle in turn. -/
def newHandle (s : Scenario) : Option (Except IoError Handle) → Except IoError Handle × Scenario
  | some r => (r, s)
  | none => (.ok ⟨s.lastHandle + 1⟩, { s with lastHandle := s.lastHandle + 1 })

/-- Pipes have no byte stream on this host. -/
def useConnection (s : Scenario) (i : Nat) (f : Connection → Answer) : Answer :=
  match s.state.connection? i with
  | some c => f c
  | none => .outcome .gone

mutual

/-- Runs one step. Gives its answer, the answers of the steps inside it in the order in which they
were completed, and the scenario after it. -/
def step (s : Scenario) : Step → Answer × List Answer × Scenario
  | .accept script inCreate inConnect inWait =>
    let depth := s.state.tasks.length
    let s := s.begin .accept
    let (as, s) :=
      if s.waitsIn depth (· == .creating) then
        let (as, s) := s.steps inCreate
        let (h, s) := s.newHandle script.create
        let n := s.callBound
        (as, settle depth n (s.give (.created h)))
      else ([], s)
    let (bs, s) :=
      if s.waitsIn depth fun t => match t with | .connecting _ => true | _ => false then
        let (bs, s) := s.steps inConnect
        let n := s.callBound
        (bs, settle depth n (s.give (.connect script.connect)))
      else ([], s)
    let (cs, s) :=
      if s.waitsIn depth fun t => match t with | .waiting _ => true | _ => false then
        let (cs, s) := s.steps inWait
        let n := s.callBound
        (cs, settle depth n (s.give (.done script.wait)))
      else ([], s)
    (.outcome s.state.lastOutcome, as ++ bs ++ cs, s)
  | .operate op =>
    let s := s.begin op
    (.outcome s.state.lastOutcome, [], s)
  | .read i n => (s.useConnection i fun c => .data (c.read (fun _ _ => (.ok [], ())) n ()).1, [], s)
  | .write i data =>
    (s.useConnection i fun c => .count (c.write (fun _ _ => (.ok 0, ())) data ()).1, [], s)
  | .flush i => (s.useConnection i fun _ => .count (.ok 0), [], s)
  | .inspect i => (s.useConnection i fun c => .shown c.shown, [], s)
  | .fail call h e => (.outcome .done, [], s.setFailure call h e)

/-- Runs steps one after another. Gives the answers of all of them, and of the steps inside them, in
the order in which they were completed. -/
def steps (s : Scenario) : List Step → List Answer × Scenario
  | [] => ([], s)
  | t :: ts =>
    let (a, inner, s) := s.step t
    let (rest, s) := s.steps ts
    (inner ++ a :: rest, s)

end

/-! ## Reports -/

/-- What is seen of one step. -/
structure Report where
  answer : Answer
  nested : List Answer
  calls : List Call
  /-- Counts of the instances that wait and that are handed out, and whether the listener is closed,
  while there is a listener. -/
  listener : Option ((Nat × Nat) × Bool)

def listener? (s : Scenario) : Option Listener :=
  if s.state.dropped then none else s.state.listener

def view (s : Scenario) : Option ((Nat × Nat) × Bool) :=
  s.listener?.map fun l => (l.registry.sizes, l.closed)

def report (s : Scenario) (t : Step) : Report × Scenario :=
  let n := s.state.history.length
  let (answer, nested, s) := s.step t
  ({ answer, nested, calls := s.state.callsSince n, listener := s.view }, s)

def reports (s : Scenario) : List Step → List Report × Scenario
  | [] => ([], s)
  | t :: ts =>
    let (r, s) := s.report t
    let (rs, s) := s.reports ts
    (r :: rs, s)

/-- Constructs the listener, with the given reply for its lock. -/
def construct (name : String) (config : PipeConfig) (lock : Except IoError Handle)
    (failures : List Step) : Scenario :=
  let s : Scenario := ⟨State.construct name config, [], 100⟩
  let s := (s.steps failures).2
  settle 0 4 (s.give (.created lock))

/-- The end of a scenario: the listener is dropped, then the connections in order. -/
def finish (s : Scenario) : Scenario :=
  (List.range s.state.connections.length).foldl (fun s i => s.begin (.dropConnection i))
    (s.begin .drop)

end Scenario

end LocalIpc.Pipe

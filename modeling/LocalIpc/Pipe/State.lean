import LocalIpc.Pipe.Listener
/-!
# Runs of a pipe listener

The listener, the connections it handed out, and the operations that wait in native calls, the
innermost first: an operation may start while another one waits, and then it is the one that goes on
first. A listener that its owner has let go is closed as soon as no operation of it is under way.
The history keeps everything that happened, oldest first.
-/

namespace LocalIpc.Pipe

inductive Operation
  | accept
  | close
  | bind
  /-- The owner of the listener lets it go. -/
  | drop
  | closeConnection (i : Nat)
  | dropConnection (i : Nat)
  deriving DecidableEq

/-- What an operation gives its caller. -/
inductive Outcome
  | accepted (i : Nat) (c : Connection)
  | done
  | failed (e : ListenerError)
  /-- There is no such listener or connection any more. -/
  | gone
  deriving DecidableEq

inductive Entry
  | began (op : Operation)
  | called (c : Call)
  | replied (r : Reply)
  | finished (o : Outcome)

structure State where
  path : String
  config : PipeConfig
  /-- The listener, once it is made. -/
  listener : Option Listener
  /-- The owner of the listener has let it go. -/
  dropped : Bool
  /-- The connections handed out, in order; one that was closed or dropped leaves its place. -/
  connections : List (Option Connection)
  tasks : List Task
  history : List Entry

namespace State

def note (s : State) (e : Entry) : State := { s with history := s.history ++ [e] }

def push (s : State) (t : Task) : State :=
  { s with tasks := t :: s.tasks }.note (.called (t.call s.path s.config))

/-- Nobody uses the listener any more: its owner has let it go, and no operation of it is under
way. -/
def isUnheld (s : State) : Bool := s.dropped && !s.tasks.any Task.holdsListener

/-- Closes the listener if nobody uses it any more. -/
def closeUnheld (s : State) : State :=
  match s.listener with
  | some l =>
    if s.isUnheld then
      match l.beginClose true with
      | (.waits t, l) => { s with listener := some l }.push t
      | (_, l) => { s with listener := some l }
    else s
  | none => s

/-- The innermost operation ends. -/
def finish (s : State) (o : Outcome) : State := (s.note (.finished o)).closeUnheld

/-- Takes what an operation has come to, with the tasks `rest` below it. -/
def advance (s : State) (rest : List Task) (p : Progress) : State :=
  let s := { s with tasks := rest }
  match p with
  | .waits t => s.push t
  | .accepted h =>
    let c : Connection := ⟨h, .pipe, s.config.strictLength⟩
    { s with connections := s.connections ++ [some c] }.finish
      (.accepted s.connections.length c)
  | .done => s.finish .done
  | .failed e => s.finish (.failed e)
  | .over => s

/-- As `advance`, with the listener that the operation left behind. -/
def advanceWith (s : State) (rest : List Task) (p : Progress × Listener) : State :=
  { s with listener := some p.2 }.advance rest p.1

/-- The start of a run: the construction of the listener waits for its lock. -/
def construct (name : String) (config : PipeConfig) : State :=
  State.advance
    { path := PipeName.normalize name, config, listener := none, dropped := false,
      connections := [], tasks := [], history := [] } [] (.waits .creatingLock)

def connection? (s : State) (i : Nat) : Option Connection := s.connections[i]?.join

/-- Starts an operation of the listener. -/
def startOn (s : State) (l : Listener) : Operation → State
  | .accept => s.advance s.tasks l.beginAccept
  | .close => s.advanceWith s.tasks (l.beginClose false)
  | .bind => s.advance s.tasks (.failed Listener.bindError)
  | .drop => { s with dropped := true }.finish .done
  | _ => s

def letGo (s : State) (i : Nat) (quiet : Bool) : State :=
  match s.listener, s.connection? i with
  | some l, some c =>
    { s with connections := s.connections.set i none }.advanceWith s.tasks
      (l.beginRelease c.handle quiet)
  | _, _ => s.note (.finished .gone)

/-- Starts an operation, inside the call that the innermost task waits in. -/
def start (s : State) (op : Operation) : State :=
  let s := s.note (.began op)
  match op with
  | .closeConnection i => s.letGo i false
  | .dropConnection i => s.letGo i true
  | op =>
    match s.listener with
    | some l => if s.dropped then s.note (.finished .gone) else s.startOn l op
    | none => s.note (.finished .gone)

/-- The innermost task of a finished listener goes on with a reply. -/
def resume (s : State) (l : Listener) (rest : List Task) : Task → Reply → State
  | .creating, .created r => s.advanceWith rest (l.afterCreate r)
  | .connecting h, .connect c => s.advanceWith rest (l.afterConnect h c)
  | .waiting h, .done r => s.advanceWith rest (l.afterWait h r)
  | .releasing call h next, .done r => s.advanceWith rest (l.afterRelease call h next r)
  | .closingLock _ e quiet, .done r => s.advance rest (Listener.afterLock e quiet r)
  | _, _ => s

/-- The construction goes on with a reply. A lock that cannot be reset is given back. -/
def resumeConstruction (s : State) (rest : List Task) : Task → Reply → State
  | .creatingLock, .created (.ok h) => s.advance rest (.waits (.resettingLock h))
  | .creatingLock, .created (.error e) => s.advance rest (.failed (.native .pipeCreate e))
  | .resettingLock h, .done (.ok _) =>
    s.advanceWith rest (.done, ⟨s.path, s.config, h, false, .empty⟩)
  | .resettingLock h, .done (.error e) => s.advance rest (.waits (.givingUpLock h e))
  | .givingUpLock _ e, .done _ => s.advance rest (.failed (.native .pipeDisconnect e))
  | _, _ => s

/-- The native call of the innermost task returns. A reply of another kind than the call asks for
does not reach it. -/
def reply (s : State) (r : Reply) : State :=
  match s.tasks with
  | [] => s
  | t :: rest =>
    if t.takes r then
      match s.listener with
      | some l => (s.note (.replied r)).resume l rest t r
      | none => (s.note (.replied r)).resumeConstruction rest t r
    else s

end State

/-! ## Runs -/

inductive Event
  | start (op : Operation)
  | reply (r : Reply)

namespace State

def step (s : State) : Event → State
  | .start op => s.start op
  | .reply r => s.reply r

def run (s : State) (es : List Event) : State := es.foldl step s

/-- What the last finished operation gave. -/
def lastOutcome (s : State) : Outcome :=
  s.history.foldl (fun o e => match e with | .finished o => o | _ => o) .gone

/-- The native calls made since the history had `n` entries. -/
def callsSince (s : State) (n : Nat) : List Call :=
  (s.history.drop n).filterMap fun e => match e with | .called c => some c | _ => none

end State

end LocalIpc.Pipe

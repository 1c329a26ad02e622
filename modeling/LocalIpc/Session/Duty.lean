import LocalIpc.Command.Shutdown
import LocalIpc.Pipe.State
import LocalIpc.Session.Loop
import LocalIpc.Unix.State
/-!
# Listeners on duty

The accept loop over a listener whose operations run from one native call to the next. An agenda
says what happens meanwhile: other operations begin, native calls return, and interrupts come, at
any point before the loop is over. An interrupt clears the flag and closes the listener, and nobody
asks what came of it.
-/

namespace LocalIpc

/-- How the accept loop uses a listener in a state `τ` that goes on by events `ε`. -/
structure Transport (τ ε α : Type) where
  step : τ → ε → τ
  accept : ε
  close : ε
  /-- Nobody holds the lock that an accept needs to begin. -/
  free : τ → Bool
  /-- How many operations are under way. -/
  depth : τ → Nat
  /-- What the accept has given that is over now. -/
  accepted : τ → Except ListenerError α
  /-- What the close has given that is over now. -/
  closed : τ → Except ListenerError Unit

/-- Closes the listener of a command, and tells how that failed. -/
def Transport.shutdown {τ ε α : Type} (t : Transport τ ε α) (s : τ) : Option CommandFailure :=
  CommandFailure.ofClose? (t.closed (t.step s t.close))

inductive Moment (ε : Type)
  | event (e : ε)
  | interrupt
  deriving DecidableEq

/-- What has happened. The close of an interrupt is an event of its own. -/
inductive Mark (ε α : Type)
  | event (e : ε)
  | interrupt
  /-- The loop calls for an accept. -/
  | accept
  /-- The loop hands a client on. -/
  | handed (client : α)

/-- A listener on duty, with the flag. -/
structure Duty (τ ε α : Type) where
  state : τ
  running : Bool
  /-- What will happen, each list during one call of the loop: an accept or a handler. -/
  agenda : List (List (Moment ε))
  log : List (Mark ε α)

namespace Duty

variable {τ ε α : Type} (t : Transport τ ε α)

def note (d : Duty τ ε α) (m : Mark ε α) : Duty τ ε α := { d with log := d.log ++ [m] }

def step (d : Duty τ ε α) (e : ε) : Duty τ ε α :=
  { d with state := t.step d.state e }.note (.event e)

def happen (d : Duty τ ε α) : Moment ε → Duty τ ε α
  | .event e => d.step t e
  | .interrupt => ({ d with running := false }.note .interrupt).step t t.close

def happenAll (d : Duty τ ε α) (ms : List (Moment ε)) : Duty τ ε α := ms.foldl (happen t) d

/-- Lets things happen until a condition is met, and gives what is left of them. -/
def await (d : Duty τ ε α) (met : τ → Bool) : List (Moment ε) → List (Moment ε) × Duty τ ε α
  | [] => ([], d)
  | m :: ms => if met d.state then (m :: ms, d) else (d.happen t m).await met ms

/-- What will happen during a call of the loop that begins. -/
def call (d : Duty τ ε α) (m : Mark ε α) : List (Moment ε) × Duty τ ε α :=
  (d.agenda.headD [], { d.note m with agenda := d.agenda.tail })

/-- An accept that has the lock waits for its native calls. What is left to happen happens before
the loop goes on. There is no answer if the accept still waits when nothing happens any more. -/
def answerNow (d : Duty τ ε α) (ms : List (Moment ε)) :
    Option (Except ListenerError α) × Duty τ ε α :=
  let depth := t.depth d.state
  let (ms, d) := (d.step t t.accept).await t (fun s => t.depth s == depth) ms
  (if t.depth d.state = depth then some (t.accepted d.state) else none, d.happenAll t ms)

/-- An accept waits for the lock first. -/
def answer (d : Duty τ ε α) : Option (Except ListenerError α) × Duty τ ε α :=
  let (ms, d) := d.call .accept
  let (ms, d) := d.await t t.free ms
  if t.free d.state then d.answerNow t ms else (none, d)

/-- The accept as the loop takes it. One that never returns would hold up the loop for good. Here it
is the last one, as if the listener were closed. -/
def accept (d : Duty τ ε α) : Except ListenerError α × Duty τ ε α :=
  ((d.answer t).1.getD (.error .alreadyClosed), (d.answer t).2)

def handle (client : α) (d : Duty τ ε α) : Duty τ ε α :=
  let (ms, d) := d.call (.handed client)
  d.happenAll t ms

def service : Loop.Service (Duty τ ε α) α := ⟨Duty.running, accept t⟩

/-- The listener goes on duty. Some things happen before the loop begins. -/
def begin (s : τ) (early : List (Moment ε)) (agenda : List (List (Moment ε))) : Duty τ ε α :=
  (Duty.mk s true agenda []).happenAll t early

/-- Serves for at most `turns` turns. -/
def serve (turns : Nat) (d : Duty τ ε α) : Option Loop.Ending × Duty τ ε α :=
  Loop.serve (service t) (handle t) turns d

end Duty

/-! ## The listeners of the transports -/

namespace Unix

/-- Listener `l` of a run, as the accept loop uses it. -/
def listening (l : Nat) : Transport State Event (Nat × Connection) where
  step := State.step
  accept := .start (.accept l)
  close := .start (.close l)
  free s := !s.isLocked l
  depth s := s.tasks.length
  accepted s := match s.lastOutcome with
    | .opened i c => .ok (i, c)
    | .failed e => .error e
    | _ => .error .alreadyClosed
  closed s := match s.lastOutcome with
    | .done => .ok ()
    | .failed e => .error e
    | _ => .error .alreadyClosed

end Unix

namespace Pipe

/-- The listener of a run, as the accept loop uses it. -/
def listening : Transport State Event (Nat × Connection) where
  step := State.step
  accept := .start .accept
  close := .start .close
  free _ := true
  depth s := s.tasks.length
  accepted s := match s.lastOutcome with
    | .accepted i c => .ok (i, c)
    | .failed e => .error e
    | _ => .error .alreadyClosed
  closed s := match s.lastOutcome with
    | .done => .ok ()
    | .failed e => .error e
    | _ => .error .alreadyClosed

end Pipe

end LocalIpc

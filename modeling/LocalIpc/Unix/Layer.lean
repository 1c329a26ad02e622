import LocalIpc.Unix.State
/-!
# The socket layer of a host

Listeners whose native calls are answered by the host itself.
-/

namespace LocalIpc.Unix

/-- What the host replies to a call; a call may also go on waiting. -/
def nativeReply (host : Host) : Call → Option (Reply × Host)
  | .socket => some (.opened (.ok host.socket.1), host.socket.2)
  | .bind fd address =>
    let (r, host) := host.bind fd address.path false
    some (.done r, host)
  | .listen fd _ => some (.done (host.listen fd).1, (host.listen fd).2)
  | .accept fd _ => (host.accept fd).map fun p => (.opened p.1, p.2)
  | .shutdown fd => some (.done (host.shutdown fd).1, (host.shutdown fd).2)
  | .close fd => some (.done (host.close fd).1, (host.close fd).2)

namespace State

/-- The native call that an operation under way waits in. -/
def callOf (s : State) : Frame → Option Call
  | .creating _ => some .socket
  | .working l t => s.listeners[l]?.bind fun x => t.call x.config
  | .releasing fd _ => some (.close fd)

/-- The call that the innermost of more than `depth` operations waits in. -/
def waiting? (s : State) (depth : Nat) : Option Call :=
  match s.tasks with
  | f :: rest => if rest.length = depth then s.callOf f else none
  | [] => none

/-- The host replies to the innermost operation above `depth` others, up to `n` times. -/
def settle (depth : Nat) : Nat → State → State
  | 0, s => s
  | n + 1, s =>
    match (s.waiting? depth).bind (nativeReply s.host) with
    | some (r, host) => settle depth n ({ s with host }.reply r)
    | none => s

/-- More calls than any operation makes. -/
def callBound : Nat := 4

/-- Carries an operation out on the host. -/
def carryOut (s : State) (op : Operation) : State :=
  settle s.tasks.length callBound (s.perform op)

end State

/-! ## Making listeners -/

/-- Makes a listener and binds it to a path. One that cannot be bound is dropped. -/
def bindNew (s : State) (config : UnixConfig) (path : Path) : Except ListenerError Nat × State :=
  let s := s.carryOut (.create config)
  match s.lastOutcome with
  | .created l =>
    let s := s.carryOut (.bind l path)
    match s.lastOutcome with
    | .failed e => (.error e, s.carryOut (.drop l))
    | _ => (.ok l, s)
  | .failed e => (.error e, s)
  | _ => (.error .alreadyClosed, s)

end LocalIpc.Unix

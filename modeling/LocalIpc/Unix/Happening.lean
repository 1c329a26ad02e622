import LocalIpc.Unix.Layer
/-!
# What happens at a host

Runs of socket listeners whose native calls are answered by the host itself, as seen by everybody
who uses the host: operations begin and go on, ends of streams are read and written, and other
processes change files.
-/

namespace LocalIpc.Unix

inductive Happening
  | start (op : Operation)
  /-- The host replies to the innermost operation, unless its call waits on. An operation that waits
  before a call to the file system goes on. -/
  | answer
  | read (fd : Fd) (n : Nat)
  | write (fd : Fd) (data : Bytes)
  /-- Other processes change files. -/
  | files (tree : Tree)

namespace State

/-- What the host replies to the innermost operation. -/
def answer? (s : State) : Option (Reply × Host) :=
  match s.tasks.head?.bind s.callOf with
  | some c => nativeReply s.host c
  | none => some (.files, s.host)

def happen (s : State) : Happening → State
  | .start op => s.step (.start op)
  | .answer =>
    match s.answer? with
    | some (r, host) => (s.step (.world host)).step (.reply r)
    | none => s
  | .read fd n => s.step (.world (s.host.read fd n).2)
  | .write fd data => s.step (.world (s.host.write fd data).2)
  | .files tree => s.step (.world { s.host with tree })

def live (s : State) (es : List Happening) : State := es.foldl happen s

end State

end LocalIpc.Unix

import LocalIpc.ListenerError
/-!
# The accept loop

A listener in service: clients are accepted one after another, for as long as a flag says so, and
each is handed on. Clearing the flag and closing the listener ends the loop, whatever the accept
under way comes to.
-/

namespace LocalIpc.Loop

/-- A listener in service, as a part of a state `σ`. It accepts clients of type `α`. -/
structure Service (σ α : Type) where
  /-- The flag is set. -/
  running : σ → Bool
  accept : σ → Except ListenerError α × σ

/-- How the loop ends. -/
inductive Ending
  /-- It stopped in good order, after so many clients. -/
  | stopped (accepted : Nat)
  | failed (e : ListenerError)
  deriving DecidableEq

variable {σ α : Type}

/-- Accepts clients and hands them on, in at most `turns` turns; `accepted` counts those before. An
accept that fails ends the loop in good order when the flag is cleared by then, or when the listener
is in no state to accept. -/
def serveFrom (s : Service σ α) (handle : α → σ → σ) : Nat → Nat → σ → Option Ending × σ
  | 0, _, w => (none, w)
  | turns + 1, accepted, w =>
    if s.running w then
      match s.accept w with
      | (.ok client, w) => serveFrom s handle turns (accepted + 1) (handle client w)
      | (.error e, w) =>
        if !s.running w || e.isMisuse then (some (.stopped accepted), w)
        else (some (.failed e), w)
    else (some (.stopped accepted), w)

/-- Serves for at most `turns` turns. Without an ending the loop would go on. -/
def serve (s : Service σ α) (handle : α → σ → σ) (turns : Nat) (w : σ) : Option Ending × σ :=
  serveFrom s handle turns 0 w

end LocalIpc.Loop

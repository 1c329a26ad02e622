import LocalIpc.Command.Shutdown
import LocalIpc.Handle
import LocalIpc.Session.Loop
/-!
# Scenarios of the accept loop

The loop over a listener that a script stands for, with a handler that keeps some connections and
clears the flag on some. What happens is kept in order.
-/

namespace LocalIpc.Loop

inductive Happening
  | accept
  | handler (h : Handle)
  | released (h : Handle)
  | close
  deriving DecidableEq

/-- What one accept gives, and whether the flag is cleared inside it. -/
structure Attempt where
  result : Except ListenerError Handle
  stops : Bool

structure Script where
  /-- The handles whose handler clears the flag. -/
  stopOn : List Handle
  /-- The handles whose connection the handler keeps. -/
  keep : List Handle

structure Scene where
  running : Bool
  attempts : List Attempt
  kept : List Handle
  log : List Happening

namespace Scene

def start (running : Bool) (attempts : List Attempt) : Scene := ⟨running, attempts, [], []⟩

def note (s : Scene) (h : Happening) : Scene := { s with log := s.log ++ [h] }

/-- The next attempt. A script that is used up stands for a closed listener. -/
def accept (s : Scene) : Except ListenerError Handle × Scene :=
  match s.attempts with
  | [] => (.error .alreadyClosed, s.note .accept)
  | a :: rest =>
    (a.result, { s with attempts := rest, running := s.running && !a.stops }.note .accept)

def service : Service Scene Handle := ⟨Scene.running, accept⟩

def handle (t : Script) (h : Handle) (s : Scene) : Scene :=
  let s := { s with running := s.running && !t.stopOn.contains h }.note (.handler h)
  if t.keep.contains h then { s with kept := s.kept ++ [h] } else s.note (.released h)

/-- Serves, then closes the listener with the given results, and lets go of what was kept. -/
def perform (t : Script) (closes : List (Except ListenerError Unit)) (s : Scene) :
    Option Ending × List (Option CommandFailure) × Scene :=
  let (ending, s) := serve service (handle t) (s.attempts.length + 1) s
  let s := closes.foldl (fun s _ => s.note .close) s
  let s := s.kept.foldl (fun s h => s.note (.released h)) s
  (ending, closes.map CommandFailure.ofClose?, s)

end Scene

end LocalIpc.Loop

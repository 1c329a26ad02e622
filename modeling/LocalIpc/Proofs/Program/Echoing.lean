import LocalIpc.Proofs.Program.Closing
import LocalIpc.Proofs.Program.Reporting
import LocalIpc.Proofs.Session.Copying
/-!
# Echoes

A client of the echo server hears what it has said. Nothing of it is lost, doubled or out of order
at any time, and when its worker reports a number of bytes, that many were read and all of them were
written back. However the copy went, the connection is given back once.
-/

namespace LocalIpc.Echoing

open Copier

variable {σ : Type}

/-- What a worker has done that served a client, and what it has left. -/
structure Served (c : Client) (w w' : Work (σ × List Site.Deed)) (calls : List Call)
    (result : Except IoError Nat) (released : Except IoError Unit) : Prop where
  ended : Steps (.going 0 []) calls (.ended result)
  /-- The connection gave what its client had in store. -/
  scripted : Scripted c.reads c.writes calls
  copied : copy c.reads c.writes = ⟨calls.filterMap Call.transfer?, result⟩
  /-- The connection is given back once, whatever the copy came to. -/
  log : w'.world.2 =
    w.world.2 ++ Site.interruptions c.interrupts ++ [.release c.handle released]
  /-- A number is returned only after the end of the stream, by a copy that went well and whose
  connection was closed. -/
  counts : ∀ n, outcome (copy c.reads c.writes) released = .ok n ↔
    result = .ok n ∧ Reporting.closeFailure? released = none
  /-- What went wrong in the copy is what is returned. -/
  fails : ∀ e, result = .error e → outcome (copy c.reads c.writes) released = .error e
  /-- A client whose worker returned a number has got back all that it sent. -/
  replies : ∀ n, outcome (copy c.reads c.writes) released = .ok n →
    w'.replies = w.replies ++ [bytesRead calls] ∧ n = (bytesRead calls).length ∧
      w'.log = w.log ++ [disconnected c.handle n]

theorem outcome_eq_ok_iff {copied : Copied} {released : Except IoError Unit} {n : Nat} :
    outcome copied released = .ok n ↔
      copied.result = .ok n ∧ Reporting.closeFailure? released = none := by
  unfold outcome ending Reporting.closeFailure?
  cases copied.result <;> cases Reporting.notClosed? (Connection.closeResult released) <;> simp

theorem ending_of_failed {copied : Copied} {e : IoError} (h : copied.result = .error e)
    (closed : Except ListenerError Unit) : ending copied closed = .error e := by
  unfold ending
  rw [h]

section Handled

variable {t : Site σ} {c : Client} {w : Work σ} {released : Except IoError Unit} {v : σ}

theorem handle_of_ok {n : Nat}
    (hv : t.release c.handle (t.interrupts c.interrupts w.world) = (released, v))
    (h : outcome (copy c.reads c.writes) released = .ok n) :
    handle t c w =
      { w with
        world := v
        sessions := w.sessions + 1
        replies := w.replies ++ [Transfer.bytesWritten (copy c.reads c.writes).transfers]
        log := w.log ++ [disconnected c.handle n] } := by
  obtain ⟨hcopied, -⟩ := outcome_eq_ok_iff.mp h
  unfold outcome at h
  unfold handle
  have hok : (copy c.reads c.writes).result.isOk = true := by rw [hcopied]; rfl
  simp only [hok, Bool.not_true, Work.leave_of_ok hv, h]
  rfl

/-- What a worker that fails logs. A copy that has failed leaves its connection to be dropped, and
that may fail as well. -/
def complaints (c : Client) (released : Except IoError Unit) (e : IoError) : List LogRecord :=
  (if (copy c.reads c.writes).result.isOk then []
    else ((Connection.Held.lost? released).map (Work.dropFailed (worker c.handle) c.handle)).toList)
  ++ [failed c.handle e]

theorem handle_of_failed {e : IoError}
    (hv : t.release c.handle (t.interrupts c.interrupts w.world) = (released, v))
    (h : outcome (copy c.reads c.writes) released = .error e) :
    handle t c w =
      { w with
        world := v
        sessions := w.sessions + 1
        log := w.log ++ complaints c released e } := by
  unfold handle complaints
  cases hcopied : (copy c.reads c.writes).result with
  | ok n =>
    have hok : (copy c.reads c.writes).result.isOk = true := by rw [hcopied]; rfl
    unfold outcome at h
    simp only [hok, Bool.not_true, Work.leave_of_ok hv, h]
    rfl
  | error e' =>
    have hok : (copy c.reads c.writes).result.isOk = false := by rw [hcopied]; rfl
    obtain rfl : e' = e := by
      rw [outcome, ending_of_failed hcopied] at h
      exact Except.error.inj h
    simp only [hok, Bool.not_false, Work.leave_of_failed hv, ending_of_failed hcopied, Work.note,
      List.append_assoc]
    rfl

end Handled

/-- A visit to a watched site: the interrupts that came, and then the release. -/
theorem release_watch (t : Site σ) (c : Client) (w : σ × List Site.Deed) :
    t.watch.release c.handle (t.watch.interrupts c.interrupts w) =
      let visit := t.release c.handle (t.interrupts c.interrupts w.1)
      (visit.1, visit.2,
        w.2 ++ Site.interruptions c.interrupts ++ [.release c.handle visit.1]) := by
  rw [Site.interrupts_watch]
  rfl

/-- The log changes nothing. -/
theorem unwatched_handle (t : Site σ) (c : Client) (w : Work (σ × List Site.Deed)) :
    (handle t.watch c w).unwatched = handle t c w.unwatched := by
  have hwatch := release_watch t c w.world
  rcases hv : t.release c.handle (t.interrupts c.interrupts w.world.1) with ⟨released, v⟩
  rw [hv] at hwatch
  cases hreturned : outcome (copy c.reads c.writes) released with
  | ok n =>
    rw [handle_of_ok hwatch hreturned, handle_of_ok (w := w.unwatched) hv hreturned]
    rfl
  | error e =>
    rw [handle_of_failed hwatch hreturned, handle_of_failed (w := w.unwatched) hv hreturned]
    rfl

theorem exists_served (t : Site σ) (c : Client) (w : Work (σ × List Site.Deed)) :
    ∃ calls result released, Served c w (handle t.watch c w) calls result released := by
  obtain ⟨ts, result, hcopy⟩ : ∃ ts result, copy c.reads c.writes = ⟨ts, result⟩ := ⟨_, _, rfl⟩
  obtain ⟨calls, hended, hscripted, rfl⟩ := copy_eq_iff.mp hcopy
  refine ⟨calls, result, (t.release c.handle (t.interrupts c.interrupts w.world.1)).1, ?_⟩
  have hresult : (copy c.reads c.writes).result = result := congrArg Copied.result hcopy
  constructor
  case ended => exact hended
  case scripted => exact hscripted
  case copied => exact hcopy
  case log =>
    rw [world_handle, release_watch]
  case counts => exact fun n => hresult ▸ outcome_eq_ok_iff
  case fails => exact fun e he => ending_of_failed (hresult.trans he) _
  case replies =>
    intro n hn
    obtain ⟨hok, -⟩ := outcome_eq_ok_iff.mp hn
    have hends : Ends calls result := (follows_start.steps hended).fits.1
    obtain ⟨hall, hcount⟩ := (hresult.symm.trans hok ▸ hends).of_ok
    rw [handle_of_ok (release_watch t c w.world) hn]
    refine ⟨?_, hcount, rfl⟩
    rw [hcopy]
    exact congrArg (w.replies ++ [·]) hall

/-- At every time a copier has written back a start of what it has read, and when it reads again all
of it. Once it ends well, its client has hung up and has got back all that it sent; after a read
that failed all that came before has been written. A worker hands on how its copier ended, and gives
the connection back once. -/
theorem echo_faithful (t : Site σ) (c : Client) (w : Work (σ × List Site.Deed)) :
    (∀ calls k, Steps (.going 0 []) calls k → Faithful calls k) ∧
    (handle t.watch c w).unwatched = handle t c w.unwatched ∧
    ∃ calls result released, Served c w (handle t.watch c w) calls result released :=
  ⟨fun _ _ h => h.faithful, unwatched_handle t c w, exists_served t c w⟩

/-- Three bytes in two pieces. The first write takes one byte, the second is interrupted, and so is
the read between the pieces. -/
theorem three_bytes_come_back :
    let c : Client :=
      ⟨⟨5⟩, [.ok [1, 2], .error .interrupted, .ok [3]], [.ok 1, .error .interrupted], 1, 0, 0⟩
    let calls : List Call := [.read (.ok [1, 2]), .write [1, 2] (.ok 1),
      .write [2] (.error .interrupted), .write [2] (.ok 1), .read (.error .interrupted)]
    let w : Work (Queue × List Site.Deed) := .start (⟨true, false, []⟩, [])
    Steps (.going 0 []) calls (.going 2 []) ∧ bytesWritten (calls.take 2) = [1] ∧
      bytesWritten calls = bytesRead calls ∧ (handle Queue.site.watch c w).replies = [[1, 2, 3]] ∧
      (handle Queue.site.watch c w).world.2.filterMap Site.Deed.released? = [⟨5⟩] := by
  intro c calls w
  have hsteps : Steps (.going 0 []) calls (.going 2 []) :=
    .cons (.piece (by decide)) <| .cons (.wrote (by decide) (by decide)) <|
      .cons (.writeAgain (by decide) rfl) <| .cons (.wrote (by decide) (by decide)) <|
        .cons (.readAgain rfl) (.nil _)
  obtain ⟨hfaithful, -, calls', result, released, hserved⟩ := echo_faithful Queue.site c w
  have hread : InTurn (calls.take 4) (.read (.error .interrupted)) :=
    (hfaithful calls _ hsteps).inTurn 4 (by decide)
  refine ⟨hsteps, rfl, ?_, ?_, ?_⟩
  · exact hread
  · rfl
  · rw [hserved.log]
    rfl

end LocalIpc.Echoing

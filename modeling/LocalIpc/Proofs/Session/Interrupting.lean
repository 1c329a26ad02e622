import LocalIpc.Proofs.Pipe.Ending
import LocalIpc.Proofs.Session.Duty
import LocalIpc.Proofs.Unix.Ending
/-!
# An interrupt stops service

Whatever happens during a loop that is interrupted, it stops in good order, its listener is closed,
and the listener's own resource is closed once. The close of the command that follows finds that
done, and fails nobody.
-/

namespace LocalIpc

/-! ## The loop -/

/-- The loop, interrupted within its first turns, stops in good order. It calls for no accept after
the interrupt, and counts every client that it has handed on. -/
structure Duty.StopsCleanly {τ ε α : Type} (t : Transport τ ε α) (s : τ) (d : Duty τ ε α)
    (turns : Nat) : Prop where
  stopped : d.serve t (turns + 1) =
    (some (.stopped (d.serve t turns).2.clients.length), (d.serve t turns).2)
  timely : AtEveryPoint Mark.Timely (d.serve t turns).2.log
  told : (d.serve t turns).2.state = (d.serve t turns).2.events.foldl t.step s

section Stopped

variable {τ ε α : Type} {t : Transport τ ε α} {s : τ} {early : List (Moment ε)}
  {agenda : List (List (Moment ε))} {turns : Nat} {d : Duty τ ε α} {e : ε}

/-- A loop in which an interrupt came stops cleanly, and the close of the interrupt was called. -/
theorem Duty.interrupted (hi : .interrupt ∈ ((begin t s early agenda).serve t turns).2.log) :
    (begin t s early agenda).StopsCleanly t s turns ∧
      t.close ∈ ((begin t s early agenda).serve t turns).2.events := by
  obtain ⟨hsound, hnew⟩ := sound_begin t s early agenda
  obtain ⟨hsound', hstopped⟩ := hsound.interrupted hnew hi
  exact ⟨⟨hstopped, hsound'.timely, hsound'.state⟩, hsound'.closed hi⟩

theorem Duty.mem_events : e ∈ d.events ↔ .event e ∈ d.log := by
  unfold events
  rw [List.mem_filterMap]
  constructor
  · rintro ⟨m, hm, he⟩
    cases m with
    | event e' => rwa [Option.some.inj he] at hm
    | _ => simp [Mark.event?] at he
  · intro hm
    exact ⟨_, hm, rfl⟩

end Stopped

/-! ## The listener -/

/-- The events have ended a listener with the resource `own`. The native close was called once for
it, or will be by the close that is under way. Another close has nothing to do, and fails no
command. `closes` are the calls of the native close, and `settled` says that no close is under
way. -/
structure Transport.EndedBy {τ ε α η : Type} (t : Transport τ ε α) (closes : List ε → List η)
    (settled : τ → Prop) (s : τ) (own : η) (es : List ε) : Prop where
  atMostOnce : closes es <+: [own]
  once : settled (es.foldl t.step s) → closes es = [own]
  refused : t.free (es.foldl t.step s) = true → t.shutdown (es.foldl t.step s) = none

namespace Unix

variable {s : State} {l : Nat} {x : Listener} {es : List Event}

theorem State.lastOutcome_finish (s : State) (o : Outcome) : (s.finish o).lastOutcome = o := by
  simp [lastOutcome, finish, note]

/-- A close of a listener that is closed fails no command. -/
theorem State.shutdown_closed (hx : s.listener? l = some x) (hc : x.phase = .closed)
    (hl : s.isLocked l = false) : (listening l).shutdown s = none := by
  have hstep : (listening l).step s (listening l).close =
      (s.note (.began (.close l))).finish (.failed .alreadyClosed) := by
    have hop : lockOf (.close l) = some l := rfl
    have hrefused := s.step_closed hop hx hc
    rwa [hl, if_neg (by simp)] at hrefused
  have hclosed : (listening l).closed
      ((s.note (.began (.close l))).finish (.failed .alreadyClosed)) = .error .alreadyClosed := by
    unfold listening
    simp only [lastOutcome_finish]
  unfold Transport.shutdown
  rw [hstep, hclosed]
  rfl

/-- A close ends a bound listener. -/
theorem Ending.endedBy (h : Ending s) (hx : s.listener? l = some x) (hb : x.phase = .bound)
    (hc : .start (.close l) ∈ es) (hd : .start (.drop l) ∉ es) {fd : Fd}
    (hfd : x.slot.get = some fd) :
    (listening l).EndedBy (s.nativeCloses l) (fun s => s.isLocked l = false) s fd es := by
  obtain ⟨-, hget⟩ := State.listener?_eq_some hx
  obtain ⟨y, hy, hclosed⟩ := h.closed_of_close_mem hx (by simp [hb]) hc hd
  have hpaid : s.nativeCloses l es ++ (s.run es).tasks.filterMap (Frame.shuts? l) = [fd] := by
    obtain ⟨k, hk, hdue⟩ := h.due_of_bound hget hb
    obtain rfl := Option.some.inj (hfd.symm.trans hk)
    have hpays := s.pays_run (List.getElem?_eq_some_iff.mp hget).1 es
    rw [hdue, (h.run es).due_of_closed (State.listener?_eq_some hy).2 hclosed] at hpays
    exact (List.singleton_perm.mp hpays).symm
  have hrun : es.foldl (listening l).step s = s.run es := rfl
  refine ⟨⟨_, hpaid⟩, ?_, ?_⟩ <;> rw [hrun]
  · intro hl
    rwa [State.shuts?_of_unlocked hl, List.append_nil] at hpaid
  · intro hfree
    apply State.shutdown_closed hy hclosed
    simpa [listening] using hfree

end Unix

namespace Pipe

variable {s : State} {l : Listener} {es : List Event}

/-- A close of a listener that is closed fails no command. -/
theorem State.shutdown_closed (hc : s.IsClosed) (hd : s.dropped = false) :
    listening.shutdown s = none := by
  have hstep : listening.step s listening.close =
      (s.note (.began .close)).note (.finished (.failed .alreadyClosed)) := by
    have hop : Operation.close.refusal? = some .alreadyClosed := rfl
    exact (State.start_refused hc hd hop).1
  have hclosed : listening.closed
      ((s.note (.began .close)).note (.finished (.failed .alreadyClosed))) =
        .error .alreadyClosed := by
    simp [listening, lastOutcome, note]
  unfold Transport.shutdown
  rw [hstep, hclosed]
  rfl

/-- A close ends an open listener. -/
theorem Orderly.endedBy (h : Orderly s) (hl : s.listener = some l) (ho : l.closed = false)
    (hdrop : s.dropped = false) (hc : .start .close ∈ es) (hd : .start .drop ∉ es) :
    listening.EndedBy s.lockCloses (fun s => ∀ t ∈ s.tasks, t.isClose = false) s l.lock es := by
  have hclosed := h.isClosed_of_close_mem hl hdrop hc hd
  obtain ⟨m, hm, hpays⟩ := h.pays_run hl es
  obtain ⟨k, hk, hkc⟩ := hclosed
  obtain rfl := Option.some.inj (hk.symm.trans hm)
  rw [h.due_of_open hl ho, List.singleton_perm, eq_comm] at hpays
  have hrun : es.foldl listening.step s = s.run es := rfl
  refine ⟨⟨_, hpays⟩, ?_, ?_⟩ <;> rw [hrun]
  · intro hover
    rwa [Listener.due_of_over hkc hover, List.append_nil] at hpays
  · intro _
    apply State.shutdown_closed ⟨k, hk, hkc⟩
    exact (State.dropped_run h hd).trans hdrop

end Pipe

/-! ## Interrupts -/

/-- An interrupt always stops the server cleanly. A loop over a bound socket listener, or over an
open pipe listener, that is interrupted at any point stops in good order, with the number of the
clients that were handed on, and calls for no accept after the interrupt. The close that follows
fails no command, and the listener's own descriptor or lock is closed once in all, whatever the
native calls reply. -/
theorem interrupts_stop_cleanly :
    (∀ (host : Host) (before : List Unix.Event) (l : Nat) (x : Unix.Listener),
      let s := (Unix.State.start host).run before
      s.listener? l = some x → x.phase = .bound →
      ∀ (early : List (Moment Unix.Event)) (agenda : List (List (Moment Unix.Event))) (turns : Nat),
      let d := Duty.begin (Unix.listening l) s early agenda
      let served := (d.serve (Unix.listening l) turns).2
      .interrupt ∈ served.log → .event (.start (.drop l)) ∉ served.log →
      d.StopsCleanly (Unix.listening l) s turns ∧
        ∃ fd, x.slot.get = some fd ∧ ∀ more : List Unix.Event, .start (.drop l) ∉ more →
          (Unix.listening l).EndedBy (s.nativeCloses l) (fun s => s.isLocked l = false) s fd
            (served.events ++ more)) ∧
    (∀ (name : String) (config : PipeConfig) (before : List Pipe.Event) (l : Pipe.Listener),
      let s := (Pipe.State.construct name config).run before
      s.listener = some l → l.closed = false → s.dropped = false →
      ∀ (early : List (Moment Pipe.Event)) (agenda : List (List (Moment Pipe.Event))) (turns : Nat),
      let d := Duty.begin Pipe.listening s early agenda
      let served := (d.serve Pipe.listening turns).2
      .interrupt ∈ served.log → .event (.start .drop) ∉ served.log →
      d.StopsCleanly Pipe.listening s turns ∧ ∀ more : List Pipe.Event, .start .drop ∉ more →
        Pipe.listening.EndedBy s.lockCloses (fun s => ∀ t ∈ s.tasks, t.isClose = false) s l.lock
          (served.events ++ more)) := by
  constructor
  · intro host before l x s hx hb early agenda turns d served hi hd
    have hending : Unix.Ending s := Unix.ending_run host before
    obtain ⟨hstops, hclose⟩ := Duty.interrupted hi
    obtain ⟨-, hget⟩ := Unix.State.listener?_eq_some hx
    obtain ⟨fd, hfd, -⟩ := hending.due_of_bound hget hb
    refine ⟨hstops, fd, hfd, fun more hmore => ?_⟩
    apply hending.endedBy hx hb (List.mem_append_left _ hclose) _ hfd
    rw [List.mem_append, not_or]
    exact ⟨fun hmem => hd (Duty.mem_events.mp hmem), hmore⟩
  · intro name config before l s hl ho hdrop early agenda turns d served hi hd
    have horderly : Pipe.Orderly s := (Pipe.orderly_construct name config).run before
    obtain ⟨hstops, hclose⟩ := Duty.interrupted hi
    refine ⟨hstops, fun more hmore => ?_⟩
    apply horderly.endedBy hl ho hdrop (List.mem_append_left _ hclose)
    rw [List.mem_append, not_or]
    exact ⟨fun hmem => hd (Duty.mem_events.mp hmem), hmore⟩

/-- A socket listener is made and bound. -/
def Unix.binding : List Unix.Event :=
  [.start (.create ⟨1, none, false⟩), .reply (.opened (.ok 5)), .start (.bind 0 [97]),
    .reply (.done (.ok ())), .reply (.done (.ok ()))]

/-- A client comes, and the next accept fails when it is interrupted. -/
def Unix.interruptedAccept : List (List (Moment Unix.Event)) :=
  [[.event (.reply (.opened (.ok 6)))], [],
    [.interrupt, .event (.reply (.done (.ok ()))), .event (.reply (.done (.error .badDescriptor))),
      .event (.reply (.opened (.error .badDescriptor)))]]

/-- A pipe listener is made. -/
def Pipe.making : List Pipe.Event := [.reply (.created (.ok ⟨1⟩)), .reply (.done (.ok ()))]

/-- An accept is interrupted, and its client is found to be gone again. -/
def Pipe.interruptedAccept : List (List (Moment Pipe.Event)) :=
  [[.event (.reply (.created (.ok ⟨2⟩))), .interrupt, .event (.reply (.done (.ok ()))),
    .event (.reply (.done (.ok ()))), .event (.reply (.done (.error .badDescriptor))),
    .event (.reply (.connect .noData))]]

/-- Both loops are interrupted inside an accept. The accept of the one fails then; that of the other
hands out a client all the same, which is handed on. Both native closes report an error. -/
theorem interrupted_accept_stops_cleanly :
    (((Duty.begin (Unix.listening 0) ((Unix.State.start .fresh).run Unix.binding) []
        Unix.interruptedAccept).serve (Unix.listening 0) 3).1 = some (.stopped 1) ∧
      ((Unix.State.start .fresh).run Unix.binding).nativeCloses 0
        ((Duty.begin (Unix.listening 0) ((Unix.State.start .fresh).run Unix.binding) []
          Unix.interruptedAccept).serve (Unix.listening 0) 2).2.events = [5]) ∧
    ((Duty.begin Pipe.listening ((Pipe.State.construct "p" .default).run Pipe.making) []
        Pipe.interruptedAccept).serve Pipe.listening 2).1 = some (.stopped 1) ∧
      ((Pipe.State.construct "p" .default).run Pipe.making).lockCloses
        ((Duty.begin Pipe.listening ((Pipe.State.construct "p" .default).run Pipe.making) []
          Pipe.interruptedAccept).serve Pipe.listening 1).2.events = [⟨1⟩] := by
  have hlog : ((Duty.begin (Unix.listening 0) ((Unix.State.start .fresh).run Unix.binding) []
      Unix.interruptedAccept).serve (Unix.listening 0) 2).2.log =
      [.accept, .event (.start (.accept 0)), .event (.reply (.opened (.ok 6))),
        .handed (0, Connection.ofFd 6), .accept, .event (.start (.accept 0)), .interrupt,
        .event (.start (.close 0)), .event (.reply (.done (.ok ()))),
        .event (.reply (.done (.error .badDescriptor))),
        .event (.reply (.opened (.error .badDescriptor)))] := rfl
  have hlog' : ((Duty.begin Pipe.listening ((Pipe.State.construct "p" .default).run Pipe.making)
      [] Pipe.interruptedAccept).serve Pipe.listening 1).2.log =
      [.accept, .event (.start .accept), .event (.reply (.created (.ok ⟨2⟩))), .interrupt,
        .event (.start .close), .event (.reply (.done (.ok ()))), .event (.reply (.done (.ok ()))),
        .event (.reply (.done (.error .badDescriptor))), .event (.reply (.connect .noData)),
        .handed (0, ⟨⟨2⟩, .pipe, false⟩)] := rfl
  obtain ⟨hstops, fd, hfd, hended⟩ := interrupts_stop_cleanly.1 .fresh Unix.binding 0
    ⟨⟨1, none, false⟩, ⟨5⟩, .bound, some [97], none⟩ rfl rfl [] Unix.interruptedAccept 2
    (by rw [hlog]; simp) (by rw [hlog]; simp)
  obtain ⟨hstops', hended'⟩ := interrupts_stop_cleanly.2 "p" .default Pipe.making _ rfl rfl rfl []
    Pipe.interruptedAccept 1 (by rw [hlog']; simp) (by rw [hlog']; simp)
  obtain rfl : (5 : Fd) = fd := Option.some.inj hfd
  have honce := (hended [] (by simp)).once
  have honce' := (hended' [] (by simp)).once
  rw [List.append_nil] at honce honce'
  refine ⟨⟨?_, honce ?_⟩, ?_, honce' ?_⟩
  · rw [hstops.stopped, Duty.clients, hlog]
    rfl
  · rw [Duty.events, hlog]
    rfl
  · rw [hstops'.stopped, Duty.clients, hlog']
    rfl
  · rw [Duty.events, hlog']
    unfold Pipe.State.construct
    generalize PipeName.normalize "p" = path
    exact List.forall_mem_nil _

end LocalIpc

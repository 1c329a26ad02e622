import LocalIpc.Program.Console
import LocalIpc.Proofs.Session.Receiving
import LocalIpc.Proofs.Session.Serving
/-!
# Reports on clients

Where clients stand in a line, a report goes down the line. Each client is heard out and its handle
is given back once, and a session that goes well has its event, numbered in the order of the line.
The first session that fails has none: nobody is accepted after it, and the command fails with what
went wrong there, once the listener is closed.
-/

namespace LocalIpc

variable {σ : Type}

/-! ## What is done at a site -/

/-- What a command does at a site, with what it is given there. -/
inductive Site.Deed
  | accept (given : Except ListenerError Client)
  | release (h : Handle) (given : Except IoError Unit)
  | stop
  | close

/-- The handle that is given back. -/
def Site.Deed.released? : Site.Deed → Option Handle
  | .release h _ => some h
  | .accept _ | .stop | .close => none

/-- The site with a log of what is done there. -/
def Site.watch (t : Site σ) : Site (σ × List Site.Deed) where
  bind path w := ((t.bind path w.1).1, (t.bind path w.1).2, w.2)
  running w := t.running w.1
  stop w := (t.stop w.1, w.2 ++ [.stop])
  accept w := ((t.accept w.1).1, (t.accept w.1).2, w.2 ++ [.accept (t.accept w.1).1])
  release h w :=
    ((t.release h w.1).1, (t.release h w.1).2, w.2 ++ [.release h (t.release h w.1).1])
  close w := ((t.close w.1).1, (t.close w.1).2, w.2 ++ [.close])

/-- The log that interrupts leave. -/
def Site.interruptions (n : Nat) : List Site.Deed := (List.replicate n [.stop, .close]).flatten

theorem Site.interrupts_watch (t : Site σ) (n : Nat) (w : σ × List Site.Deed) :
    t.watch.interrupts n w = (t.interrupts n w.1, w.2 ++ interruptions n) := by
  induction n generalizing w with
  | zero => exact Prod.ext rfl (List.append_nil _).symm
  | succ n ih =>
    unfold interrupts
    rw [ih]
    unfold interruptions
    rw [List.replicate_succ, List.flatten_cons, ← List.append_assoc]
    refine Prod.ext rfl ?_
    simp [interrupt, watch]

/-- A command at work at a watched site, without the log. -/
def Work.unwatched (w : Work (σ × List Site.Deed)) : Work σ :=
  ⟨w.world.1, w.sessions, w.events, w.output, w.log, w.replies, w.failure⟩

namespace Reporting

/-! ## One session -/

/-- A client that was served, with what its reads delivered and what came of giving its handle
back. -/
structure Session where
  client : Client
  data : Bytes
  broken : Option IoError
  delivers : Delivers client.reads data broken
  released : Except IoError Unit

/-- What went wrong: a read, or else the release. -/
def Session.failure? (s : Session) : Option IoError := s.broken <|> closeFailure? s.released

/-- What is logged when the connection of a client that could not be read is dropped. -/
def Session.lost (s : Session) : List LogRecord :=
  if s.broken.isSome then
    ((Connection.Held.lost? s.released).map (Work.dropFailed "main" s.client.handle)).toList
  else []

/-- Whatever a release gives, a client makes a session with it. -/
theorem exists_session (c : Client) (released : Except IoError Unit) :
    ∃ s : Session, s.client = c ∧ s.released = released :=
  let ⟨data, broken, h⟩ := exists_delivers c.reads
  ⟨⟨c, data, broken, h, released⟩, rfl, rfl⟩

variable (o : Reporting)

/-- The bytes of a session that go to standard output as they are. -/
def copied (s : Session) : Bytes := if o.format = .raw then s.data else []

/-- The event of a session, by its number. -/
def eventOf (k : Nat) (s : Session) : Event := o.event k s.client (.of s.data)

/-- What a session that goes well puts out. -/
def shown (k : Nat) (s : Session) : Bytes :=
  o.copied s ++ Text.encode ((o.eventOf k s).printed o.format)

/-- The loop stops after this session. -/
def stopsAfter (k : Nat) (s : Session) : Bool := s.failure?.isSome || o.isLast k

variable {o} {t : Site σ} {s : Session} {w : Work σ} {v : σ}

theorem handle_of_clean (hs : s.failure? = none)
    (hv : t.release s.client.handle (t.interrupts s.client.interrupts w.world) = (s.released, v)) :
    handle t o s.client w =
      { w with
        world := if o.stopsAfter (w.sessions + 1) s then t.stop v else v
        sessions := w.sessions + 1
        events := w.events ++ [o.eventOf (w.sessions + 1) s]
        output := w.output ++ o.shown (w.sessions + 1) s } := by
  obtain ⟨hbroken, hclosed⟩ : s.broken = none ∧ closeFailure? s.released = none := by
    simpa [Session.failure?] using hs
  unfold closeFailure? at hclosed
  unfold handle
  rw [receive_of_delivers s.delivers]
  simp only [hbroken, Option.isSome_none, Work.leave_of_ok hv, hclosed, stopsAfter, hs,
    Bool.false_or]
  unfold shown copied eventOf Work.write
  by_cases hraw : o.format = .raw <;> by_cases hlast : o.isLast (w.sessions + 1) = true <;>
    simp [hraw, hlast]

theorem handle_of_failed {e : IoError} (hs : s.failure? = some e)
    (hv : t.release s.client.handle (t.interrupts s.client.interrupts w.world) = (s.released, v)) :
    handle t o s.client w =
      { w with
        world := if o.stopsAfter (w.sessions + 1) s then t.stop v else v
        sessions := w.sessions + 1
        output := w.output ++ o.copied s
        log := w.log ++ s.lost
        failure := some (.ofReceive e) } := by
  have hstops : o.stopsAfter (w.sessions + 1) s = true := by simp [stopsAfter, hs]
  unfold handle
  rw [receive_of_delivers s.delivers]
  cases hbroken : s.broken with
  | none =>
    -- the client was read to its end, but its connection could not be closed
    have hclosed : notClosed? (Connection.closeResult s.released) = some e := by
      simpa [Session.failure?, hbroken, closeFailure?] using hs
    simp only [Option.isSome_none, Work.leave_of_ok hv, hclosed, hstops]
    unfold copied Work.write Session.lost
    by_cases hraw : o.format = .raw <;> simp [hraw, hbroken]
  | some e' =>
    obtain rfl : e' = e := by simpa [Session.failure?, hbroken] using hs
    simp only [Option.isSome_some, Work.leave_of_failed hv, hstops]
    unfold copied Work.write Session.lost
    by_cases hraw : o.format = .raw <;> simp [hraw, hbroken]

/-- The event of a client that was heard out has the preview of all that the client sent, when the
bytes a preview shows are text or when all bytes are kept. Else it gives the size of the bytes that
are kept for the size of all. -/
theorem event_preview_eq_iff (t : Site σ) (o : Reporting) (c : Client) (w : Work σ) {data : Bytes}
    (hreads : Delivers c.reads data none)
    (hreleased :
      closeFailure? (t.release c.handle (t.interrupts c.interrupts w.world)).1 = none) :
    ∃ e, (handle t o c w).events = w.events ++ [e] ∧
      (e.preview = Preview.ofPayload data ↔
        data.length ≤ Received.headLimit ∨ ∃ s, data.take Preview.limit = Text.encode s) ∧
      (e.preview ≠ Preview.ofPayload data → e.preview = Preview.binary Received.headLimit ∧
        Preview.ofPayload data = Preview.binary data.length) := by
  let s : Session :=
    ⟨c, data, none, hreads, (t.release c.handle (t.interrupts c.interrupts w.world)).1⟩
  have hs : s.failure? = none := hreleased
  refine ⟨o.eventOf (w.sessions + 1) s, ?_, Preview.preview_of_eq_iff data, fun hne => ?_⟩
  · rw [show handle t o c w = _ from handle_of_clean hs rfl]
  · obtain ⟨hlong, hno⟩ := not_or.mp (mt (Preview.preview_of_eq_iff data).mpr hne)
    have hkept := Preview.preview_of_no_text (not_exists.mp hno)
    rw [Nat.min_eq_left (by omega)] at hkept
    exact ⟨hkept, Preview.ofPayload_of_no_text (not_exists.mp hno)⟩

/-- A hundred bytes that are no text. -/
theorem preview_of_hundred_bytes :
    let data : Bytes := List.replicate 100 0xFF
    let w : Work Console := .start (.start data)
    let o : Reporting := ⟨[0x73], Unix.transport, .json, none⟩
    ∃ e, (o.handle Console.site ⟨⟨0⟩, [.ok data], [], 0, 0, 0⟩ w).events = [e] ∧
      e.preview = "<binary 65 bytes>" ∧ Preview.ofPayload data = "<binary 100 bytes>" := by
  intro data w o
  have hdelivers : Delivers [.ok data] data none := .piece (by decide) .hungUp
  obtain ⟨e, hevents, hiff, hbinary⟩ := event_preview_eq_iff Console.site o
    ⟨⟨0⟩, [.ok data], [], 0, 0, 0⟩ w hdelivers rfl
  have hno : ¬ ∃ s, data.take Preview.limit = Text.encode s := by
    rintro ⟨s, hs⟩
    have hdecode : Text.decode? (data.take Preview.limit) = none := by decide
    rw [Text.decode?_eq_some_iff.mpr hs] at hdecode
    contradiction
  have hlong : ¬ data.length ≤ Received.headLimit := by decide
  obtain ⟨hkept, hwhole⟩ := hbinary (mt hiff.mp (not_or.mpr ⟨hlong, hno⟩))
  exact ⟨e, hevents, hkept.trans (by decide), hwhole.trans (by decide)⟩

/-- What a session does to the site does not depend on how it went, but for the flag at its end. -/
theorem world_handle_eq
    (hv : t.release s.client.handle (t.interrupts s.client.interrupts w.world) = (s.released, v)) :
    (handle t o s.client w).world = (if o.stopsAfter (w.sessions + 1) s then t.stop v else v) ∧
      (handle t o s.client w).sessions = w.sessions + 1 := by
  cases hs : s.failure? with
  | none => simp [handle_of_clean hs hv]
  | some e => simp [handle_of_failed hs hv]

theorem unwatched_handle (t : Site σ) (o : Reporting) (c : Client)
    (w : Work (σ × List Site.Deed)) :
    (handle t.watch o c w).unwatched = handle t o c w.unwatched := by
  obtain ⟨s, rfl, hs⟩ := exists_session c
    (t.release c.handle (t.interrupts c.interrupts w.world.1)).1
  have hv : t.release s.client.handle (t.interrupts s.client.interrupts w.unwatched.world) =
      (s.released, _) := Prod.ext hs.symm rfl
  have hwatch : t.watch.release s.client.handle
      (t.watch.interrupts s.client.interrupts w.world) = (s.released, _) := Prod.ext (by
        rw [Site.interrupts_watch, hs]; rfl) rfl
  cases hfailure : s.failure? with
  | none =>
    rw [handle_of_clean hfailure hv, handle_of_clean hfailure hwatch, Site.interrupts_watch]
    unfold Work.unwatched
    split <;> rfl
  | some e =>
    rw [handle_of_failed hfailure hv, handle_of_failed hfailure hwatch, Site.interrupts_watch]
    unfold Work.unwatched
    split <;> rfl

/-! ## The end of a report -/

section End

variable {turns n : Nat} {u : Work σ}

/-- A loop that ended in good order is followed by the close. A close that fails is told first. -/
theorem run_of_stopped
    (h : Loop.serve (Work.service t) (handle t o) turns w = (some (.stopped n), u)) :
    o.run t turns w = (some ((CommandFailure.ofClose? (t.close u.world).1).elim
      (u.failure.elim (.ok ()) .error) .error), { u with world := (t.close u.world).2 }) := by
  unfold run Work.serve
  rw [h]
  simp only [List.foldl_nil]
  cases CommandFailure.ofClose? (t.close u.world).1 <;> rfl

theorem run_of_failed {e : ListenerError}
    (h : Loop.serve (Work.service t) (handle t o) turns w = (some (.failed e), u)) :
    o.run t turns w = (some (.error (.ofAccept e)), u.note (Work.acceptFailed e)) := by
  unfold run Work.serve
  rw [h]

theorem run_of_none (h : Loop.serve (Work.service t) (handle t o) turns w = (none, u)) :
    o.run t turns w = (none, u) := by
  unfold run Work.serve
  rw [h]

end End

/-- The log changes nothing. -/
theorem unwatched_run (t : Site σ) (o : Reporting) (turns : Nat)
    (w : Work (σ × List Site.Deed)) :
    Prod.map id Work.unwatched (o.run t.watch turns w) = o.run t turns w.unwatched := by
  have hserve : Prod.map id Work.unwatched
      (Loop.serve (Work.service t.watch) (handle t.watch o) turns w) =
      Loop.serve (Work.service t) (handle t o) turns w.unwatched :=
    Loop.serveFrom_map Work.unwatched (fun _ => rfl) (fun _ => rfl)
      (fun c u => unwatched_handle t o c u) turns 0 w
  rcases hloop : Loop.serve (Work.service t.watch) (handle t.watch o) turns w with ⟨_ | n | e, u⟩
  · rw [hloop] at hserve
    rw [run_of_none hloop, run_of_none hserve.symm]
    rfl
  · rw [hloop] at hserve
    rw [run_of_stopped hloop, run_of_stopped hserve.symm]
    rfl
  · rw [hloop] at hserve
    rw [run_of_failed hloop, run_of_failed hserve.symm]
    rfl

end Reporting

/-! ## Clients in a line -/

/-- A site where clients stand in a line. An accept takes the first of them, or it fails because the
listener is closed: by an interrupt, which has lowered the flag by then, or, when nobody is left, in
any way that is no failure of the command. Nobody but an accept moves the line. -/
structure Site.Offers (t : Site σ) (line : σ → List Client) : Prop where
  accept : ∀ w, t.running w = true →
    (∃ c, (t.accept w).1 = .ok c ∧ line w = c :: line (t.accept w).2) ∨
    ∃ e, (t.accept w).1 = .error e ∧
      (t.running (t.accept w).2 = false ∨ line w = [] ∧ e.isMisuse = true)
  stop : ∀ w, line (t.stop w) = line w
  close : ∀ w, line (t.close w).2 = line w
  release : ∀ h w, line (t.release h w).2 = line w
  lowers : ∀ w, t.running (t.stop w) = false
  closeKeeps : ∀ w, t.running w = false → t.running (t.close w).2 = false

theorem Site.Offers.interrupts {t : Site σ} {line : σ → List Client} (h : t.Offers line) (n : Nat)
    (w : σ) : line (t.interrupts n w) = line w := by
  induction n generalizing w with
  | zero => rfl
  | succ n ih => rw [Site.interrupts, ih, Site.interrupt, h.close, h.stop]

/-- Clients in a queue. When nobody is left, an interrupt comes. -/
structure Queue where
  running : Bool
  closed : Bool
  clients : List Client

namespace Queue

def accept (w : Queue) : Except ListenerError Client × Queue :=
  match w.clients with
  | [] => (.error .alreadyClosed, ⟨false, true, []⟩)
  | c :: rest => (.ok c, { w with clients := rest })

def site : Site Queue where
  bind _ w := (.ok (), w)
  running := running
  stop w := { w with running := false }
  accept := accept
  release _ w := (.ok (), w)
  close w := (if w.closed then .error .alreadyClosed else .ok (), { w with closed := true })

theorem offers : site.Offers clients where
  accept w _ := by
    rcases w with ⟨running, closed, _ | ⟨c, rest⟩⟩
    · exact .inr ⟨_, rfl, .inl rfl⟩
    · exact .inl ⟨c, rfl, rfl⟩
  stop _ := rfl
  close _ := rfl
  release _ _ := rfl
  lowers _ := rfl
  closeKeeps _ h := h

theorem closes (w : Queue) : CommandFailure.ofClose? (site.close w).1 = none := by
  rcases w with ⟨running, _ | _, clients⟩ <;> rfl

end Queue

namespace Reporting

/-- Sessions in the order in which they were served: the ones that went well, and then perhaps one
that failed. -/
structure Sessions where
  clean : List Session
  failed : Option Session
  allClean : ∀ s ∈ clean, s.failure? = none
  hasFailed : ∀ s ∈ failed, ∃ e, s.failure? = some e

namespace Sessions

def none : Sessions := ⟨[], .none, by simp, by simp⟩

def served (r : Sessions) : List Session := r.clean ++ r.failed.toList

def failure? (r : Sessions) : Option IoError := r.failed.bind Session.failure?

/-- The last session has not failed if it went well. -/
theorem failed_eq_none {r : Sessions} (h : ∀ s ∈ r.failed, s.failure? = .none) :
    r.failed = .none := by
  refine Option.eq_none_iff_forall_not_mem.mpr fun s hs => ?_
  obtain ⟨e, he⟩ := r.hasFailed s hs
  exact absurd (he.symm.trans (h s hs)) (by simp)

/-- One session more, after sessions that went well. -/
theorem exists_add {r : Sessions} (hr : r.failed = .none) (s : Session) :
    ∃ r' : Sessions, r'.served = r.served ++ [s] ∧
      (s.failure? = .none ∧ r'.clean = r.clean ++ [s] ∧ r'.failed = .none ∨
        s.failure?.isSome ∧ r'.clean = r.clean ∧ r'.failed = some s) := by
  unfold served
  rw [hr, Option.toList_none, List.append_nil]
  cases hs : s.failure? with
  | none =>
    refine ⟨⟨r.clean ++ [s], .none, ?_, by simp⟩, by simp, .inl ⟨rfl, rfl, rfl⟩⟩
    intro x hx
    rcases List.mem_append.mp hx with hx | hx
    · exact r.allClean x hx
    · rw [List.mem_singleton.mp hx, hs]
  | some e =>
    refine ⟨⟨r.clean, some s, r.allClean, ?_⟩, by simp, .inr ⟨rfl, rfl, rfl⟩⟩
    intro x hx
    cases hx
    exact ⟨e, hs⟩

end Sessions

variable (o : Reporting)

/-- The events of sessions, numbered from one. A session that failed has none. -/
def Sessions.events (r : Sessions) : List Event := r.clean.mapIdx fun k s => o.eventOf (k + 1) s

/-- What sessions put out. Of one that failed there are only the bytes that were copied before. -/
def Sessions.output (r : Sessions) : Bytes :=
  (r.clean.mapIdx fun k s => o.shown (k + 1) s).flatten ++ r.failed.elim [] o.copied

/-- What is done for a session: the client is accepted, interrupts come, its handle is given back,
and the flag is lowered if the loop stops there. -/
def deedsOf (k : Nat) (s : Session) : List Site.Deed :=
  .accept (.ok s.client) :: Site.interruptions s.client.interrupts ++
    .release s.client.handle s.released :: if o.stopsAfter k s then [.stop] else []

def Sessions.deeds (r : Sessions) : List Site.Deed :=
  (r.served.mapIdx fun k s => o.deedsOf (k + 1) s).flatten

/-- A command at work that has reported on these sessions, down the line `all`. -/
structure Reported (t : Site σ) (line : σ → List Client) (all : List Client) (r : Sessions)
    (w : Work (σ × List Site.Deed)) : Prop where
  inLine : all = r.served.map Session.client ++ line w.world.1
  sessions : w.sessions = r.served.length
  events : w.events = r.events o
  output : w.output = r.output o
  failure : w.failure = r.failure?.map .ofReceive
  log : w.world.2 = r.deeds o
  /-- The flag is down when the loop was to stop after the last session. -/
  lowered : ∀ s ∈ r.served.getLast?, o.stopsAfter r.served.length s = true →
    t.running w.world.1 = false
  limit : ∀ n, o.count = some n → r.served.length ≤ max 1 n.toNat

/-- Nothing was put out yet, and nothing was done. -/
structure IsFresh (w : Work (σ × List Site.Deed)) : Prop where
  sessions : w.sessions = 0
  events : w.events = []
  output : w.output = []
  failure : w.failure = none
  log : w.world.2 = []

section Rounds

variable {o} {t : Site σ} {line : σ → List Client} {all : List Client} {r : Sessions}
  {w w' : Work (σ × List Site.Deed)} {c : Client}

theorem IsFresh.reported (h : IsFresh w) : o.Reported t line (line w.world.1) .none w where
  inLine := rfl
  sessions := h.sessions
  events := h.events
  output := h.output
  failure := h.failure
  log := h.log
  lowered := by simp [Sessions.served, Sessions.none]
  limit := by simp [Sessions.served, Sessions.none]

/-- While the flag is up, no session has failed, and there are fewer of them than were asked for. -/
theorem Reported.going (h : o.Reported t line all r w) (hrun : t.running w.world.1 = true) :
    r.failed = none ∧ (r.served = [] ∨ o.isLast r.served.length = false) := by
  have hgoes : ∀ s ∈ r.served.getLast?, o.stopsAfter r.served.length s = false := by
    intro s hs
    by_contra hstops
    rw [h.lowered s hs (by simpa using hstops)] at hrun
    contradiction
  have hfailed : r.failed = none := by
    refine Sessions.failed_eq_none fun s hs => ?_
    have hstops := hgoes s (by simp [Sessions.served, Option.mem_def.mp hs])
    exact Option.not_isSome_iff_eq_none.mp fun hfailure => by simp [stopsAfter, hfailure] at hstops
  refine ⟨hfailed, ?_⟩
  rcases r.served.eq_nil_or_concat with hnil | ⟨before, s, hserved⟩
  · exact .inl hnil
  · have hstops := hgoes s (by simp [hserved])
    exact .inr (by simpa [stopsAfter] using And.right (by simpa [stopsAfter] using hstops))

/-- What a session adds to what has been put out. -/
theorem Reported.told (h : o.Reported t line all r w) (hfailed : r.failed = none) {r' : Sessions}
    {s : Session} {v v' : σ × List Site.Deed}
    (hcases : s.failure? = none ∧ r'.clean = r.clean ++ [s] ∧ r'.failed = none ∨
      s.failure?.isSome ∧ r'.clean = r.clean ∧ r'.failed = some s)
    (hv : t.watch.release s.client.handle (t.watch.interrupts s.client.interrupts v) =
      (s.released, v')) :
    let w' := handle t.watch o s.client { w with world := v }
    w'.events = r'.events o ∧ w'.output = r'.output o ∧
      w'.failure = r'.failure?.map .ofReceive := by
  have hclean : r.served = r.clean := by simp [Sessions.served, hfailed]
  have hnumber : w.sessions = r.clean.length := by rw [h.sessions, hclean]
  have hevents := h.events
  have houtput : w.output = (r.clean.mapIdx fun k s => o.shown (k + 1) s).flatten := by
    simp [h.output, Sessions.output, hfailed]
  have hfailure : w.failure = none := by simp [h.failure, Sessions.failure?, hfailed]
  unfold Sessions.events at *
  unfold Sessions.output Sessions.failure?
  rcases hcases with ⟨hs, hclean', hfailed'⟩ | ⟨hs, hclean', hfailed'⟩
  · rw [handle_of_clean hs hv]
    simp [hclean', hfailed', List.mapIdx_concat, hnumber, hevents, houtput, hfailure]
  · obtain ⟨e, he⟩ := Option.isSome_iff_exists.mp hs
    rw [handle_of_failed he hv]
    simp [hclean', hfailed', hevents, houtput, he]

/-- A round reports on one session more, whatever becomes of the line. -/
theorem Reported.round_any (hlowers : ∀ v, t.running (t.stop v) = false)
    (h : o.Reported t line all r w) (hrun : t.running w.world.1 = true)
    (haccept : (t.accept w.world.1).1 = .ok c) :
    let v := t.release c.handle (t.interrupts c.interrupts (t.accept w.world.1).2)
    let w' := handle t.watch o c { w with world := (t.watch.accept w.world).2 }
    ∃ s r', s.client = c ∧ s.released = v.1 ∧ r'.served = r.served ++ [s] ∧
      w'.world.1 = (if o.stopsAfter r'.served.length s then t.stop v.2 else v.2) ∧
      ∀ line' all', all' = r'.served.map Session.client ++ line' w'.world.1 →
        o.Reported t line' all' r' w' := by
  intro v w'
  obtain ⟨hfailed, hcount⟩ := h.going hrun
  obtain ⟨s, rfl, hs⟩ := exists_session c v.1
  obtain ⟨r', hserved, hcases⟩ := Sessions.exists_add hfailed s
  have hv : t.watch.release s.client.handle
      (t.watch.interrupts s.client.interrupts (t.watch.accept w.world).2) = (s.released, v.2,
        w.world.2 ++ .accept (.ok s.client) :: Site.interruptions s.client.interrupts ++
          [.release s.client.handle s.released]) := by
    rw [Site.interrupts_watch, hs]
    simp [Site.watch, haccept, v]
  have hnumber : w.sessions + 1 = r.served.length + 1 := by rw [h.sessions]
  have hlength : r'.served.length = r.served.length + 1 := by simp [hserved]
  obtain ⟨hworld, hsessions⟩ := world_handle_eq (o := o)
    (w := { w with world := (t.watch.accept w.world).2 }) hv
  obtain ⟨hevents, houtput, hfailure⟩ := h.told hfailed hcases hv
  refine ⟨s, r', rfl, hs, hserved, ?world, fun line' all' hall =>
    { inLine := hall, sessions := ?sessions, events := hevents, output := houtput,
      failure := hfailure, log := ?log, lowered := ?lowered, limit := ?limit }⟩
  case world =>
    simp only [w', hworld, hlength, ← hnumber]
    split <;> rfl
  case sessions => rw [hsessions, hlength, h.sessions]
  case log =>
    rw [hworld, Sessions.deeds, hserved, List.mapIdx_concat, List.flatten_append,
      List.flatten_singleton, deedsOf, ← hnumber]
    rw [show (r.served.mapIdx fun k s => o.deedsOf (k + 1) s).flatten = w.world.2 from h.log.symm]
    split <;> simp [Site.watch]
  case lowered =>
    intro x hx hstops
    obtain rfl : s = x := by simpa [hserved] using hx
    rw [hlength, ← hnumber] at hstops
    rw [hworld, if_pos hstops]
    exact hlowers _
  case limit =>
    -- the round before was not the last one, so there was room for one session more
    intro n hn
    have := h.limit n hn
    rw [hlength]
    rcases hcount with hnil | hlast
    · rw [hnil, List.length_nil]
      omega
    · simp only [isLast, hn, Option.any_some, decide_eq_false_iff_not] at hlast
      omega

/-- Where clients stand in a line, a round goes on down the line. -/
theorem Reported.round (ht : t.Offers line) (h : o.Reported t line all r w)
    (hrun : t.running w.world.1 = true) (haccept : (t.accept w.world.1).1 = .ok c) :
    ∃ s r', s.client = c ∧ r'.served = r.served ++ [s] ∧ o.Reported t line all r'
      (handle t.watch o c { w with world := (t.watch.accept w.world).2 }) := by
  have hmoved : line w.world.1 = c :: line (t.accept w.world.1).2 := by
    rcases ht.accept w.world.1 hrun with ⟨c', hc', hline⟩ | ⟨e, he, -⟩
    · rw [haccept] at hc'
      cases hc'
      exact hline
    · rw [haccept] at he
      contradiction
  obtain ⟨s, r', rfl, -, hserved, hworld, hreported⟩ := h.round_any ht.lowers hrun haccept
  refine ⟨s, r', rfl, hserved, hreported line all ?_⟩
  rw [hworld, hserved, List.map_append, List.append_assoc, h.inLine, hmoved]
  split <;> simp [ht.stop, ht.release, ht.interrupts]

/-- What the rounds of the loop have come to. -/
theorem Reported.rounds (ht : t.Offers line) {cs : List Client}
    (hr : Loop.Rounds (Work.service t.watch) (handle t.watch o) w cs w')
    (h : o.Reported t line all r w) :
    ∃ r', r'.served.map Session.client = r.served.map Session.client ++ cs ∧
      o.Reported t line all r' w' := by
  induction hr generalizing r with
  | nil w => exact ⟨r, by simp, h⟩
  | @cons w v u c cs hrun haccept _ ih =>
    obtain ⟨hc, rfl⟩ := Prod.mk.inj haccept
    obtain ⟨s, r₁, rfl, hserved, hround⟩ := h.round ht hrun hc
    obtain ⟨r', hserved', h'⟩ := ih hround
    exact ⟨r', by rw [hserved', hserved]; simp, h'⟩

/-- Where clients stand in a line the loop ends in good order, with a last accept perhaps that
found nobody. -/
theorem Reported.stops (ht : t.Offers line) (h : o.Reported t line all r w) {n : Nat}
    {ending : Loop.Ending} (hends : Loop.Ends (Work.service t.watch) n w ending w') :
    ∃ last, ending = .stopped n ∧ w' = { w with world := (w'.world.1, r.deeds o ++ last) } ∧
      (last = [] ∨ r.failed = none ∧ ∃ e, last = [.accept (.error e)]) ∧
      (r.served.map Session.client = all ∨ t.running w'.world.1 = false) := by
  have hrefused : ∀ {e : ListenerError}, (Work.service t.watch).running w = true →
      (Work.service t.watch).accept w = (.error e, w') →
      (t.running w'.world.1 = false ∨ line w.world.1 = [] ∧ e.isMisuse = true) ∧
        w' = { w with world := (w'.world.1, r.deeds o ++ [.accept (.error e)]) } := by
    intro e hrun haccept
    obtain ⟨he, rfl⟩ := Prod.mk.inj haccept
    rcases ht.accept w.world.1 hrun with ⟨c, hc, -⟩ | ⟨e', he', hwhy⟩
    · rw [show (t.accept w.world.1).1 = .error e from he] at hc
      contradiction
    · obtain rfl : e' = e := by simpa using he'.symm.trans he
      refine ⟨hwhy, ?_⟩
      rw [← h.log, ← he']
      rfl
  have hall : line w.world.1 = [] → r.served.map Session.client = all := fun hnil => by
    rw [h.inLine, hnil, List.append_nil]
  cases hends with
  | lowered hdown =>
    refine ⟨[], rfl, ?_, .inl rfl, .inr hdown⟩
    rw [List.append_nil, ← h.log]
  | @stopped e _ hrun haccept _ =>
    obtain ⟨hwhy, hw'⟩ := hrefused hrun haccept
    refine ⟨_, rfl, hw', .inr ⟨(h.going hrun).1, e, rfl⟩, ?_⟩
    rcases hwhy with hdown | ⟨hnil, -⟩
    · exact .inr hdown
    · exact .inl (hall hnil)
  | failed hrun haccept hset hmisuse =>
    obtain ⟨hdown | ⟨-, hwhy⟩, -⟩ := hrefused hrun haccept
    · exact absurd (hset.symm.trans hdown) (by simp)
    · exact absurd (hmisuse.symm.trans hwhy) (by simp)

end Rounds

/-! ## The contract of a report -/

theorem released?_interruptions (n : Nat) :
    (Site.interruptions n).filterMap Site.Deed.released? = [] := by
  unfold Site.interruptions
  induction n with
  | zero => rfl
  | succ n ih => rwa [List.replicate_succ, List.flatten_cons, List.filterMap_append]

variable (o : Reporting)

/-- Each session gives its handle back once. -/
theorem released?_deedsOf (k : Nat) (s : Session) :
    (o.deedsOf k s).filterMap Site.Deed.released? = [s.client.handle] := by
  unfold deedsOf
  by_cases hstops : o.stopsAfter k s = true <;>
    simp [Site.Deed.released?, List.filterMap_cons, released?_interruptions, hstops]

/-- What is done for sessions, as far as `f` tells it, is told session by session. -/
theorem filterMap_deeds {β : Type} {f : Site.Deed → Option β} {g : Session → List β}
    {r : Sessions} (h : ∀ k, ∀ s ∈ r.served, (o.deedsOf k s).filterMap f = g s) :
    (r.deeds o).filterMap f = r.served.flatMap g := by
  unfold Sessions.deeds
  generalize r.served = served at h
  induction served using List.reverseRecOn with
  | nil => rfl
  | append_singleton before s ih =>
    rw [List.mapIdx_concat, List.flatten_append, List.filterMap_append, List.flatMap_append,
      ih fun k x hx => h k x (List.mem_append_left _ hx), List.flatten_singleton,
      h _ s (by simp), List.flatMap_singleton]

theorem released?_deeds (r : Sessions) :
    (r.deeds o).filterMap Site.Deed.released? = r.served.map fun s => s.client.handle := by
  rw [o.filterMap_deeds fun k s _ => o.released?_deedsOf k s, List.map_eq_flatMap]

/-- How a report down the line `all` ends. -/
structure Concludes (t : Site σ) (all : List Client) (r : Sessions)
    (result : Except CommandFailure Unit) (w : Work (σ × List Site.Deed)) : Prop where
  inOrder : r.served.map Session.client <+: all
  /-- Sessions that went well have their events, in order. -/
  events : w.events = r.events o
  numbers : w.events.map Event.sequence = List.range' 1 r.clean.length
  handles : w.events.map Event.handle = r.clean.map fun s => s.client.handle
  counts : w.events.map Event.bytesReceived = r.clean.map fun s => s.data.length
  output : w.output = r.output o
  /-- At the end nobody is accepted, and the listener is closed. -/
  log : ∃ last, w.world.2 = r.deeds o ++ last ++ [.close] ∧
    (last = [] ∨ r.failed = none ∧ ∃ e, last = [.accept (.error e)])
  released : w.world.2.filterMap Site.Deed.released? = r.served.map fun s => s.client.handle
  succeeds : r.failed = none →
    result = .ok () ∧ ∀ i, (Program.ended i result w).exitCode = ExitCode.success
  fails : ∀ s ∈ r.failed, ∃ e, s.failure? = some e ∧
    result = .error (.ofIo "receive failed" e) ∧
    ∀ i, (Program.ended i result w).exitCode = (CommandFailure.ofIo "receive failed" e).code
  limit : ∀ n, o.count = some n → r.served.length ≤ max 1 n.toNat
  complete : r.served.map Session.client = all ∨ t.running w.world.1 = false

section Contract

variable {o} {t : Site σ} {line : σ → List Client} {all : List Client} {r : Sessions}
  {w : Work (σ × List Site.Deed)}

theorem events_numbered (r : Sessions) :
    (r.events o).map Event.sequence = List.range' 1 r.clean.length ∧
      (r.events o).map Event.handle = (r.clean.map fun s => s.client.handle) ∧
      (r.events o).map Event.bytesReceived = r.clean.map fun s => s.data.length := by
  unfold Sessions.events
  induction r.clean using List.reverseRecOn with
  | nil => exact ⟨rfl, rfl, rfl⟩
  | append_singleton before s ih =>
    obtain ⟨hnumbers, hhandles, hcounts⟩ := ih
    simp only [List.mapIdx_concat, List.map_append, hnumbers, hhandles, hcounts]
    refine ⟨?_, rfl, rfl⟩
    rw [List.length_append, List.length_singleton, List.range'_concat, Nat.one_mul, Nat.add_comm 1]
    rfl

theorem Reported.concludes (ht : t.Offers line)
    (hclose : ∀ v, CommandFailure.ofClose? (t.close v).1 = none) (h : o.Reported t line all r w)
    {n : Nat} {ending : Loop.Ending} {w' : Work (σ × List Site.Deed)}
    (hends : Loop.Ends (Work.service t.watch) n w ending w') {turns : Nat} {u}
    (hserve : Loop.serve (Work.service t.watch) (handle t.watch o) turns u = (some ending, w')) :
    ∃ result w'', o.run t.watch turns u = (some result, w'') ∧
      o.Concludes t all r result w'' := by
  obtain ⟨last, rfl, hw', hlast, hcomplete⟩ := h.stops ht hends
  have hrun := run_of_stopped hserve
  have hclosed : CommandFailure.ofClose? (t.watch.close w'.world).1 = none := hclose w'.world.1
  rw [hclosed] at hrun
  refine ⟨_, _, hrun, ?_⟩
  have hevents : w'.events = r.events o := by
    rw [hw']
    exact h.events
  have hoffered : w'.failure = r.failure?.map .ofReceive := by
    rw [hw']
    exact h.failure
  have hlog : (t.watch.close w'.world).2.2 = r.deeds o ++ last ++ [.close] := by
    rw [hw']
    rfl
  obtain ⟨hnumbers, hhandles, hcounts⟩ := events_numbered (o := o) r
  refine { inOrder := ⟨_, h.inLine.symm⟩, events := hevents, numbers := ?numbers,
           handles := ?handles, counts := ?counts, output := ?output, log := ⟨last, hlog, hlast⟩,
           released := ?released, succeeds := ?succeeds, fails := ?fails, limit := h.limit,
           complete := ?complete }
  case numbers => rw [← hnumbers, ← hevents]
  case handles => rw [← hhandles, ← hevents]
  case counts => rw [← hcounts, ← hevents]
  case output =>
    rw [hw']
    exact h.output
  case released =>
    -- neither the last attempt nor the close gives a handle back
    rw [hlog, List.filterMap_append, List.filterMap_append, released?_deeds]
    rcases hlast with rfl | ⟨-, e, rfl⟩ <;> simp [Site.Deed.released?]
  case succeeds =>
    intro hnone
    have hfine : w'.failure = none := by simp [hoffered, Sessions.failure?, hnone]
    rw [hfine]
    exact ⟨rfl, fun _ => rfl⟩
  case fails =>
    intro s hs
    obtain ⟨e, he⟩ := r.hasFailed s hs
    have hfailed : w'.failure = some (.ofReceive e) := by
      simp [hoffered, Sessions.failure?, Option.mem_def.mp hs, he]
    rw [hfailed]
    exact ⟨e, he, rfl, fun _ => rfl⟩
  case complete => exact hcomplete.imp_right (ht.closeKeeps _)

/-- Where clients stand in a line, a report that has put out nothing yet comes to an end. -/
theorem exists_concludes (ht : t.Offers line)
    (hclose : ∀ v, CommandFailure.ofClose? (t.close v).1 = none) (hfresh : IsFresh w) {turns : Nat}
    (hturns : (line w.world.1).length < turns) :
    ∃ r result w', o.run t.watch turns w = (some result, w') ∧
      o.Concludes t (line w.world.1) r result w' := by
  obtain ⟨cs, v, hrounds, hcase⟩ := Loop.serveFrom_cases (Work.service t.watch) (handle t.watch o)
    turns 0 w
  obtain ⟨r, hserved, hreported⟩ := (hfresh.reported (o := o) (t := t)).rounds ht hrounds
  have hcs : r.served.map Session.client = cs := hserved
  have hlength : cs.length ≤ (line w.world.1).length := by
    rw [hreported.inLine, List.length_append, hcs]
    exact Nat.le_add_right _ _
  rcases hcase with ⟨hall, -⟩ | ⟨-, ending, w', hends, hserve⟩
  · omega
  · obtain ⟨result, w'', hrun, hconcludes⟩ := hreported.concludes ht hclose hends hserve
    exact ⟨r, result, w'', hrun, hconcludes⟩

end Contract

/-- However their bytes were split and wherever reads were interrupted, clients that stand in a line
are reported on in its order. The report goes down the line until nobody is left, the flag is down,
or a session fails, and it returns with the failure of that session and with nothing else. -/
theorem sessions_reported_in_order (t : Site σ) (line : σ → List Client) (ht : t.Offers line)
    (hclose : ∀ v, CommandFailure.ofClose? (t.close v).1 = none) (o : Reporting) (w : σ)
    (turns : Nat) (hturns : (line w).length < turns) :
    ∃ r result w', o.run t.watch turns (.start (w, [])) = (some result, w') ∧
      o.run t turns (.start w) = (some result, w'.unwatched) ∧
      o.Concludes t (line w) r result w' := by
  obtain ⟨r, result, w', hrun, hconcludes⟩ :=
    exists_concludes (o := o) (w := .start (w, [])) ht hclose ⟨rfl, rfl, rfl, rfl, rfl⟩ hturns
  refine ⟨r, result, w', hrun, ?_, hconcludes⟩
  have hsame := unwatched_run t o turns (.start (w, []))
  rw [hrun] at hsame
  exact hsame.symm

/-- The second of three clients breaks off, and the third is not accepted. -/
theorem second_session_fails :
    let clients : List Client := [
      ⟨⟨1⟩, [.ok [0x61], .error .interrupted, .ok [0x62, 0x63]], [], 0, 0, 0⟩,
      ⟨⟨2⟩, [.ok [0x64], .error .connectionReset], [], 0, 0, 0⟩, ⟨⟨3⟩, [], [], 0, 0, 0⟩]
    let o : Reporting := ⟨[0x73], Unix.transport, .json, some 5⟩
    ∃ r w', o.run Queue.site.watch 4 (.start (⟨true, false, clients⟩, [])) =
        (some (.error (.ofIo "receive failed" .connectionReset)), w') ∧
      o.Concludes Queue.site clients r (.error (.ofIo "receive failed" .connectionReset)) w' ∧
      w'.events.map Event.bytesReceived = [3] ∧
      w'.world.2.filterMap Site.Deed.released? = [⟨1⟩, ⟨2⟩] := by
  intro clients o
  obtain ⟨r, result, w', hrun, -, h⟩ := sessions_reported_in_order Queue.site Queue.clients
    Queue.offers Queue.closes o ⟨true, false, clients⟩ 4 (by decide)
  have hends : (o.run Queue.site.watch 4 (.start (⟨true, false, clients⟩, []))).1 =
        some (.error (.ofIo "receive failed" .connectionReset)) ∧
      (o.run Queue.site.watch 4 (.start (⟨true, false, clients⟩, []))).2.events.map
        Event.bytesReceived = [3] ∧
      (o.run Queue.site.watch 4 (.start (⟨true, false, clients⟩, []))).2.world.2.filterMap
        Site.Deed.released? = [⟨1⟩, ⟨2⟩] := by decide +kernel
  rw [hrun] at hends
  obtain ⟨hresult, hends⟩ := hends
  obtain rfl := Option.some.inj hresult
  exact ⟨r, w', hrun, h, hends⟩

end Reporting

end LocalIpc

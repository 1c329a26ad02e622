import Mathlib.Data.List.Forall2
import LocalIpc.Proofs.Program.Gathering
import LocalIpc.Proofs.Unix.Newborn
/-!
# Sessions at a listener that refuses others

A report makes its sessions of those who were accepted from the queue of its listener, one of each
and in their order. A listener that was refused is one of them. Its session goes well, and there is
nothing in it.
-/

namespace LocalIpc

open Unix (Happening State Caller)

/-- Reads that give nothing but the end of the stream. -/
theorem Delivers.of_silent {reads : List (Except IoError Bytes)} {data : Bytes}
    {broken : Option IoError} (h : Delivers reads data broken) (hsilent : ∀ r ∈ reads, r = .ok []) :
    data = [] ∧ broken = none := by
  cases h with
  | hungUp => exact ⟨rfl, rfl⟩
  | ended rest => exact ⟨rfl, rfl⟩
  | broken _ rest => nomatch hsilent _ List.mem_cons_self
  | again _ _ => nomatch hsilent _ List.mem_cons_self
  | piece hsome _ => exact absurd (Except.ok.inj (hsilent _ List.mem_cons_self)) hsome

/-! ## The session of a connection -/

/-- In a run from `s` the listener has handed a connection out, the one with this stream and this
number, and this is the session that was made of it. -/
structure Meets (s : State) (l : Nat) (fd : Fd) (es : List Happening) (p : Nat × Nat)
    (x : Reporting.Session) : Prop where
  /-- The client of the session is the connection, and its reads gave what the host had there. -/
  handed : ∃ before c after, es = before ++ .answer :: after ∧
    (s.live before).HandsOut l .answer p.2 c ∧
    (s.live (before ++ [.answer])).host.descriptor? c = some (.stream p.1 .far) ∧
    x.client.handle = (Connection.ofFd c).handle ∧
    ∀ r ∈ x.client.reads, ∃ mid, mid <+: after ∧
      r = ((s.live (before ++ .answer :: mid)).host.read c Gathering.bufferSize).1
  /-- The session of a listener that was refused has nothing in it and goes well, however the run
  goes on. -/
  refused : ∀ more k, (p.1, .check k) ∈ s.arrivals fd (es ++ more) →
    x.data = [] ∧ x.failure? = none

section Sessions

variable {s : State} {l : Nat} {fd : Fd} {path : Path} {es fs : List Happening}
  {p : Nat × Nat} {x : Reporting.Session} {w v : Gathering}

theorem Meets.append (h : Meets s l fd es p x) (fs : List Happening) :
    Meets s l fd (es ++ fs) p x := by
  obtain ⟨before, c, after, rfl, hout, hopened, hhandle, hreads⟩ := h.handed
  refine ⟨⟨before, c, after ++ fs, by simp, hout, hopened, hhandle, fun r hr => ?_⟩,
    fun more k => ?_⟩
  · obtain ⟨mid, hmid, heq⟩ := hreads r hr
    exact ⟨mid, hmid.trans (List.prefix_append _ _), heq⟩
  · rw [List.append_assoc]
    exact h.refused (fs ++ more) k

/-- As long as its client is heard out, a connection is in use and stands for its stream. -/
theorem Gathering.Greets.inUse {before after mid : List Happening} {n : Nat} {c : Fd}
    (h : w.Greets fd before after n c)
    (hstands : (w.state.live before).Stands w.listener fd path (.answer :: after))
    (hmid : mid <+: after) :
    (w.state.live (before ++ .answer :: mid)).connection?
      (w.state.live before).connections.length = some ⟨Connection.ofFd c, true⟩ ∧
    (w.state.live (before ++ .answer :: mid)).host.descriptor? c = some (.stream n .far) := by
  obtain ⟨rest, rfl⟩ := hmid
  have hover := h.receives.finished
  have hheard : (w.state.live (before ++ [.answer])).Stands w.listener fd path mid := by
    rw [Unix.live_append]
    exact hstands.next.of_append.1
  have hopened := hover.opened
  rw [← Unix.fd_ofFd c] at hopened
  have hstream := hheard.apart.stream hheard.opens hover.inUse hopened
    ⟨fun hmem => h.kept.1 (List.mem_append_left _ hmem),
      fun hmem => h.kept.2 (List.mem_append_left _ hmem)⟩
  rw [Unix.fd_ofFd] at hstream
  rwa [← List.singleton_append, ← List.append_assoc, Unix.live_append]

/-- Whoever is taken from the queue has come by then. If it is a check, it has hung up by then. -/
theorem Gathering.Greets.silent {before after more : List Happening} {n k : Nat} {c : Fd}
    (h : w.Greets fd before after n c) (hstate : w.state = s.live w.since)
    (hstands : s.Stands w.listener fd path (w.since ++ before ++ .answer :: after))
    (harrives : (n, .check k) ∈ s.arrivals fd (w.since ++ before ++ .answer :: after ++ more)) :
    (w.state.live before).host.Silent n := by
  have hat : s.live (w.since ++ before) = w.state.live before := by
    rw [Unix.live_append, hstate]
  obtain ⟨hbefore, hthere⟩ := hstands.of_append
  have hqueue : n ∈ (s.live (w.since ++ before)).host.queue fd := by
    rw [hat] at hthere ⊢
    obtain ⟨-, -, rest, -, hhead⟩ := Unix.admits_cases hthere.now hthere.apart h.receives.admits
    exact List.mem_of_mem_head? hhead
  rw [List.append_assoc] at harrives
  have hearlier := Unix.mem_arrivals_of_queue hthere.apart.tidy hqueue harrives
  exact hat ▸ Unix.silent_of_arrival hbefore hearlier

/-- Whom the command has greeted it makes a session of. -/
theorem Gathering.Greets.meets {before after : List Happening} {n : Nat} {c : Fd}
    (h : w.Greets fd before after n c) (hstate : w.state = s.live w.since)
    (hgrows : w.Grows w.accept.2 (before ++ .answer :: after))
    (hstands : s.Stands w.listener fd path (w.since ++ (before ++ .answer :: after)))
    (hx : w.accept.1 = .ok x.client) (hreleased : x.released = w.accept.2.release.1) :
    Meets s w.listener fd (w.since ++ (before ++ .answer :: after))
      (n, (w.state.live before).connections.length) x := by
  have hover := h.receives.finished
  obtain ⟨client, hclient, hhandle, -, hreads⟩ := h.client
  obtain rfl : client = x.client := Except.ok.inj (hclient.symm.trans hx)
  rw [← List.append_assoc] at hstands ⊢
  have hat : s.live (w.since ++ before) = w.state.live before := by
    rw [Unix.live_append, hstate]
  have hafter : ∀ mid, s.live (w.since ++ before ++ .answer :: mid) =
      w.state.live (before ++ .answer :: mid) := fun mid => by
    rw [List.append_assoc, Unix.live_append, hstate]
  have hthere := hstands.of_append.2
  rw [hat] at hthere
  refine ⟨⟨_, c, after, rfl, ?_, ?_, hhandle, fun r hr => ?_⟩, fun more k harrives => ?_⟩
  · rw [hat]
    exact hover.hands
  · rw [hafter]
    exact hover.opened
  · obtain ⟨mid, hmid, heq⟩ := hreads r hr
    exact ⟨mid, hmid, by rw [hafter, heq]⟩
  · have hsilent := h.silent hstate hstands harrives
    have hnothing : ∀ r ∈ x.client.reads, r = .ok [] := by
      intro r hr
      obtain ⟨mid, hmid, heq⟩ := hreads r hr
      have hstill := Unix.silent_live hsilent (.answer :: mid)
      rw [← Unix.live_append] at hstill
      exact heq.trans (hstill.read (h.inUse hthere hmid).2 Gathering.bufferSize)
    obtain ⟨hdata, hbroken⟩ := x.delivers.of_silent hnothing
    have hgiven : x.released = .ok () := by
      obtain ⟨hj, hd⟩ := h.inUse hthere (List.prefix_refl _)
      rw [← hgrows.state] at hj hd
      rw [hreleased]
      exact Gathering.release_ok h.serving hj ((Unix.fd_ofFd c).symm ▸ hd)
    refine ⟨hdata, ?_⟩
    simp [Reporting.Session.failure?, hbroken, hgiven]

/-! ## Round by round -/

/-- The command has made these sessions at its listener, in a run from `s`. If the listener has
stayed bound, they are the sessions of those who were accepted. -/
structure Attended (s : State) (l : Nat) (path : Path) (w : Gathering)
    (xs : List Reporting.Session) : Prop where
  state : w.state = s.live w.since
  listener : w.listener = l
  sessions : s.Idle l → ∀ fd, s.Stands l fd path w.since →
    w.state.Idle l ∧ List.Forall₂ (Meets s l fd w.since) (s.admissions fd w.since) xs

/-- What the next accept of the command comes to. -/
theorem Attended.accepts {xs : List Reporting.Session} (h : Attended s l path w xs)
    (hidle : s.Idle l) (hgrows : w.Grows w.accept.2 fs)
    (hstands : s.Stands l fd path (w.since ++ fs)) :
    (∃ before after n c, fs = before ++ .answer :: after ∧ w.Greets fd before after n c) ∨
      ∃ before, fs = before ++ [.answer] ∧ w.Waits fd before := by
  obtain rfl := h.listener
  obtain ⟨hbefore, hround⟩ := hstands.of_append
  rw [← h.state] at hround
  exact Gathering.accept_cases (h.sessions hidle fd hbefore).1 hgrows hround

/-- An accept that hands out a client makes one session more, with the release of its connection. -/
theorem Attended.round {xs : List Reporting.Session} (h : Attended s l path w xs)
    (hx : w.accept.1 = .ok x.client) (hreleased : x.released = w.accept.2.release.1) :
    Attended s l path w.accept.2.release.2 (xs ++ [x]) := by
  obtain ⟨coming, more, -, hgrows⟩ := w.grows_accept
  generalize .start (.accept w.listener) :: (coming ++ more) = fs at hgrows
  obtain ⟨gs, hgs, hnone⟩ := w.accept.2.grows_release (l := l)
  have hall := hgrows.trans hgs
  refine ⟨by rw [hall.state, h.state, hall.since, Unix.live_append s],
    hall.listener.trans h.listener, fun hfirst fd hstands => ?_⟩
  rw [hall.since, ← List.append_assoc] at hstands
  rw [hall.since]
  have hheard := hstands.of_append.1
  obtain ⟨hidle, hsessions⟩ := h.sessions hfirst fd hheard.of_append.1
  rcases h.accepts hfirst hgrows hheard with
    ⟨before, after, n, c, rfl, hgreets⟩ | ⟨before, -, hwaits⟩
  · obtain rfl := h.listener
    have hover := hgreets.receives.finished
    have hmeets := (hgreets.meets h.state hgrows hheard hx hreleased).append gs
    -- after the accept nobody else is accepted
    have hsplit : w.since ++ (before ++ .answer :: after) ++ gs =
        w.since ++ (before ++ [.answer]) ++ (after ++ gs) := by simp
    rw [hsplit] at hstands
    have hrest := hstands.of_append.2
    rw [Unix.live_append, ← h.state] at hrest
    have hidle' : (w.state.live (before ++ [.answer])).Idle w.listener := by
      unfold State.Idle
      rw [hover.tasks]
      exact hidle
    have hno : .start (.accept w.listener) ∉ after ++ gs := by
      rw [List.mem_append, not_or]
      exact ⟨hgreets.alone, hnone⟩
    have hadmissions : s.admissions fd (w.since ++ (before ++ .answer :: after) ++ gs) =
        s.admissions fd w.since ++ [(n, (w.state.live before).connections.length)] := by
      rw [hsplit, Unix.admissions_append, Unix.admissions_append, ← h.state, Unix.live_append,
        ← h.state, hidle'.admissions hno hrest, Unix.admissions_append,
        hgreets.receives.quiet, Unix.admissions_singleton, hgreets.receives.admits]
      simp
    rw [← List.append_assoc, hadmissions]
    refine ⟨?_, List.rel_append (hsessions.imp fun p y hp => ?_) (.cons hmeets .nil)⟩
    · have hstate : w.accept.2.release.2.state =
          (w.state.live (before ++ [.answer])).live (after ++ gs) := by
        rw [hall.state, ← Unix.live_append]
        simp
      rw [hstate]
      exact hidle'.live hno
    · rw [List.append_assoc]
      exact hp.append _
  · exact absurd (hx.symm.trans hwaits.givenUp) (by simp)

end Sessions

/-! ## The report -/

theorem Gathering.bind_ok {w u : Gathering} {path : Path} (h : w.bind path = (.ok (), u)) :
    Unix.bindNew w.state .default path = (.ok u.listener, u.state) ∧ u.since = [] ∧
      u.running = w.running := by
  unfold bind at h
  split at h
  · rename_i hnew
    obtain ⟨-, rfl⟩ := Prod.mk.inj h
    exact ⟨hnew, rfl, rfl⟩
  · simp at h

theorem Gathering.accept_calm {w : Gathering} {c : Client} (h : w.accept.1 = .ok c) :
    c.interrupts = 0 := by
  have hcalm : ∀ {v : Gathering} {rest talk}, (v.accepted rest talk).1 = .ok c →
      c.interrupts = 0 := by
    intro v rest talk h
    unfold accepted at h
    split at h
    · obtain rfl := Except.ok.inj h
      rfl
    · simp at h
    · simp at h
  rw [accept_eq] at h
  split at h
  · exact hcalm h
  split at h
  · exact hcalm h
  · simp at h

/-- A report at work at its listener, in a run from `s`, with the sessions that it has made. -/
structure AtWork (s : State) (l : Nat) (path : Path) (o : Reporting)
    (r : Reporting.Sessions) (w : Work (Gathering × List Site.Deed)) : Prop where
  reported : o.Reported Gathering.site (fun _ => []) (r.served.map Reporting.Session.client) r w
  attended : Attended s l path w.world.1 r.served
  /-- The flag is lowered for a last session alone. -/
  lowers : w.world.1.running = false →
    ∃ x ∈ r.served.getLast?, o.stopsAfter r.served.length x = true

/-- How a report with a count ends at a listener: it has as many sessions as were asked for, but at
least one, or one of them has failed, or nobody comes any more. -/
structure Gathering.Ends (s : State) (l : Nat) (fd : Fd) (n : UInt64) (es : List Happening)
    (r : Reporting.Sessions) : Prop where
  sessions : List.Forall₂ (Meets s l fd es) (s.admissions fd es) r.served
  ends : r.served.length = max 1 n.toNat ∨ r.failed ≠ none ∨
    ∃ before, es = before ++ [.answer] ∧ (s.live before).WaitsInVain l fd

section Report

variable {s : State} {l : Nat} {path : Path} {o : Reporting} {r : Reporting.Sessions}
  {w w' : Work (Gathering × List Site.Deed)} {n : UInt64} {k : Nat}

theorem AtWork.round {c : Client} (h : AtWork s l path o r w)
    (hrun : w.world.1.running = true) (haccept : w.world.1.accept.1 = .ok c) :
    ∃ r' : Reporting.Sessions, r'.served.length = r.served.length + 1 ∧ AtWork s l path o r'
      (Reporting.handle Gathering.site.watch o c
        { w with world := (Gathering.site.watch.accept w.world).2 }) := by
  obtain ⟨x, r', rfl, hreleased, hserved, hworld, hreported⟩ :=
    h.reported.round_any (fun _ => rfl) hrun haccept
  rw [Gathering.accept_calm haccept] at hreleased hworld
  have hattended := h.attended.round haccept hreleased
  refine ⟨r', by simp [hserved], hreported _ _ (List.append_nil _).symm, ?_, ?_⟩
  · rw [hworld, hserved]
    split
    · exact ⟨hattended.state, hattended.listener, hattended.sessions⟩
    · exact hattended
  · rw [hworld]
    split
    · exact fun _ => ⟨x, by simp [hserved], ‹_›⟩
    · obtain ⟨coming, more, -, hgrows⟩ := w.world.1.grows_accept
      obtain ⟨fs, hfs, -⟩ := w.world.1.accept.2.grows_release (l := l)
      intro hdown
      have hup : w.world.1.accept.2.release.2.running = true :=
        (hfs.running.trans hgrows.running).trans hrun
      exact absurd (hup.symm.trans hdown) (by simp)

theorem AtWork.rounds {cs : List Client}
    (hr : Loop.Rounds (Work.service Gathering.site.watch) (Reporting.handle Gathering.site.watch o)
      w cs w') (h : AtWork s l path o r w) :
    ∃ r' : Reporting.Sessions, r'.served.length = r.served.length + cs.length ∧
      AtWork s l path o r' w' := by
  induction hr generalizing r with
  | nil w => exact ⟨r, rfl, h⟩
  | @cons w v u c cs hrun haccept _ ih =>
    obtain ⟨hc, rfl⟩ := Prod.mk.inj haccept
    obtain ⟨r₁, hlength, hround⟩ := h.round hrun hc
    obtain ⟨r', hlength', h'⟩ := ih hround
    exact ⟨r', by rw [hlength', hlength, List.length_cons]; omega, h'⟩

/-- A report whose flag is down has come to its last session. -/
theorem AtWork.finished (h : AtWork s l path o r w) (hn : o.count = some n)
    (hdown : w.world.1.running = false) :
    r.served.length = max 1 n.toNat ∨ r.failed ≠ none := by
  obtain ⟨x, hx, hstops⟩ := h.lowers hdown
  by_cases hfailed : r.failed = none
  · left
    have hclean : r.served = r.clean := by simp [Reporting.Sessions.served, hfailed]
    have hfine := r.allClean x (hclean ▸ List.mem_of_getLast? hx)
    have hlast : n.toNat ≤ r.served.length := by
      simpa [Reporting.stopsAfter, hfine, Reporting.isLast, hn] using hstops
    have hsome : 0 < r.served.length := List.length_pos_of_mem (List.mem_of_getLast? hx)
    have hlimit := h.reported.limit n hn
    omega
  · exact .inr hfailed

theorem AtWork.ends (h : AtWork s l path o r w) (hn : o.count = some n)
    {ending : Loop.Ending}
    (hends : Loop.Ends (Work.service Gathering.site.watch) k w ending w') :
    w'.output = r.output o ∧ (s.Idle l → ∀ fd, s.Stands l fd path w'.world.1.since →
      Gathering.Ends s l fd n w'.world.1.since r) := by
  -- an accept that gives nobody never returned, if the listener stays bound
  have hvain : ∀ {e : ListenerError}, w.world.1.accept.1 = .error e → s.Idle l → ∀ fd,
      s.Stands l fd path w.world.1.accept.2.since →
      Gathering.Ends s l fd n w.world.1.accept.2.since r := by
    intro e he hidle fd hstands
    obtain ⟨coming, more, -, hgrows⟩ := w.world.1.grows_accept
    generalize .start (.accept w.world.1.listener) :: (coming ++ more) = fs at hgrows
    rw [hgrows.since] at hstands ⊢
    obtain ⟨-, hsessions⟩ := h.attended.sessions hidle fd hstands.of_append.1
    rcases h.attended.accepts hidle hgrows hstands with
      ⟨before, after, n, c, -, hgreets⟩ | ⟨before, rfl, hwaits⟩
    · obtain ⟨client, hclient, -⟩ := hgreets.client
      exact absurd (he.symm.trans hclient) (by simp)
    · obtain rfl := h.attended.listener
      refine ⟨?_, .inr (.inr ⟨w.world.1.since ++ before, (List.append_assoc ..).symm, ?_⟩)⟩
      · rw [Unix.admissions_append, ← h.attended.state, hwaits.quiet, List.append_nil]
        exact hsessions.imp fun p x hp => hp.append _
      · rw [Unix.live_append, ← h.attended.state]
        exact hwaits.nobody
  cases hends with
  | lowered hdown =>
    refine ⟨h.reported.output, fun hidle fd hstands => ?_⟩
    refine ⟨(h.attended.sessions hidle fd hstands).2, ?_⟩
    exact (h.finished hn hdown).imp_right .inl
  | stopped hrun haccept hwhy =>
    obtain ⟨he, rfl⟩ := Prod.mk.inj haccept
    exact ⟨h.reported.output, hvain he⟩
  | failed hrun haccept hset hmisuse =>
    obtain ⟨he, rfl⟩ := Prod.mk.inj haccept
    exact ⟨h.reported.output, hvain he⟩

theorem Reporting.events_getElem? (o : Reporting) {j : Nat} {x : Reporting.Session}
    (hx : r.served[j]? = some x) (hfine : x.failure? = none) :
    (r.events o)[j]? = some (o.eventOf (j + 1) x) := by
  have hclean : r.clean[j]? = some x := by
    rw [Reporting.Sessions.served, List.getElem?_append] at hx
    split at hx
    · exact hx
    · obtain ⟨e, he⟩ := r.hasFailed x (by simpa using List.mem_of_getElem? hx)
      simp [hfine] at he
  simp [Reporting.Sessions.events, hclean]

end Report

/-! ## The program -/

namespace Program

/-- What `listen` with a count has come to at its listener, in a run from `s`. -/
structure ReportsArrivals (s : State) (l : Nat) (fd : Fd) (path : Path) (o : Reporting) (n : UInt64)
    (es : List Happening) (r : Reporting.Sessions) : Prop extends
    Gathering.Ends s l fd n es r where
  attends : s.Attends l fd path es
  /-- Those who were accepted are the first of those who came. -/
  first : (s.admissions fd es).map Prod.fst <+: (s.arrivals fd es).map Prod.fst
  /-- The event of a listener that was refused has nothing in it. -/
  refused : ∀ j m k, (s.arrivals fd es)[j]? = some (m, .check k) → j < r.served.length →
    ∃ e, (r.events o)[j]? = some e ∧ e.sequence = j + 1 ∧ e.bytesReceived = 0 ∧ e.preview = ""

variable {s : State} {l : Nat} {fd : Fd} {path : Path} {o : Reporting} {n : UInt64}
  {es : List Happening} {r : Reporting.Sessions} {start : Start} {i : Invocation}
  {turns : Nat} {v u : Gathering}

/-- Where nobody waited at first, the events are those of the first to come. -/
theorem reports_arrivals (hends : Gathering.Ends s l fd n es r) (hstands : s.Stands l fd path es)
    (hempty : s.host.queue fd = []) : ReportsArrivals s l fd path o n es r := by
  have horder := hstands.order
  rw [hempty, List.nil_append] at horder
  refine ⟨hends, hstands.attends, ⟨_, horder.symm⟩, fun j m k hj hlt => ?_⟩
  -- the session that was made of the refused listener
  have haccepted : j < (s.admissions fd es).length := hends.sessions.length_eq ▸ hlt
  have hmeets := hends.sessions.get haccepted hlt
  have hsame : ((s.admissions fd es).get ⟨j, haccepted⟩).1 = m := by
    have hcame := congrArg (·[j]?) horder
    simpa [List.getElem?_append_left, haccepted, hj] using hcame.symm
  rw [← hsame] at hj
  obtain ⟨hdata, hfine⟩ := hmeets.refused [] k ((List.append_nil _).symm ▸ List.mem_of_getElem? hj)
  refine ⟨_, o.events_getElem? (List.getElem?_eq_getElem hlt) hfine, rfl, ?_, ?_⟩
  · show (Received.of (r.served.get ⟨j, hlt⟩).data).count = 0
    rw [hdata]
    rfl
  · show (Received.of (r.served.get ⟨j, hlt⟩).data).preview = ""
    rw [hdata]
    rfl

theorem atWork_bound (hbind : Gathering.site.bind path v = (.ok (), u)) (hup : v.running = true) :
    AtWork u.state u.listener path o .none ((bound path).foldl Work.note (.start (u, []))) := by
  obtain ⟨-, hnothing, hrunning⟩ := Gathering.bind_ok hbind
  have hfresh : Reporting.IsFresh ((bound path).foldl Work.note (.start (u, []))) :=
    ⟨rfl, rfl, rfl, rfl, rfl⟩
  refine ⟨hfresh.reported, ⟨?_, rfl, fun hidle fd _ => ⟨hidle, ?_⟩⟩, fun hdown => ?_⟩
  · show u.state = u.state.live u.since
    rw [hnothing]
    rfl
  · show List.Forall₂ _ (u.state.admissions fd u.since) _
    rw [hnothing]
    exact .nil
  · exact absurd (hdown.symm.trans (hrunning.trans hup)) (by simp)

/-- `listen` with a count comes to an end at a listener that it could bind. -/
theorem run_ends (info : BuildInfo)
    (hparse : CommandLine.parse start.environment start.words = .ok i)
    (hcommand : i.command = .listen path (some n))
    (hbind : Gathering.site.bind path v = (.ok (), u)) (hup : v.running = true)
    (hturns : max 1 n.toNat < turns) :
    ∃ r e w, run Gathering.site turns info start v = .ok (some e, w) ∧
      e.output = r.output (reportingOf start i path (some n)) ∧ r.served.length ≤ max 1 n.toNat ∧
      (u.state.Idle u.listener → ∀ fd, u.state.Stands u.listener fd path w.since →
        Gathering.Ends u.state u.listener fd n w.since r) := by
  let o := reportingOf start i path (some n)
  obtain ⟨cs, w, hrounds, hcase⟩ := Loop.serveFrom_cases (Work.service Gathering.site.watch)
    (Reporting.handle Gathering.site.watch o) turns 0
    ((bound path).foldl Work.note (.start (u, [])))
  obtain ⟨r, hlength, hwork⟩ := (atWork_bound (o := o) hbind hup).rounds hrounds
  have hlimit := hwork.reported.limit n rfl
  have hcount : r.served.length = cs.length := by
    simpa [Reporting.Sessions.served, Reporting.Sessions.none] using hlength
  rcases hcase with ⟨hall, -⟩ | ⟨-, ending, w', hends, hserve⟩
  · omega
  obtain ⟨houtput, hattended⟩ := hwork.ends rfl hends
  -- what comes after the loop changes neither what was put out nor what has happened
  obtain ⟨result, w'', hrun, hsame, hsince⟩ : ∃ result w'',
      o.run Gathering.site.watch turns ((bound path).foldl Work.note (.start (u, []))) =
        (some result, w'') ∧ w''.output = w'.output ∧ w''.world.1.since = w'.world.1.since := by
    cases ending with
    | stopped k => exact ⟨_, _, Reporting.run_of_stopped hserve, rfl, rfl⟩
    | failed e => exact ⟨_, _, Reporting.run_of_failed hserve, rfl, rfl⟩
  have hwatched := Reporting.unwatched_run Gathering.site o turns
    ((bound path).foldl Work.note (.start (u, [])))
  rw [hrun] at hwatched
  have hplain : o.run Gathering.site turns ((bound path).foldl Work.note (.start u)) =
      (some result, w''.unwatched) := hwatched.symm
  refine ⟨r, ended i result w''.unwatched, w''.world.1, ?_, hsame.trans houtput, hlimit,
    hsince ▸ hattended⟩
  rw [run_listen hparse hcommand hbind, hplain]
  rfl

/-- While a listener is bound to a path, every bind that it refuses there is one more client, which
has hung up by then: it is accepted in its turn, and there is nothing to read from it. Apart from
that, the listener accepts those who have connected themselves, in the order of arrival. So `listen`
with a count makes a session of each of the first to come, whether it was a client or a bind. -/
theorem refused_binds_stand_in_line (host : Host) (hnone : host.descriptors = [])
    (before : List Happening) :
    let s := (State.start host).live before
    (∀ l fd path es, (State.start host).OpensUnused (before ++ es) → s.StaysBound l fd path es →
      s.Attends l fd path es) ∧
    ∀ (info : BuildInfo) (start : Start) (i : Invocation) (path : Path) (n : UInt64)
      (agenda : List Episode) (u : Gathering) (turns : Nat),
      CommandLine.parse start.environment start.words = .ok i →
      i.command = .listen path (some n) →
      Gathering.site.bind path (Gathering.start s agenda) = (.ok (), u) →
      max 1 n.toNat < turns →
      let o := reportingOf start i path (some n)
      ∃ r e w, run Gathering.site turns info start (Gathering.start s agenda) = .ok (some e, w) ∧
        e.output = r.output o ∧ r.served.length ≤ max 1 n.toNat ∧
        ∀ fd, (State.start host).OpensUnused
            (before ++ (Unix.makingBound s .default path ++ w.since)) →
          u.state.StaysBound u.listener fd path w.since →
          ReportsArrivals u.state u.listener fd path o n w.since r := by
  intro s
  have hstart := Unix.apart_start hnone
  refine ⟨fun l fd path es hopens hbound => ?_, ?_⟩
  · obtain ⟨hbefore, hes⟩ := Unix.State.opensUnused_append.mp hopens
    exact State.Stands.attends ⟨hstart.live hbefore, hes, hbound⟩
  intro info start i path n agenda u turns hparse hcommand hbind hturns o
  obtain ⟨r, e, w, hrun, houtput, hlimit, hends⟩ :=
    run_ends info hparse hcommand hbind rfl hturns
  refine ⟨r, e, w, hrun, houtput, hlimit, fun fd hopens hbound => ?_⟩
  obtain ⟨hstate, hnewborn⟩ := Unix.bindNew_ok (Gathering.bind_ok hbind).1
  obtain ⟨hbefore, hlater⟩ := Unix.State.opensUnused_append.mp hopens
  obtain ⟨hbinding, hes⟩ := Unix.State.opensUnused_append.mp hlater
  have hapart := hstart.live hbefore
  have hnew := hnewborn hapart hbinding
  have hstands : u.state.Stands u.listener fd path w.since := by
    refine ⟨?_, ?_, hbound⟩ <;> rw [hstate]
    · exact hapart.live hbinding
    · exact hes
  exact reports_arrivals (hends hnew.idle fd hstands) hstands (hnew.empty fd path hstands.now)

/-- A listener is refused and then a client comes, at the door of another listener and again while
`listen` waits for the first of two. -/
theorem listen_reports_refused_listener :
    let before := Unix.makingBound (.start .fresh) .default [0x73] ++ Unix.making .default
    let s := (State.start .fresh).live before
    let door : List Happening := [.start (.bind 1 [0x73]), .start (.connect [0x73]),
      .start (.accept 0), .answer, .start (.accept 0), .answer]
    let agenda : List Episode :=
      [⟨Unix.making .default ++ [.start (.bind 3 [0x74]), .start (.connect [0x74]), .answer], []⟩,
        ⟨[.answer], [[.write 8 [0x68, 0x69]], [.start (.closeConnection 2)]]⟩]
    let start : Start := ⟨["listen", "t", "--count", "2"].map Text.encode, none, false⟩
    (s.Attends 0 3 [0x73] door ∧ s.arrivals 3 door = [(0, .check 1), (1, .client 0)] ∧
      s.admissions 3 door = [(0, 1), (1, 2)]) ∧
    ∃ u r e w, Gathering.site.bind [0x74] (Gathering.start s agenda) = (.ok (), u) ∧
      run Gathering.site 4 .plain start (Gathering.start s agenda) = .ok (some e, w) ∧
      ReportsArrivals u.state u.listener 5 [0x74] ⟨[0x74], Unix.transport, .json, some 2⟩ 2
        w.since r ∧
      u.state.arrivals 5 w.since = [(0, .check 3), (1, .client 0)] ∧ r.served.length = 2 := by
  intro before s door agenda start
  have hparse : CommandLine.parse start.environment start.words =
      .ok ⟨none, .text, .info, .listen [0x74] (some 2)⟩ := by decide +kernel
  have hok : (Gathering.site.bind [0x74] (Gathering.start s agenda)).1 = .ok () := by
    decide +kernel
  obtain ⟨u, hbind⟩ : ∃ u, Gathering.site.bind [0x74] (Gathering.start s agenda) = (.ok (), u) := by
    generalize Gathering.site.bind [0x74] (Gathering.start s agenda) = b at hok
    exact ⟨b.2, Prod.ext hok rfl⟩
  obtain ⟨hdoor, hlisten⟩ := refused_binds_stand_in_line .fresh rfl before
  obtain ⟨r, e, w, hrun, -, -, hreports⟩ :=
    hlisten .plain start _ [0x74] 2 agenda u 4 hparse rfl hbind (by decide)
  obtain ⟨hopens, hbound, harrivals, hadmissions⟩ :
      (State.start .fresh).OpensUnused (before ++ (Unix.makingBound s .default [0x74] ++ w.since)) ∧
      u.state.StaysBound u.listener 5 [0x74] w.since ∧
      u.state.arrivals 5 w.since = [(0, .check 3), (1, .client 0)] ∧
      (u.state.admissions 5 w.since).length = 2 := by
    have hgood : ((run Gathering.site 4 .plain start (Gathering.start s agenda)).toOption.any
        fun p => decide (
          let u := (Gathering.site.bind [0x74] (Gathering.start s agenda)).2
          (State.start .fresh).OpensUnused
            (before ++ (Unix.makingBound s .default [0x74] ++ p.2.since)) ∧
          u.state.StaysBound u.listener 5 [0x74] p.2.since ∧
          u.state.arrivals 5 p.2.since = [(0, .check 3), (1, .client 0)] ∧
          (u.state.admissions 5 p.2.since).length = 2)) = true := by decide +kernel
    generalize Gathering.site.bind [0x74] (Gathering.start s agenda) = b at hgood hbind
    generalize run Gathering.site 4 .plain start (Gathering.start s agenda) = c at hgood hrun
    subst hbind hrun
    rw [Except.toOption, Option.any_some] at hgood
    exact of_decide_eq_true hgood
  have hends := hreports 5 hopens hbound
  refine ⟨⟨hdoor 0 3 [0x73] door (by decide +kernel) (by decide +kernel), by decide +kernel,
    by decide +kernel⟩, u, r, e, w, hbind, hrun, hends, harrivals, ?_⟩
  rw [← hends.sessions.length_eq, hadmissions]

/-- A listener is refused while `listen` waits for one client, and then a client comes. The client
is left in the queue: the only session is that of the refused listener, and so is the event. -/
theorem refused_listener_takes_session_of_client :
    let agenda : List Episode :=
      [⟨Unix.making .default ++ [.start (.bind 1 [0x74]), .start (.connect [0x74]), .answer], []⟩]
    let bound := (Gathering.site.bind [0x74] (Gathering.start (.start .fresh) agenda)).2
    let ran := carryOut Gathering.site 3 .plain .json
      (.start (Gathering.start (.start .fresh) agenda)) (.listen [0x74] (some 1))
    let es := ran.2.world.since
    (bound.state.StaysBound 0 3 [0x74] es ∧
      (bound.state.live (es.take 4)).lastOutcome = .failed (.native .bind Unix.listenerActive) ∧
      Unix.listenerActive.kind = .addrInUse) ∧
    (bound.state.arrivals 3 es = [(0, .check 1), (1, .client 0)] ∧
      bound.state.admissions 3 es = [(0, 1)]) ∧
    ran.1 = some (.ok ()) ∧
      ran.2.events.map (fun e => (e.sequence, e.bytesReceived, e.preview)) = [(1, 0, "")] := by
  decide +kernel

end Program

end LocalIpc

import LocalIpc.Program.Visits
import LocalIpc.Proofs.Program.Reporting
/-!
# Reports that end after a number of clients

A report with a count looks at the count after each session. It serves that many clients, the first
of the line, and the next one is not accepted. A count of zero is met only after the first session,
so one client is served then.
-/

namespace LocalIpc

variable {σ : Type}

/-- A site where clients stand in a line and nothing disturbs them: an accept goes well while
somebody waits, every connection can be closed, and so can the listener. Only a stop lowers the
flag. -/
structure Site.Calm (t : Site σ) (line : σ → List Client) : Prop extends t.Offers line where
  accepts : ∀ w, t.running w = true → line w ≠ [] →
    (∃ c, (t.accept w).1 = .ok c) ∧ t.running (t.accept w).2 = true
  releases : ∀ h w, (t.release h w).1 = .ok ()
  releaseKeeps : ∀ h w, t.running (t.release h w).2 = t.running w
  closes : ∀ w, CommandFailure.ofClose? (t.close w).1 = none

/-- A client that hangs up after what it has to send. No interrupt comes while it is served. -/
def Client.IsCalm (c : Client) : Prop := c.interrupts = 0 ∧ ∃ data, Delivers c.reads data none

theorem Queue.calm : site.Calm clients where
  toOffers := offers
  accepts w hrun hne := by
    rcases w with ⟨running, closed, _ | ⟨c, rest⟩⟩
    · contradiction
    · exact ⟨⟨c, rfl⟩, hrun⟩
  releases _ _ := rfl
  releaseKeeps _ _ := rfl
  closes := closes

namespace Reporting

variable {t : Site σ} {line : σ → List Client} {o : Reporting} {w w' : Work (σ × List Site.Deed)}
  {r : Sessions} {all : List Client}

/-! ## Up to the last session -/

/-- A report where nothing has gone wrong: its flag is up until the last session is over, and the
clients that wait are calm. -/
structure OnCourse (t : Site σ) (line : σ → List Client) (o : Reporting)
    (w : Work (σ × List Site.Deed)) : Prop where
  flag : t.running w.world.1 = !(decide (0 < w.sessions) && o.isLast w.sessions)
  failure : w.failure = none
  calm : ∀ c ∈ line w.world.1, c.IsCalm

/-- The session of a calm client goes well, and the flag is lowered after the last one. -/
theorem OnCourse.round (ht : t.Calm line) (h : OnCourse t line o w) {c : Client}
    (hrun : t.running w.world.1 = true) (haccept : (t.accept w.world.1).1 = .ok c) :
    OnCourse t line o (handle t.watch o c { w with world := (t.watch.accept w.world).2 }) := by
  obtain ⟨hmoved, hstill⟩ : line w.world.1 = c :: line (t.accept w.world.1).2 ∧
      t.running (t.accept w.world.1).2 = true := by
    rcases ht.accept w.world.1 hrun with ⟨c', hc', hline⟩ | ⟨e, he, -⟩
    · rw [haccept] at hc'
      cases hc'
      exact ⟨hline, (ht.accepts w.world.1 hrun (by simp [hline])).2⟩
    · rw [haccept] at he
      contradiction
  obtain ⟨hnone, data, hdata⟩ := h.calm c (by simp [hmoved])
  let s : Session := ⟨c, data, none, hdata, .ok ()⟩
  obtain ⟨v, hv, hline, hup⟩ : ∃ v, t.watch.release s.client.handle
      (t.watch.interrupts s.client.interrupts (t.watch.accept w.world).2) = (s.released, v) ∧
      line v.1 = line (t.accept w.world.1).2 ∧ t.running v.1 = true := by
    refine ⟨_, Prod.ext ?_ rfl, ?_, ?_⟩ <;> rw [show s.client.interrupts = 0 from hnone]
    · exact ht.releases ..
    · exact ht.release ..
    · exact (ht.releaseKeeps ..).trans hstill
  have hclean : s.failure? = none := rfl
  have hhandle : handle t.watch o c { w with world := (t.watch.accept w.world).2 } = _ :=
    handle_of_clean hclean hv
  have hstops : o.stopsAfter (w.sessions + 1) s = o.isLast (w.sessions + 1) := by
    simp [stopsAfter, hclean]
  rw [hhandle, hstops]
  refine ⟨?_, h.failure, fun d hd => h.calm d ?_⟩
  · cases hlast : o.isLast (w.sessions + 1) with
    | true => simp [Site.watch, ht.lowers]
    | false => simp [hup]
  · have hkept : line (if o.isLast (w.sessions + 1) = true then t.watch.stop v else v).1 =
        line v.1 := by
      split
      · exact ht.stop v.1
      · rfl
    rw [hmoved, ← hline, ← hkept]
    exact List.mem_cons_of_mem _ hd

theorem OnCourse.rounds (ht : t.Calm line) {cs : List Client}
    (hr : Loop.Rounds (Work.service t.watch) (handle t.watch o) w cs w')
    (h : OnCourse t line o w) : OnCourse t line o w' := by
  induction hr with
  | nil => exact h
  | cons hrun haccept _ ih =>
    obtain ⟨hc, rfl⟩ := Prod.mk.inj haccept
    exact ih (h.round ht hrun hc)

/-! ## The end -/

/-- While fewer sessions are over than were asked for, there is somebody in the line. So the report
ends where its flag was lowered, after the session that was to be the last. -/
theorem Reported.ends_lowered (ht : t.Calm line) (h : o.Reported t line all r w)
    (hcourse : OnCourse t line o w) {n : UInt64} (hn : o.count = some n)
    (hwaiting : n.toNat < all.length) {k : Nat} {ending : Loop.Ending}
    (hends : Loop.Ends (Work.service t.watch) k w ending w') :
    ending = .stopped k ∧ w' = w ∧ r.served.length = max 1 n.toNat := by
  have hlimit := h.limit n hn
  have hflag := hcourse.flag
  simp only [isLast, hn, Option.any_some, h.sessions] at hflag
  have hgoes : ∀ {e}, (Work.service t.watch).running w = true →
      (Work.service t.watch).accept w = (.error e, w') → False := by
    intro e hrun haccept
    have hempty : line w.world.1 = [] := by
      by_contra hne
      obtain ⟨⟨c, hc⟩, -⟩ := ht.accepts w.world.1 hrun hne
      have he : (t.accept w.world.1).1 = .error e := congrArg Prod.fst haccept
      rw [hc] at he
      contradiction
    have hall : all.length = r.served.length := by
      rw [h.inLine, hempty, List.append_nil, List.length_map]
    have hup : t.running w.world.1 = true := hrun
    simp only [hup, Bool.true_eq, Bool.not_eq_true', Bool.and_eq_false_iff,
      decide_eq_false_iff_not] at hflag
    omega
  cases hends with
  | lowered hdown =>
    have hlow : t.running w.world.1 = false := hdown
    simp only [hlow, Bool.false_eq, Bool.not_eq_false', Bool.and_eq_true,
      decide_eq_true_eq] at hflag
    exact ⟨rfl, rfl, by omega⟩
  | stopped hrun haccept _ => exact (hgoes hrun haccept).elim
  | failed hrun haccept _ _ => exact (hgoes hrun haccept).elim

/-- What is done for a calm client. -/
def service (c : Client) : List Site.Deed := [.accept (.ok c), .release c.handle (.ok ())]

theorem deedsOf_of_calm {s : Session} (hs : s.failure? = none) (hcalm : s.client.interrupts = 0)
    (k : Nat) :
    o.deedsOf k s = service s.client ++ if o.isLast k = true then [.stop] else [] := by
  have hreleased : s.released = .ok () := by
    cases hr : s.released with
    | ok => rfl
    | error e =>
      have hfailed : s.failure?.isSome := by
        simp [Session.failure?, hr]
      simp [hs] at hfailed
  simp [deedsOf, service, stopsAfter, hs, hcalm, hreleased, Site.interruptions]

/-- The flag is lowered for the last session alone. -/
theorem deeds_of_calm {n : UInt64} (hn : o.count = some n) (hfailed : r.failed = none)
    (hcalm : ∀ s ∈ r.served, s.client.interrupts = 0)
    (hlength : r.served.length = max 1 n.toNat) :
    r.deeds o = (r.served.flatMap fun s => service s.client) ++ [.stop] := by
  have hclean : ∀ s ∈ r.served, s.failure? = none := by
    simpa [Sessions.served, hfailed] using r.allClean
  have hearly : ∀ (before : List Session), (∀ s ∈ before, s ∈ r.served) →
      before.length < max 1 n.toNat →
      (before.mapIdx fun k s => o.deedsOf (k + 1) s).flatten =
        before.flatMap fun s => service s.client := by
    intro before hmem hlt
    induction before using List.reverseRecOn with
    | nil => rfl
    | append_singleton before s ih =>
      rw [List.length_append, List.length_singleton] at hlt
      have hnot : o.isLast (before.length + 1) = false := by
        simp only [isLast, hn, Option.any_some, decide_eq_false_iff_not]
        omega
      rw [List.mapIdx_concat, List.flatten_append,
        ih (fun x hx => hmem x (List.mem_append_left _ hx)) (by omega), List.flatMap_append,
        deedsOf_of_calm (hclean s (hmem s (by simp))) (hcalm s (hmem s (by simp))), hnot]
      simp
  rcases r.served.eq_nil_or_concat with hnil | ⟨before, s, hserved⟩
  · rw [hnil, List.length_nil] at hlength
    omega
  · rw [hserved, List.concat_eq_append, List.length_append, List.length_singleton] at hlength
    have hmem : ∀ x ∈ before ++ [s], x ∈ r.served := by simp [hserved]
    have hlast : o.isLast (before.length + 1) = true := by
      simp only [isLast, hn, Option.any_some, decide_eq_true_eq]
      omega
    unfold Sessions.deeds
    rw [hserved, List.concat_eq_append, List.mapIdx_concat, List.flatten_append,
      hearly before (fun x hx => hmem x (List.mem_append_left _ hx)) (by omega),
      deedsOf_of_calm (hclean s (hmem s (by simp))) (hcalm s (hmem s (by simp))), if_pos hlast]
    simp

/-- A report with a count where clients are calm: it serves the first of the line. -/
theorem run_counted (ht : t.Calm line) (hfresh : IsFresh w) {u : σ} (hu : w.world.1 = u)
    (hup : t.running u = true) {n : UInt64} (hn : o.count = some n)
    (hwaiting : n.toNat < (line u).length) (hcalm : ∀ c ∈ line u, c.IsCalm) {turns : Nat}
    (hturns : max 1 n.toNat < turns) :
    ∃ (r : Sessions) (w' : Work (σ × List Site.Deed)),
      o.run t.watch turns w = (some (.ok ()), w') ∧ r.failed = none ∧
      r.clean.map Session.client = (line u).take (max 1 n.toNat) ∧
      w'.events = r.events o ∧ w'.output = r.output o ∧
      line w'.world.1 = (line u).drop (max 1 n.toNat) ∧
      w'.world.2 = ((line u).take (max 1 n.toNat)).flatMap service ++ [.stop, .close] := by
  subst hu
  have hcourse : OnCourse t line o w :=
    ⟨by simp [hup, hfresh.sessions], hfresh.failure, hcalm⟩
  obtain ⟨cs, v, hrounds, hcase⟩ := Loop.serveFrom_cases (Work.service t.watch) (handle t.watch o)
    turns 0 w
  obtain ⟨r, hserved, hreported⟩ := (hfresh.reported (o := o) (t := t)).rounds ht.toOffers hrounds
  have hcs : r.served.map Session.client = cs := hserved
  have hlimit := hreported.limit n hn
  have hlength : r.served.length = cs.length := by rw [← hcs, List.length_map]
  rcases hcase with ⟨hall, -⟩ | ⟨-, ending, w', hends, hserve⟩
  · omega
  obtain ⟨rfl, rfl, hmany⟩ :=
    hreported.ends_lowered ht (hcourse.rounds ht hrounds) hn hwaiting hends
  have hfailure : w'.failure = none := (hcourse.rounds ht hrounds).failure
  have hfailed : r.failed = none := by
    refine Sessions.failed_eq_none fun s hs => ?_
    have htold := hreported.failure.symm
    simpa [hfailure, Sessions.failure?, Option.mem_def.mp hs] using htold
  have hclean : r.served = r.clean := by simp [Sessions.served, hfailed]
  have hfirst : r.served.map Session.client = (line w.world.1).take (max 1 n.toNat) := by
    rw [hreported.inLine, ← hmany, ← List.length_map Session.client, List.take_left]
  have hrun := run_of_stopped hserve
  have hclosed : CommandFailure.ofClose? (t.watch.close w'.world).1 = none :=
    ht.closes w'.world.1
  rw [hclosed, hfailure] at hrun
  refine ⟨r, _, hrun, hfailed, hclean ▸ hfirst, hreported.events, hreported.output, ?_, ?_⟩
  · rw [hreported.inLine, ← hmany, ← List.length_map Session.client, List.drop_left]
    exact ht.close w'.world.1
  · have hnone : ∀ s ∈ r.served, s.client.interrupts = 0 := fun s hs =>
      (hcalm s.client (hreported.inLine ▸ List.mem_append_left _ (List.mem_map_of_mem hs))).1
    have hlog : (t.watch.close w'.world).2.2 = w'.world.2 ++ [.close] := rfl
    rw [hlog, hreported.log, deeds_of_calm hn hfailed hnone hmany, ← hfirst, List.flatMap_map]
    simp

end Reporting

/-! ## The program -/

namespace Program

/-- What `listen` reports, and when it is to end. -/
def reportingOf (s : Start) (i : Invocation) (path : Path) (count : Option UInt64) : Reporting :=
  ⟨path, Unix.transport, i.format.getD (OutputFormat.default s.terminal), count⟩

/-- What `listen` comes to, once its words are read and its listener is bound. -/
theorem run_listen {t : Site σ} {turns : Nat} {info : BuildInfo} {s : Start} {i : Invocation}
    {path : Path} {count : Option UInt64} {v u : σ}
    (hparse : CommandLine.parse s.environment s.words = .ok i)
    (hcommand : i.command = .listen path count) (hbind : t.bind path v = (.ok (), u)) :
    let served := (reportingOf s i path count).run t turns ((bound path).foldl Work.note (.start u))
    run t turns info s v =
      .ok (served.1.map fun r => ended i r served.2, served.2.world) := by
  intro served
  unfold run
  rw [hparse]
  simp only [hcommand, carryOut, serve, Work.start, hbind]
  rfl

/-- How `listen` ends when it has served the first `k` of the clients that waited. -/
structure ServesFirst (line : σ → List Client) (o : Reporting) (waiting : List Client) (k : Nat)
    (r : Reporting.Sessions) (e : Ended) (w : σ × List Site.Deed) : Prop where
  exits : e.exitCode = ExitCode.success ∧ e.failure = none
  sessions : r.failed = none ∧ r.clean.map Reporting.Session.client = waiting.take k
  /-- There is an event for each of them. -/
  events : (r.events o).map Event.sequence = List.range' 1 k ∧
    (r.events o).map Event.handle = (waiting.take k).map Client.handle
  output : e.output = (r.clean.mapIdx fun j s => o.shown (j + 1) s).flatten
  /-- Each is accepted and released. Then the flag is lowered and the listener is closed. -/
  log : w.2 = (waiting.take k).flatMap Reporting.service ++ [.stop, .close]
  left : line w.1 = waiting.drop k

/-- Where more calm clients wait than are asked for, `listen` with a count serves the first of them,
as many as it was asked for but at least one, and it ends in good order without another accept. So
it serves just as many as it was asked for unless it was asked for none. -/
theorem listen_serves_count_or_one (t : Site σ) (line : σ → List Client) (ht : t.Calm line)
    (info : BuildInfo) (s : Start) (i : Invocation) (path : Path) (n : UInt64)
    (hparse : CommandLine.parse s.environment s.words = .ok i)
    (hcommand : i.command = .listen path (some n)) (v u : σ)
    (hbind : t.bind path v = (.ok (), u)) (hup : t.running u = true)
    (hwaiting : n.toNat < (line u).length) (hcalm : ∀ c ∈ line u, c.IsCalm) (turns : Nat)
    (hturns : max 1 n.toNat < turns) :
    ∃ r e w, run t.watch turns info s (v, []) = .ok (some e, w) ∧
      run t turns info s v = .ok (some e, w.1) ∧
      ServesFirst line (reportingOf s i path (some n)) (line u) (max 1 n.toNat) r e w ∧
      (((line u).take (max 1 n.toNat)).length = n.toNat ↔ n ≠ 0) := by
  have hwatched : t.watch.bind path (v, []) = (.ok (), (u, [])) := by simp [Site.watch, hbind]
  have hfresh : Reporting.IsFresh ((bound path).foldl Work.note (.start (u, []))) :=
    ⟨rfl, rfl, rfl, rfl, rfl⟩
  obtain ⟨r, w', hrun, hfailed, hfirst, hevents, houtput, hleft, hlog⟩ :=
    Reporting.run_counted (o := reportingOf s i path (some n)) (u := u) ht hfresh rfl hup rfl
      hwaiting hcalm hturns
  obtain ⟨hnumbers, hhandles, -⟩ := Reporting.events_numbered (o := reportingOf s i path (some n)) r
  have hlength : r.clean.length = max 1 n.toNat := by
    have htake := congrArg List.length hfirst
    rw [List.length_map, List.length_take] at htake
    exact htake.trans (Nat.min_eq_left (by omega))
  refine ⟨r, ended i (.ok ()) w', w'.world, ?_, ?_, ?_, ?_⟩
  · rw [run_listen hparse hcommand hwatched, hrun]
    rfl
  · have hsame := Reporting.unwatched_run t (reportingOf s i path (some n)) turns
      ((bound path).foldl Work.note (.start (u, [])))
    rw [hrun] at hsame
    have hplain : (reportingOf s i path (some n)).run t turns
        ((bound path).foldl Work.note (.start u)) = (some (.ok ()), w'.unwatched) := hsame.symm
    rw [run_listen hparse hcommand hbind, hplain]
    rfl
  · refine ⟨⟨rfl, rfl⟩, ⟨hfailed, hfirst⟩, ⟨hlength ▸ hnumbers, ?_⟩, ?_, hlog, hleft⟩
    · rw [hhandles, ← hfirst, List.map_map]
      rfl
    · rw [show (ended i (.ok ()) w').output = w'.output from rfl, houtput]
      simp [Reporting.Sessions.output, hfailed]
  · have hpositive : n ≠ 0 ↔ 0 < n.toNat := by
      rw [Nat.pos_iff_ne_zero, ne_eq, ne_eq, ← UInt64.toNat_inj]
      rfl
    rw [hpositive, List.length_take]
    omega

/-- Two of three clients are asked for. -/
theorem listen_leaves_third_waiting :
    let clients : List Client := [⟨⟨1⟩, [.ok [0x61], .error .interrupted, .ok [0x62]], [], 0, 0, 0⟩,
      ⟨⟨2⟩, [], [], 0, 0, 0⟩, ⟨⟨3⟩, [.ok [0x63]], [], 0, 0, 0⟩]
    let s : Start := ⟨["listen", "s", "--count", "2"].map Text.encode, none, false⟩
    ∃ r e w, run Queue.site.watch 4 .plain s (⟨true, false, clients⟩, []) = .ok (some e, w) ∧
      ServesFirst Queue.clients ⟨[0x73], Unix.transport, .json, some 2⟩ clients 2 r e w ∧
      e.exitCode = 0 ∧ w.1.clients = clients.drop 2 := by
  intro clients s
  have hparse : CommandLine.parse s.environment s.words =
      .ok ⟨none, .text, .info, .listen [0x73] (some 2)⟩ := by decide +kernel
  have hcalm : ∀ c ∈ clients, c.IsCalm := by
    simp only [clients, List.forall_mem_cons]
    refine ⟨⟨rfl, _, .piece (by decide) (.again (by decide) (.piece (by decide) .hungUp))⟩,
      ⟨rfl, _, .hungUp⟩, ⟨rfl, _, .piece (by decide) .hungUp⟩, by simp⟩
  obtain ⟨r, e, w, hrun, -, hserves, -⟩ := listen_serves_count_or_one Queue.site Queue.clients
    Queue.calm .plain s _ [0x73] 2 hparse rfl ⟨true, false, clients⟩ ⟨true, false, clients⟩ rfl rfl
    (by decide) hcalm 4 (by decide)
  exact ⟨r, e, w, hrun, hserves, hserves.exits.1, hserves.left⟩

/-- Nobody is asked for, and the first of two visitors is served. -/
theorem count_zero_serves_one :
    let visits : Visits := .start .fresh [0x73] [⟨.plain, [0x78], []⟩, ⟨.plain, [0x79], []⟩] none
    let ended := carryOut Visits.site visits.turns .plain .json (.start visits)
      (.listen [0x73] (some 0))
    ended.1 = some (.ok ()) ∧ ended.2.events.map Event.preview = ["x"] ∧
      ended.2.world.coming.map Visitor.data = [[0x79]] ∧
      ended.2.world.state.listeners.map (·.phase) = [.closed] := by
  decide +kernel

end Program

end LocalIpc

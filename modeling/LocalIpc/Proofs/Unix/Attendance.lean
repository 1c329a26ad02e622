import LocalIpc.Proofs.Unix.Holding
/-!
# The queue of a bound listener

While a listener is bound and its socket listens, those who come are accepted in the order of their
arrival, and nobody else is. A bind that the listener refuses is one of those who come: it has hung
up by then, and the connection that is accepted for it has nothing but the end of its stream.
-/

namespace LocalIpc.Unix

/-- The listener is bound to the path, and its socket is the one that listens there. -/
structure State.Answers (s : State) (l : Nat) (fd : Fd) (path : Path) : Prop where
  bound : ∃ x, s.listener? l = some x ∧ x.phase = .bound ∧ x.path = some path ∧
    x.slot.get = some fd
  listens : ∃ file waiting, SocketAt s.host path file ∧
    s.host.listenerAt path = .ok (fd, file, waiting) ∧
    s.host.descriptor? fd = some (.listening file waiting)

theorem toOption_eq_some {ε α : Type} {r : Except ε α} {a : α} :
    r.toOption = some a ↔ r = .ok a := by
  cases r <;> simp [Except.toOption]

instance (s : State) (l : Nat) (fd : Fd) (path : Path) : Decidable (s.Answers l fd path) :=
  decidable_of_iff
    ((s.listener? l).any (fun x => x.phase = .bound ∧ x.path = some path ∧ x.slot.get = some fd) ∧
      (s.host.listenerAt path).toOption.any fun a => a.1 = fd ∧
        (s.host.tree.status path).toOption = some ⟨a.2.1, .socket⟩ ∧
        s.host.descriptor? fd = some (.listening a.2.1 a.2.2)) <| by
    simp only [Option.any_eq_true, decide_eq_true_eq, toOption_eq_some]
    constructor
    · rintro ⟨hbound, ⟨f, file, waiting⟩, hat, rfl, hf, hd⟩
      exact ⟨hbound, file, waiting, hf, hat, hd⟩
    · rintro ⟨hbound, file, waiting, hf, hat, hd⟩
      exact ⟨hbound, (fd, file, waiting), hat, rfl, hf, hd⟩

section Answers

variable {s : State} {l k : Nat} {fd f : Fd} {path : Path} {e : Happening}

theorem State.Answers.listener (h : s.Answers l fd path) :
    ∃ x, s.listeners[l]? = some x ∧ x.phase = .bound ∧ x.slot.get = some fd := by
  obtain ⟨x, hx, hphase, -, hslot⟩ := h.bound
  exact ⟨x, (State.listener?_eq_some hx).2, hphase, hslot⟩

theorem State.Answers.isListening (h : s.Answers l fd path) : s.host.IsListening fd := by
  obtain ⟨file, waiting, -, -, hd⟩ := h.listens
  exact ⟨file, waiting, hd⟩

/-- The deal of what happens leaves the socket listening. -/
theorem State.Answers.deal (hs' : (s.happen e).Answers l fd path) :
    (s.host.deal (s.deal e)).IsListening fd :=
  (sameSockets_happen s e).isListening hs'.isListening

/-- The accepts that wait at the socket are those of the listener. -/
theorem State.Answers.accepting (hs : s.Answers l fd path) (h : s.Apart)
    (hf : .working k (.accepting f) ∈ s.tasks) : k = l ↔ f = fd := by
  obtain ⟨x, hx, -, hslot⟩ := hs.listener
  exact (h.aligned k f hf).2 l x fd hx hslot

/-- Its lock is free. -/
theorem State.Answers.unlocked (hs : s.Answers l fd path) (h : s.Apart) : s.isLocked l = false := by
  obtain ⟨x, hx, hphase, -⟩ := hs.listener
  exact h.ending.unlocked_of_bound hx hphase

end Answers

/-! ## The order of arrival -/

section Order

variable {s : State} {l : Nat} {fd : Fd} {path : Path} {e : Happening}

theorem queue_happen (h : s.Apart) (hs : s.Answers l fd path)
    (hs' : (s.happen e).Answers l fd path) :
    s.host.queue fd ++ (s.joins? fd e).toList.map Prod.fst =
      (s.admits? fd e).toList.map Prod.fst ++ (s.happen e).host.queue fd := by
  have hqueue := Host.queue_deal (h.tidy.sole fd) hs.isListening (s.deal e) hs'.deal
  rw [(sameSockets_happen s e).queue]
  unfold State.joins? State.admits?
  rw [Option.toList_map, Option.toList_map, List.map_map, List.map_map]
  simpa [Function.comp_def] using hqueue.symm

end Order

/-! ## What happens at the door -/

/-- Somebody answers on the path, so the listener is not bound: nothing comes of it but the connect
that is in the queue there. No native call is made, and the listener is as it was. -/
inductive State.Rebuffs (s : State) (k : Nat) (path : Path) : Happening → Prop
  | atOnce (h : s.happen (.start (.bind k path)) =
      { s.note (.began (.bind k path)) with host := (probe s.host path).2 }.finish
        (.failed (.native .bind listenerActive))) : s.Rebuffs k path (.start (.bind k path))
  /-- The bind has begun before, and has let others in. If the owner of the listener has let it go
  by now, it is closed. -/
  | later (fd : Fd) (address : AddressRecord) (rest : List Frame)
      (ht : s.tasks = .working k (.probing fd path address) :: rest)
      (h : s.happen .answer = ({ s with
        host := (probe s.host path).2
        tasks := rest
        history := s.history ++
          [.replied .files, .finished (.failed (.native .bind listenerActive))] } :
            State).closeUnheld k) : s.Rebuffs k path .answer

/-- An accept of the listener is over, and this is the connection that it gives. -/
structure State.HandsOut (s : State) (l : Nat) (e : Happening) (j : Nat) (c : Fd) : Prop where
  answered : e = .answer
  waited : ∃ fd rest, s.tasks = .working l (.accepting fd) :: rest
  number : j = s.connections.length
  connections : (s.happen e).connections = s.connections ++ [some ⟨Connection.ofFd c, true⟩]

/-- What a step is for a listener that is bound to the path. -/
structure State.AtDoor (s : State) (l : Nat) (fd : Fd) (path : Path) (e : Happening) : Prop where
  /-- A client that joins the queue has connected itself, and keeps the near end of its stream. -/
  client : ∀ n i, s.joins? fd e = some (n, .client i) →
    ∃ p c, e = .start (.connect p) ∧ i = s.connections.length ∧
      (s.happen e).connections = s.connections ++ [some ⟨Connection.ofFd c, false⟩] ∧
      (s.happen e).host.descriptor? c = some (.stream n .near)
  /-- Anybody else is a listener that was not bound. -/
  check : ∀ n k, s.joins? fd e = some (n, .check k) → ∃ p, s.Rebuffs k p e
  /-- Any listener that could be bound to the path is one. -/
  rebuffed : ∀ k x p, e = .start (.bind k path) → s.listener? k = some x → s.isLocked k = false →
    x.checkBind path = .ok p →
    s.joins? fd e = some (s.host.streams.length, .check k) ∧ s.Rebuffs k path e
  rebuffedLater : ∀ k x f address rest, e = .answer →
    s.tasks = .working k (.probing f path address) :: rest → s.listeners[k]? = some x →
    s.joins? fd e = some (s.host.streams.length, .check k) ∧ s.Rebuffs k path e
  /-- Whom the listener hands out, it has taken from the queue. -/
  handsOut : ∀ j c, s.HandsOut l e j c →
    ∃ n, s.admits? fd e = some (n, j) ∧ (s.happen e).host.descriptor? c = some (.stream n .far)
  /-- Whoever is taken from the queue is handed out by the listener, with the far end. -/
  admits : ∀ n j, s.admits? fd e = some (n, j) →
    ∃ c, s.HandsOut l e j c ∧ (s.happen e).host.descriptor? c = some (.stream n .far)

section Door

variable {s : State} {l k : Nat} {fd : Fd} {path : Path} {e : Happening}

/-- Only an accept that waits at the socket takes somebody from its queue. -/
theorem deal_eq_accept (hdeal : s.deal e = .accept fd) :
    e = .answer ∧ ∃ k rest, s.tasks = .working k (.accepting fd) :: rest := by
  cases e with
  | start op =>
    cases op <;> simp only [State.deal, reduceCtorEq] at hdeal
    · split at hdeal <;> simp at hdeal
    · split at hdeal <;> (try split at hdeal) <;> simp at hdeal
    · split at hdeal <;> (try split at hdeal) <;> simp at hdeal
  | answer =>
    refine ⟨rfl, ?_⟩
    rcases ht : s.tasks with _ | ⟨f, rest⟩
    · simp [State.deal, ht] at hdeal
    simp only [State.deal, ht, List.head?_cons, Option.elim_some] at hdeal
    cases f with
    | creating config => simp [State.dealOf, State.callOf, Call.deal] at hdeal
    | releasing f quiet => simp [State.dealOf, State.callOf, Call.deal] at hdeal
    | working k t =>
      refine ⟨k, rest, ?_⟩
      rcases hx : s.listeners[k]? with _ | x
      · simp [State.dealOf, hx] at hdeal
      simp only [State.dealOf, hx, Option.elim_some] at hdeal
      cases t with
      | accepting f =>
        obtain rfl := Host.Deal.accept.inj hdeal
        rfl
      | _ => cases hdeal
  | _ => simp [State.deal] at hdeal

/-- Whoever is taken from the queue is taken by an accept of the listener. -/
theorem admits_cases (hs : s.Answers l fd path) (h : s.Apart) {n j : Nat}
    (hadmits : s.admits? fd e = some (n, j)) :
    e = .answer ∧ j = s.connections.length ∧
      ∃ rest, s.tasks = .working l (.accepting fd) :: rest ∧ (s.host.queue fd).head? = some n := by
  obtain ⟨n', hn', heq⟩ := Option.map_eq_some_iff.mp hadmits
  obtain ⟨rfl, rfl⟩ := Prod.mk.inj heq
  obtain ⟨hdeal, hn⟩ := Host.admits?_eq_some hn'
  obtain ⟨rfl, k, rest, ht⟩ := deal_eq_accept hdeal
  obtain rfl : k = l := (hs.accepting h (ht ▸ List.mem_cons_self)).mpr rfl
  exact ⟨rfl, rfl, rest, ht, hn⟩

/-- An accept that finds somebody in the queue takes the first and hands it out. -/
theorem State.happen_accepting {rest : List Frame} {x : Listener} {n : Nat}
    (ht : s.tasks = .working l (.accepting fd) :: rest) (hx : s.listener? l = some x)
    (hslot : x.slot.get ≠ none) (hn : (s.host.queue fd).head? = some n) :
    s.happen .answer =
      ({ s with host := s.host.deal (.accept fd), tasks := rest }.note
        (.replied (.opened (.ok s.host.nextFd)))).addConnection
          (Connection.ofFd s.host.nextFd) true := by
  obtain ⟨hd, hget⟩ := State.listener?_eq_some hx
  obtain ⟨haccept, -⟩ := Host.accept_of_head hn
  have hanswer : s.answer? = some (.opened (.ok s.host.nextFd), s.host.deal (.accept fd)) := by
    simp [State.answer?, ht, State.callOf, hget, Task.call, nativeReply, haccept]
  obtain ⟨f, hf⟩ := Option.ne_none_iff_exists'.mp hslot
  simp only [State.happen, hanswer]
  rw [State.reply_accepting (s := s.step (.world (s.host.deal (.accept fd)))) ht hget]
  simp only [Listener.afterAccept, hf, State.advance]
  exact State.closeUnheld_of_owned
    (s := (({ s with host := s.host.deal (.accept fd), tasks := rest } : State).note
      (.replied (.opened (.ok s.host.nextFd)))).addConnection
        (Connection.ofFd s.host.nextFd) true) hd

/-- An accept that finds nobody in the queue waits on. -/
theorem State.happen_accepting_none {rest : List Frame} {x : Listener}
    (ht : s.tasks = .working l (.accepting fd) :: rest) (hx : s.listeners[l]? = some x)
    (hl : s.host.IsListening fd) (hn : s.host.queue fd = []) : s.happen .answer = s := by
  obtain ⟨file, waiting, hd⟩ := hl
  rw [Host.queue_of_listening hd] at hn
  subst hn
  have hanswer : s.answer? = none := by
    simp [State.answer?, ht, State.callOf, hx, Task.call, nativeReply, Host.accept, hd]
  simp only [State.happen, hanswer]

theorem State.Answers.handsOut (hs : s.Answers l fd path) (h : s.Apart) {j : Nat} {c : Fd}
    (hout : s.HandsOut l e j c) :
    ∃ n, s.admits? fd e = some (n, j) ∧
      (s.happen e).host.descriptor? c = some (.stream n .far) := by
  obtain ⟨x, hx, -, -, hslot⟩ := hs.bound
  have hget := (State.listener?_eq_some hx).2
  obtain ⟨rfl, ⟨f, rest, ht⟩, rfl, hconn⟩ := hout
  obtain rfl : f = fd := (hs.accepting h (ht ▸ List.mem_cons_self)).mp rfl
  rcases hn : (s.host.queue f).head? with _ | n
  · have hsame := State.happen_accepting_none ht hget hs.isListening (List.head?_eq_none_iff.mp hn)
    rw [hsame] at hconn
    simp at hconn
  · have hnext := State.happen_accepting ht hx (by simp [hslot]) hn
    have hc : s.host.nextFd = c := by
      have heq := (congrArg State.connections hnext).symm.trans hconn
      simp only [State.addConnection, State.finish, State.note, List.append_cancel_left_eq,
        List.cons.injEq, and_true, Option.some.injEq, Held.mk.injEq] at heq
      have := congrArg (fun x : Connection => x.handle.fd) heq
      simpa only [fd_ofFd] using this
    subst hc
    refine ⟨n, ?_, ?_⟩
    · simp [State.admits?, State.deal, ht, State.dealOf, hget, Task.deal, Task.call, Call.deal,
        Host.admits?, hn]
    · rw [hnext]
      exact (Host.accept_of_head hn).2

theorem State.Answers.admits (hs : s.Answers l fd path) (h : s.Apart) {n j : Nat}
    (hadmits : s.admits? fd e = some (n, j)) :
    ∃ c, s.HandsOut l e j c ∧ (s.happen e).host.descriptor? c = some (.stream n .far) := by
  obtain ⟨x, hx, -, -, hslot⟩ := hs.bound
  obtain ⟨rfl, rfl, rest, ht, hn⟩ := admits_cases hs h hadmits
  have hnext := State.happen_accepting ht hx (by simp [hslot]) hn
  refine ⟨s.host.nextFd, ⟨rfl, ⟨fd, rest, ht⟩, rfl, by rw [hnext]; rfl⟩, ?_⟩
  rw [hnext]
  exact (Host.accept_of_head hn).2

/-! ### Who joins -/

/-- Whom a connect reaches, it gets an answer from. -/
theorem answered_of_reaches {p : Path} (hreaches : s.host.reaches fd p = true) :
    ∃ c, (s.host.connect p).1 = .ok c := by
  rcases s.host.connect_cases p with ⟨g, file, waiting, -, hc⟩ | ⟨err, hat, -⟩
  · exact ⟨_, by rw [hc]⟩
  · simp [Host.reaches, hat] at hreaches

/-- A bind that somebody answers is refused. -/
theorem State.rebuffs_of_reaches {p : Path} {x : Listener} {a : Fd × AddressRecord} {f : FileId}
    (hx : s.listener? k = some x) (hl : s.isLocked k = false) (hcheck : x.checkBind p = .ok a)
    (hf : SocketAt s.host p f) (hreaches : s.host.reaches fd p = true) :
    s.Rebuffs k p (.start (.bind k p)) := by
  obtain ⟨c, hc⟩ := answered_of_reaches hreaches
  have hbegin : x.beginBind s.host p =
      (.failed (.native .bind listenerActive), (probe s.host p).2) := by
    simp [Listener.beginBind, hcheck, clearWay_answered hf hc, probe_answered hc]
  exact .atOnce (State.step_bind_ends hx hl hbegin)

/-- So is one that has let others in before. -/
theorem State.rebuffsLater_of_reaches {p : Path} {x : Listener} {f : Fd} {address : AddressRecord}
    {rest : List Frame} (ht : s.tasks = .working k (.probing f p address) :: rest)
    (hx : s.listeners[k]? = some x) (hreaches : s.host.reaches fd p = true) :
    s.Rebuffs k p .answer := by
  obtain ⟨c, hc⟩ := answered_of_reaches hreaches
  refine .later f address rest ht ?_
  have hreact : x.react s.host (.reply (.probing f p address) .files) =
      (.failed (.native .bind listenerActive), x, (probe s.host p).2) := by
    simp [Listener.react, Listener.afterProbe, isDead_answered hc, probe_answered hc]
  have hstep : s.happen .answer = s.step (.reply .files) := by
    simp only [State.happen, State.answer?, ht, List.head?_cons, Option.bind_some, State.callOf, hx,
      Task.call]
    rfl
  rw [hstep, State.step_answered ht rfl hx, hreact]
  let popped := { s with tasks := rest }.note (.replied .files)
  refine (State.advanceWith_same (s := popped) hx _ _).trans ?_
  simp only [popped, State.advance, State.finish, State.note, List.append_assoc, List.cons_append,
    List.nil_append]

/-- Only a connect, or a bind that makes a check, brings somebody to a queue. -/
theorem joins_cases {n : Nat} {who : Caller} (hjoins : s.joins? fd e = some (n, who)) :
    n = s.host.streams.length ∧ ∃ p, s.host.reaches fd p = true ∧
      (e = .start (.connect p) ∧ who = .client s.connections.length ∨
        ∃ k, who = .check k ∧ s.deal e = .probe p ∧ s.Rebuffs k p e) := by
  obtain ⟨n', hn', heq⟩ := Option.map_eq_some_iff.mp hjoins
  obtain ⟨rfl, rfl⟩ := Prod.mk.inj heq
  obtain ⟨hn, p, hdeal, hreaches⟩ := Host.joins?_eq_some hn'
  refine ⟨hn, p, hreaches, ?_⟩
  cases e with
  | start op =>
    cases op with
    | connect q =>
      simp only [State.deal, Host.Deal.connect.injEq, reduceCtorEq, or_false] at hdeal
      exact .inl ⟨by rw [hdeal], rfl⟩
    | bind k q =>
      by_cases hchecks : s.checks k q = true
      · simp only [State.deal, if_pos hchecks, reduceCtorEq, Host.Deal.probe.injEq,
          false_or] at hdeal
        subst hdeal
        obtain ⟨x, a, f, hx, hl, hcheck, hf⟩ := checks_eq_true_iff.mp hchecks
        exact .inr ⟨k, rfl, if_pos hchecks, State.rebuffs_of_reaches hx hl hcheck hf hreaches⟩
      · simp [State.deal, hchecks] at hdeal
    | closeConnection i | dropConnection i =>
      simp only [State.deal] at hdeal
      split at hdeal
      · split at hdeal <;> simp at hdeal
      · simp at hdeal
    | _ => simp [State.deal] at hdeal
  | answer =>
    rcases ht : s.tasks with _ | ⟨f, rest⟩
    · simp [State.deal, ht] at hdeal
    have hof : s.dealOf f = .connect p ∨ s.dealOf f = .probe p := by
      simpa [State.deal, ht] using hdeal
    cases f with
    | working k t =>
      rcases hx : s.listeners[k]? with _ | x
      · simp [State.dealOf, hx] at hof
      cases t with
      | probing f q address =>
        obtain rfl : q = p := by simpa [State.dealOf, hx, Task.deal] using hof
        refine .inr ⟨k, by simp [State.caller, ht], ?_,
          State.rebuffsLater_of_reaches ht hx hreaches⟩
        simp [State.deal, ht, State.dealOf, hx, Task.deal]
      | _ => simp [State.dealOf, hx, Task.deal, Task.call, Call.deal] at hof
    | _ => simp [State.dealOf, State.callOf, Call.deal] at hof
  | _ => simp [State.deal] at hdeal

/-- A client that joins a queue keeps the near end of its stream. -/
theorem happen_connect {p : Path} (hreaches : s.host.reaches fd p = true) :
    (s.happen (.start (.connect p))).connections =
        s.connections ++ [some ⟨Connection.ofFd s.host.nextFd, false⟩] ∧
      (s.happen (.start (.connect p))).host.descriptor? s.host.nextFd =
        some (.stream s.host.streams.length .near) := by
  rcases s.host.connect_cases p with ⟨g, file, waiting, -, hc⟩ | ⟨err, hat, -⟩
  · have hstep : s.happen (.start (.connect p)) =
        { s.note (.began (.connect p)) with
          host := s.host.joined g file waiting }.addConnection (Connection.ofFd s.host.nextFd)
            false := by
      simp [State.happen, State.step, State.perform, State.lockOf, State.begin, State.note, hc]
    rw [hstep]
    exact ⟨rfl, (Host.descriptor?_openFd ..).trans (if_pos rfl)⟩
  · simp [Host.reaches, hat] at hreaches

theorem State.Answers.reaches (hs : s.Answers l fd path) : s.host.reaches fd path = true := by
  obtain ⟨file, waiting, -, hat, -⟩ := hs.listens
  simp [Host.reaches, hat]

theorem State.Answers.atDoor (hs : s.Answers l fd path) (h : s.Apart) (e : Happening) :
    s.AtDoor l fd path e where
  client := by
    intro n i hjoins
    obtain ⟨rfl, p, hreaches, ⟨rfl, hwho⟩ | ⟨k, hwho, -⟩⟩ := joins_cases hjoins
    · obtain rfl := Caller.client.inj hwho
      exact ⟨p, s.host.nextFd, rfl, rfl, happen_connect hreaches⟩
    · nomatch hwho
  check := by
    intro n k hjoins
    obtain ⟨-, p, -, ⟨-, hwho⟩ | ⟨k', hwho, -, hrebuffs⟩⟩ := joins_cases hjoins
    · nomatch hwho
    · obtain rfl := Caller.check.inj hwho
      exact ⟨p, hrebuffs⟩
  rebuffed := by
    rintro k x a rfl hx hl hcheck
    obtain ⟨file, waiting, hf, -⟩ := hs.listens
    have hchecks : s.checks k path = true := checks_eq_true_iff.mpr ⟨x, a, file, hx, hl, hcheck, hf⟩
    refine ⟨?_, State.rebuffs_of_reaches hx hl hcheck hf hs.reaches⟩
    simp [State.joins?, State.deal, hchecks, Host.joins?, hs.reaches, State.caller]
  rebuffedLater := by
    rintro k x f address rest rfl ht hx
    refine ⟨?_, State.rebuffsLater_of_reaches ht hx hs.reaches⟩
    simp [State.joins?, State.deal, ht, State.dealOf, hx, Task.deal, Host.joins?, hs.reaches,
      State.caller]
  handsOut _ _ hout := hs.handsOut h hout
  admits _ _ hadmits := hs.admits h hadmits

end Door

/-! ## Runs -/

/-- A run that a bound listener stays bound in. -/
def State.StaysBound (s : State) (l : Nat) (fd : Fd) (path : Path) (es : List Happening) : Prop :=
  ∀ before, before <+: es → (s.live before).Answers l fd path

instance (s : State) (l : Nat) (fd : Fd) (path : Path) (es : List Happening) :
    Decidable (s.StaysBound l fd path es) :=
  decidable_of_iff (∀ i < es.length + 1, (s.live (es.take i)).Answers l fd path)
    ⟨fun h before hbefore => by
      rw [List.prefix_iff_eq_take.mp hbefore]
      exact h _ (Nat.lt_succ_of_le hbefore.length_le),
    fun h i _ => h _ (List.take_prefix i es)⟩

/-- A run in which the listener stays bound. Nobody shares a descriptor with another one, and
whatever the host opens was in no use. -/
structure State.Stands (s : State) (l : Nat) (fd : Fd) (path : Path) (es : List Happening) :
    Prop where
  apart : s.Apart
  opens : s.OpensUnused es
  bound : s.StaysBound l fd path es

/-- What a run is for a listener that stays bound in it. -/
structure State.Attends (s : State) (l : Nat) (fd : Fd) (path : Path) (es : List Happening) :
    Prop where
  steps : ∀ before e after, es = before ++ e :: after → (s.live before).AtDoor l fd path e
  /-- Everybody is accepted in the order of arrival. -/
  order : s.host.queue fd ++ (s.arrivals fd es).map Prod.fst =
    (s.admissions fd es).map Prod.fst ++ (s.live es).host.queue fd
  /-- What is accepted for a listener that was not bound has hung up. -/
  silent : ∀ n k, (n, .check k) ∈ s.arrivals fd es → ∀ c,
    (s.live es).host.descriptor? c = some (.stream n .far) →
    ∀ len, ((s.live es).host.read c len).1 = .ok []

section Runs

variable {s : State} {l : Nat} {fd : Fd} {path : Path} {e : Happening} {es fs : List Happening}

theorem State.StaysBound.now (h : s.StaysBound l fd path es) : s.Answers l fd path :=
  h [] List.nil_prefix

theorem State.StaysBound.next (h : s.StaysBound l fd path (e :: es)) :
    (s.happen e).StaysBound l fd path es :=
  fun before hbefore => h (e :: before) (List.cons_prefix_cons.mpr ⟨rfl, hbefore⟩)

theorem State.Stands.now (h : s.Stands l fd path es) : s.Answers l fd path := h.bound.now

theorem State.Stands.next (h : s.Stands l fd path (e :: es)) : (s.happen e).Stands l fd path es :=
  ⟨h.apart.happen h.opens.1, h.opens.2, h.bound.next⟩

theorem State.Stands.of_append (h : s.Stands l fd path (es ++ fs)) :
    s.Stands l fd path es ∧ (s.live es).Stands l fd path fs := by
  obtain ⟨hes, hfs⟩ := State.opensUnused_append.mp h.opens
  refine ⟨⟨h.apart, hes, fun before hbefore => ?_⟩,
    ⟨h.apart.live hes, hfs, fun before hbefore => ?_⟩⟩
  · exact h.bound before (hbefore.trans (List.prefix_append _ _))
  · rw [← live_append]
    exact h.bound (es ++ before) ((List.prefix_append_right_inj es).mpr hbefore)

/-- A listener that makes a check leaves nothing behind but the end of a stream. -/
theorem silent_of_joins {n k : Nat} (h : s.Apart)
    (hjoins : s.joins? fd e = some (n, .check k)) : (s.happen e).host.Silent n := by
  obtain ⟨rfl, p, hreaches, ⟨-, hwho⟩ | ⟨k', -, hdeal, -⟩⟩ := joins_cases hjoins
  · nomatch hwho
  · have hsame := sameSockets_happen s e
    simp only [hdeal, Host.deal] at hsame
    unfold Host.reaches at hreaches
    split at hreaches
    · rename_i hat
      exact hsame.silent (Host.silent_probe h.tidy.sound hat)
    · simp at hreaches

theorem silent_of_arrival {n k : Nat} (h : s.Stands l fd path es)
    (harrives : (n, .check k) ∈ s.arrivals fd es) : (s.live es).host.Silent n := by
  induction es generalizing s with
  | nil => simp [State.arrivals] at harrives
  | cons e es ih =>
    rcases List.mem_append.mp harrives with hfirst | hlater
    · exact silent_live (silent_of_joins h.apart (Option.mem_toList.mp hfirst)) es
    · exact ih h.next hlater

theorem State.Stands.order (h : s.Stands l fd path es) :
    s.host.queue fd ++ (s.arrivals fd es).map Prod.fst =
      (s.admissions fd es).map Prod.fst ++ (s.live es).host.queue fd := by
  induction es generalizing s with
  | nil => simp [State.arrivals, State.admissions, State.live]
  | cons e es ih =>
    have hstep := queue_happen h.apart h.now h.next.now
    have hrest := ih h.next
    simp only [State.arrivals, State.admissions, List.map_append]
    rw [← List.append_assoc, hstep, List.append_assoc, hrest, List.append_assoc]
    rfl

theorem State.Stands.attends (h : s.Stands l fd path es) : s.Attends l fd path es where
  steps := by
    rintro before e after rfl
    exact h.of_append.2.now.atDoor h.of_append.2.apart e
  order := h.order
  silent _ _ harrives _ hc len := (silent_of_arrival h harrives).read hc len

end Runs

end LocalIpc.Unix

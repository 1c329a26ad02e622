import LocalIpc.Proofs.Host.Silence
import LocalIpc.Proofs.Unix.Removing
import LocalIpc.Unix.Happening
/-!
# Who comes to a listener

A bind that finds a socket file at its path connects to it, to see whether somebody answers, and
hangs up. So the binds that a live listener refuses stand in its queue, among the clients that
connected themselves. Everybody is accepted in the order of arrival.
-/

namespace LocalIpc

/-! ## What a step does to the sockets -/

/-- The hosts differ in their files alone. -/
structure Host.SameSockets (h h' : Host) : Prop where
  descriptors : h'.descriptors = h.descriptors
  streams : h'.streams = h.streams

theorem Host.SameSockets.trans {h h' h'' : Host} (hs : h.SameSockets h')
    (hs' : h'.SameSockets h'') : h.SameSockets h'' :=
  ⟨hs'.descriptors.trans hs.descriptors, hs'.streams.trans hs.streams⟩

theorem Host.SameSockets.isListening {h h' : Host} {fd : Fd} (hs : h.SameSockets h')
    (hl : h'.IsListening fd) : h.IsListening fd := by
  unfold Host.IsListening Host.descriptor? at *
  rwa [← hs.descriptors]

theorem Host.SameSockets.queue {h h' : Host} (hs : h.SameSockets h') (fd : Fd) :
    h'.queue fd = h.queue fd := by
  unfold Host.queue Host.descriptor?
  rw [hs.descriptors]

theorem Host.SameSockets.silent {h h' : Host} {n : Nat} (hs : h.SameSockets h')
    (hsilent : h.Silent n) : h'.Silent n :=
  ⟨hs.streams ▸ hsilent.dead, hs.descriptors ▸ hsilent.gone⟩

theorem Host.SameSockets.tidy {h h' : Host} (hs : h.SameSockets h') (ht : h.Tidy) : h'.Tidy where
  sole fd := Host.sole_congr (ht.sole fd) hs.descriptors
  sound := by
    have hsound := ht.sound
    unfold Host.Sound at *
    rwa [hs.descriptors, hs.streams]

namespace Unix

section Sockets

variable {s : State} {host : Host} {x : Listener} {l : Nat}

theorem sameSockets_refl (h : Host) : h.SameSockets h := ⟨rfl, rfl⟩

theorem sameSockets_remove (host : Host) (path : Path) :
    host.SameSockets (remove host path).2 := by
  unfold remove
  split <;> exact ⟨rfl, rfl⟩

theorem sameSockets_finishEnd (host : Host) (own : Option (Path × FileId)) (quiet : Bool)
    (result : Except ListenerError Unit) :
    host.SameSockets (Listener.finishEnd host own quiet result).2 := by
  rcases own with _ | ⟨path, file⟩
  · exact sameSockets_refl host
  · simp only [Listener.finishEnd, removeOwn]
    split
    · exact sameSockets_remove host path
    · exact sameSockets_refl host

theorem sameSockets_finishClose (x : Listener) (host : Host) (quiet : Bool)
    (r : Except IoError Unit) : host.SameSockets (x.finishClose host quiet r).2 :=
  sameSockets_finishEnd host x.own? quiet (r.mapError (.native .close))

theorem sameSockets_finishGiveUp (host : Host) (path : Path) (created : Option FileId)
    (cause : ListenerError) :
    host.SameSockets (Listener.finishGiveUp host path created cause).2 :=
  sameSockets_finishEnd host (Listener.madeAt path created) false (.error cause)

theorem sameSockets_giveUp (x : Listener) (host : Host) (path : Path) (created : Option FileId)
    (cause : ListenerError) : host.SameSockets (x.giveUp host path created cause).2.2 := by
  unfold Listener.giveUp
  split
  · exact sameSockets_refl host
  · exact sameSockets_finishGiveUp host path created cause

theorem sameSockets_afterListen (x : Listener) (host : Host) (path : Path)
    (created : Option FileId) (r : Except IoError Unit) :
    host.SameSockets (x.afterListen host path created r).2.2 := by
  unfold Listener.afterListen
  split
  · exact sameSockets_giveUp x host path created _
  split
  · exact sameSockets_giveUp x host path created _
  · rename_i hmode
    unfold Listener.applyMode at hmode
    split at hmode
    · obtain rfl := Except.ok.inj hmode
      exact sameSockets_refl host
    · rename_i mode hsome
      cases hchange : host.tree.changeMode path mode with
      | error e => simp [hchange, Except.map] at hmode
      | ok tree =>
        rw [hchange] at hmode
        obtain rfl := Except.ok.inj hmode
        exact ⟨rfl, rfl⟩

/-- A bind that sees whether somebody answers connects and hangs up. -/
theorem sameSockets_afterProbe (host : Host) (fd : Fd) (path : Path) (address : AddressRecord) :
    (Unix.probe host path).2.SameSockets (Listener.afterProbe host fd path address).2 := by
  rw [← host_isDead]
  unfold Listener.afterProbe
  split <;> simp only [*] <;> exact sameSockets_refl _

/-- Any other reaction than that changes nothing but files. -/
theorem sameSockets_react (x : Listener) (host : Host) {g : Trigger}
    (hg : ∀ path, g ≠ .bind path)
    (hr : ∀ fd path address, g ≠ .reply (.probing fd path address) .files) :
    host.SameSockets (x.react host g).2.2 := by
  cases g with
  | bind path => exact absurd rfl (hg path)
  | bindSlowly path => exact sameSockets_refl host
  | accept => exact sameSockets_refl host
  | close quiet =>
    simp only [Listener.react, Listener.beginClose]
    split
    · exact sameSockets_refl host
    · split
      · exact sameSockets_refl host
      · exact sameSockets_finishClose _ host quiet (.ok ())
  | reply t r =>
    cases htakes : t.takes r with
    | false =>
      rw [Listener.react_untaken htakes]
      exact sameSockets_refl host
    | true =>
      cases Task.meets_of_takes htakes with
      | listening k path created r => exact sameSockets_afterListen x host path created r
      | givingUp k path created cause r => exact sameSockets_finishGiveUp host path created cause
      | closing k quiet r => exact sameSockets_finishClose x host quiet r
      | probing fd path address => exact absurd rfl (hr fd path address)
      | clearing fd path address =>
        have hremove := sameSockets_remove host path
        rwa [← Listener.tree_afterClear host fd path address] at hremove
      | sweeping path f quiet result => exact sameSockets_remove host path
      | _ => exact sameSockets_refl host

theorem sameSockets_closeUnheld (s : State) (l : Nat) :
    s.host.SameSockets (s.closeUnheld l).host := by
  rcases s.closeUnheld_cases l with heq | ⟨x, -, heq⟩ <;> rw [heq]
  · exact sameSockets_refl _
  · rw [State.host_take]
    exact sameSockets_react x s.host (by simp) (by simp)

theorem sameSockets_advanceWith (s : State) (l : Nat) (p : Progress × Listener × Host) :
    p.2.2.SameSockets (s.advanceWith l p).host := by
  rcases s.advanceWith_cases l p with heq | heq <;> rw [heq]
  · rw [State.host_take]
    exact sameSockets_refl _
  · have hsame := sameSockets_closeUnheld (s.take l p) l
    rwa [State.host_take] at hsame

theorem sameSockets_answered {t : Task} {r : Reply} {rest : List Frame}
    (ht : s.tasks = .working l t :: rest)
    (htakes : State.Frame.takes (.working l t) r = true) (hx : s.listeners[l]? = some x) :
    (x.react s.host (.reply t r)).2.2.SameSockets (s.step (.reply r)).host := by
  rw [State.step_answered ht htakes hx]
  exact sameSockets_advanceWith ({ s with tasks := rest }.note (.replied r)) l _

/-- A reply is nothing to the sockets, unless a bind goes on to see whether somebody answers. -/
theorem sameSockets_reply (s : State) (r : Reply)
    (hr : ∀ l fd path address rest x, s.tasks = .working l (.probing fd path address) :: rest →
      s.listeners[l]? = some x → r ≠ .files) : s.host.SameSockets (s.step (.reply r)).host := by
  have heffect := s.effect_step (.reply r)
  generalize hs : s.step (.reply r) = s' at heffect ⊢
  cases heffect with
  | answered l x t r rest ht htakes hx =>
    rw [← hs]
    refine (sameSockets_react x s.host (by simp) ?_).trans (sameSockets_answered ht htakes hx)
    rintro fd path address heq
    obtain ⟨rfl, rfl⟩ := Trigger.reply.inj heq
    exact hr l fd path address rest x ht hx rfl
  | _ => exact sameSockets_refl _

end Sockets

/-! ## Arrivals -/

/-- Who joins the queue of a listener. -/
inductive Caller
  /-- A client that connected itself, by the number of its connection. -/
  | client (i : Nat)
  /-- A listener that looked, before it was to be bound, whether somebody answers on the path. -/
  | check (k : Nat)
  deriving DecidableEq

def Call.deal : Call → Host.Deal
  | .socket => .socket
  | .bind fd address => .bind fd address.path
  | .listen fd _ => .listen fd
  | .accept fd _ => .accept fd
  | .shutdown fd => .shutdown fd
  | .close fd => .close fd

/-- What becomes of the sockets when a task goes on. -/
def Task.deal (config : UnixConfig) : Task → Host.Deal
  | .probing _ path _ => .probe path
  | t => (t.call config).elim .idle Call.deal

namespace State

/-- A bind of this listener finds a socket file at the path and looks whether somebody answers. -/
def checks (s : State) (k : Nat) (path : Path) : Bool :=
  (s.listener? k).any (fun x => !s.isLocked k && (x.checkBind path).toOption.isSome) &&
    (s.host.tree.status path).toOption.any fun status => status.kind == .socket

/-- What becomes of the sockets when an operation goes on. -/
def dealOf (s : State) : Frame → Host.Deal
  | .working l t => s.listeners[l]?.elim .idle fun x => t.deal x.config
  | f => (s.callOf f).elim .idle Call.deal

/-- What happens to the sockets. -/
def deal (s : State) : Happening → Host.Deal
  | .start (.connect path) => .connect path
  | .start (.bind k path) => if s.checks k path then .probe path else .idle
  | .start (.closeConnection i) | .start (.dropConnection i) =>
    match s.connection? i with
    | some held => if held.accepted then .idle else .close held.connection.handle.fd
    | none => .idle
  | .start _ => .idle
  | .answer => s.tasks.head?.elim .idle s.dealOf
  | .read fd n => .read fd n
  | .write fd data => .write fd data
  | .files _ => .idle

/-- Who has done it, if it is a connect. -/
def caller (s : State) : Happening → Caller
  | .start (.bind k _) => .check k
  | .answer =>
    match s.tasks with
    | .working k (.probing ..) :: _ => .check k
    | _ => .client s.connections.length
  | _ => .client s.connections.length

/-- Who joins the queue of the listening socket, with the stream it waits with. -/
def joins? (s : State) (fd : Fd) (e : Happening) : Option (Nat × Caller) :=
  (s.host.joins? fd (s.deal e)).map fun n => (n, s.caller e)

/-- The stream that is accepted from the listening socket, with the number of the connection that
comes of it. -/
def admits? (s : State) (fd : Fd) (e : Happening) : Option (Nat × Nat) :=
  (s.host.admits? fd (s.deal e)).map fun n => (n, s.connections.length)

/-- Everybody who joins the queue in the course of a run, in order. -/
def arrivals (s : State) (fd : Fd) : List Happening → List (Nat × Caller)
  | [] => []
  | e :: es => (s.joins? fd e).toList ++ (s.happen e).arrivals fd es

/-- All connections that are accepted in the course of a run, in order. -/
def admissions (s : State) (fd : Fd) : List Happening → List (Nat × Nat)
  | [] => []
  | e :: es => (s.admits? fd e).toList ++ (s.happen e).admissions fd es

end State

/-! ## The sockets after a step -/

section Deals

variable {s : State} {fd : Fd} {l k : Nat} {x : Listener} {path : Path}

theorem nativeReply_deal {h h' : Host} {c : Call} {r : Reply}
    (hr : nativeReply h c = some (r, h')) : h' = h.deal c.deal := by
  cases c with
  | accept fd peer =>
    simp only [nativeReply, Option.map_eq_some_iff] at hr
    obtain ⟨p, hp, heq⟩ := hr
    obtain ⟨-, rfl⟩ := Prod.mk.inj heq
    simp [Call.deal, Host.deal, hp]
  | _ => exact (Prod.mk.inj (Option.some.inj hr)).2.symm

theorem deal_of_nativeReply_none {h : Host} {c : Call} (hr : nativeReply h c = none) :
    h.deal c.deal = h := by
  cases c with
  | accept fd peer =>
    simp only [nativeReply, Option.map_eq_none_iff] at hr
    simp [Call.deal, Host.deal, hr]
  | _ => simp [nativeReply] at hr

/-- What it takes for a bind to make a check. -/
theorem checks_eq_true_iff : s.checks k path = true ↔
    ∃ x p f, s.listener? k = some x ∧ s.isLocked k = false ∧ x.checkBind path = .ok p ∧
      SocketAt s.host path f := by
  unfold State.checks SocketAt
  rcases hx : s.listener? k with _ | x
  · simp
  rcases hstatus : s.host.tree.status path with e | ⟨f, kind⟩
  · simp [Except.toOption]
  rcases hcheck : x.checkBind path with e | ⟨fd, address⟩
  · simp [hcheck, Except.toOption]
  · simp [hcheck, Except.toOption]

theorem host_beginBind {host : Host} {p : Fd × AddressRecord} (hcheck : x.checkBind path = .ok p) :
    (x.beginBind host path).2 = (clearWay host path).2 := by
  simp only [Listener.beginBind, hcheck]
  rcases clearWay host path with ⟨_ | _, host'⟩ <;> rfl

/-- What comes of a bind that makes no check. -/
theorem sameSockets_beginBind (hchecks : ¬ s.checks k path = true) (hx : s.listener? k = some x)
    (hl : s.isLocked k = false) : s.host.SameSockets (x.beginBind s.host path).2 := by
  cases hcheck : x.checkBind path with
  | error e =>
    simp only [Listener.beginBind, hcheck]
    exact sameSockets_refl _
  | ok p =>
    rw [host_beginBind hcheck]
    unfold clearWay
    split
    · exact sameSockets_refl _
    · exact sameSockets_refl _
    · rename_i hlook
      obtain ⟨f, hs⟩ := look_eq_true.mp hlook
      exact absurd (checks_eq_true_iff.mpr ⟨x, p, f, hx, hl, hcheck, hs⟩) hchecks

/-- A bind that makes a check connects and hangs up. -/
theorem sameSockets_beginBind_probe {host : Host} {f : FileId} {p : Fd × AddressRecord}
    (hcheck : x.checkBind path = .ok p) (hs : SocketAt host path f) :
    (Unix.probe host path).2.SameSockets (x.beginBind host path).2 := by
  rw [host_beginBind hcheck, ← host_isDead]
  simp only [clearWay, look_eq_true.mpr ⟨f, hs⟩]
  rcases isDead host path with ⟨e | _ | _, host'⟩
  · exact sameSockets_refl _
  · exact sameSockets_refl _
  · exact sameSockets_remove host' path

/-- What is asked of a listener is nothing to the sockets, unless a bind makes a check. -/
theorem deal_asks {op : Operation} {g : Trigger} (hop : op.asks? = some (k, g))
    (hchecks : ∀ path, g = .bind path → ¬ s.checks k path = true) :
    s.deal (.start op) = .idle := by
  cases op with
  | bind l path =>
    obtain ⟨rfl, rfl⟩ : l = k ∧ Trigger.bind path = g := by simpa [Operation.asks?] using hop
    exact if_neg (hchecks path rfl)
  | bindSlowly | accept | close => rfl
  | _ => simp [Operation.asks?] at hop

theorem deal_letsGo {op : Operation} {i : Nat} {quiet : Bool}
    (hop : op.letsGo? = some (i, quiet)) : s.deal (.start op) = match s.connection? i with
      | some held => if held.accepted then .idle else .close held.connection.handle.fd
      | none => .idle := by
  cases op with
  | closeConnection j | dropConnection j =>
    obtain ⟨rfl, -⟩ := Prod.mk.inj (Option.some.inj hop)
    rfl
  | _ => simp [Operation.letsGo?] at hop

theorem sameSockets_asks {g : Trigger} {op : Operation} (hop : op.asks? = some (k, g))
    (hx : s.listener? k = some x) (hfree : s.isLocked k = false) :
    (s.host.deal (s.deal (.start op))).SameSockets (x.react s.host g).2.2 := by
  by_cases hchecks : ∃ path, g = .bind path ∧ s.checks k path = true
  · obtain ⟨path, rfl, hchecks⟩ := hchecks
    obtain ⟨y, p, f, hy, -, hp, hf⟩ := checks_eq_true_iff.mp hchecks
    obtain rfl := Option.some.inj (hx.symm.trans hy)
    have hdeal : s.deal (.start op) = .probe path := by
      cases op <;> simp_all [Operation.asks?, State.deal]
    rw [hdeal]
    exact sameSockets_beginBind_probe hp hf
  · have hno : ∀ path, g = .bind path → ¬ s.checks k path = true :=
      fun path hg hc => hchecks ⟨path, hg, hc⟩
    rw [deal_asks hop hno]
    cases g with
    | bind path => exact sameSockets_beginBind (hno path rfl) hx hfree
    | reply t r => exact absurd rfl (Operation.asks?_ne_reply hop t r)
    | _ => exact sameSockets_react x s.host (by simp) (by simp)

/-- An operation that begins does to the sockets what it is said to do. -/
theorem sameSockets_start (s : State) (op : Operation) :
    (s.host.deal (s.deal (.start op))).SameSockets (s.step (.start op)).host := by
  have heffect := s.effect_step (.start op)
  generalize s.step (.start op) = s' at heffect ⊢
  -- a bind that cannot go on makes no check
  have hnone : ∀ {l path}, s.listener? l = none → ¬ s.checks l path = true := by
    intro l path hx hchecks
    obtain ⟨x, p, f, hsome, -⟩ := checks_eq_true_iff.mp hchecks
    exact absurd (hx.symm.trans hsome) (by simp)
  cases heffect with
  | waits _ hlock =>
    obtain ⟨l, hl, hlocked⟩ := (Option.any_eq_true ..).mp hlock
    obtain ⟨g, hop⟩ := Operation.asks_of_lockOf hl
    rw [deal_asks hop fun path _ hchecks => ?_]
    · exact sameSockets_refl _
    · obtain ⟨x, p, f, -, hfree, -⟩ := checks_eq_true_iff.mp hchecks
      simp [hfree] at hlocked
  | noListener _ l hop hx =>
    rcases hop with ⟨g, hop⟩ | rfl
    · rw [deal_asks hop fun _ _ => hnone hx]
      exact sameSockets_refl _
    · exact sameSockets_refl _
  | noConnection _ i quiet hop hc =>
    simp only [deal_letsGo hop, hc]
    exact sameSockets_refl _
  | creates config => exact sameSockets_refl _
  | asks _ l x g hop hx hfree =>
    exact (sameSockets_asks hop hx hfree).trans
      (sameSockets_advanceWith (s.note (.began op)) l (x.react s.host g))
  | drops l x hx =>
    exact sameSockets_closeUnheld
      ({ s.note (.began (.drop l)) with dropped := l :: s.dropped }.finish .done) l
  | connects path fd host hc =>
    simp only [State.deal, Host.deal, hc]
    exact sameSockets_refl _
  | refused path e host hc =>
    simp only [State.deal, Host.deal, hc]
    exact sameSockets_refl _
  | releases _ i quiet c hop hc | forgets _ i quiet c hop hc =>
    simp only [deal_letsGo hop, hc]
    exact sameSockets_refl _

/-- What an operation does that waits in a call, that call does. -/
theorem dealOf_of_call {f : Frame} {c : Call} (hc : s.callOf f = some c) :
    s.dealOf f = c.deal := by
  cases f with
  | working l t =>
    obtain ⟨x, hx, hcall⟩ := Option.bind_eq_some_iff.mp hc
    simp only [State.dealOf, hx, Option.elim_some]
    cases t with
    | looking | probing | clearing | sweeping => simp [Task.call] at hcall
    | _ =>
      obtain rfl := Option.some.inj hcall
      rfl
  | _ => simp [State.dealOf, hc]

/-- One that waits before a call to the file system does nothing to the sockets, unless it is about
to see whether somebody answers. -/
theorem dealOf_of_files {f : Frame} (hc : s.callOf f = none)
    (hf : ∀ l fd path address, f = .working l (.probing fd path address) →
      s.listeners[l]? = none) : s.dealOf f = .idle := by
  cases f with
  | working l t =>
    rcases hx : s.listeners[l]? with _ | x
    · simp [State.dealOf, hx]
    simp only [State.dealOf, hx, Option.elim_some]
    cases t with
    | probing fd path address => exact absurd (hx.symm.trans (hf l fd path address rfl)) (by simp)
    | looking | clearing | sweeping => rfl
    | _ => simp [State.callOf, hx, Task.call] at hc
  | _ => simp [State.callOf] at hc

theorem sameSockets_answer (s : State) :
    (s.host.deal (s.tasks.head?.elim .idle s.dealOf)).SameSockets (s.happen .answer).host := by
  unfold State.happen State.answer?
  rcases ht : s.tasks with _ | ⟨f, rest⟩
  · exact sameSockets_reply (s.step (.world s.host)) .files (by simp [State.step, ht])
  simp only [List.head?_cons, Option.elim_some, Option.bind_some]
  rcases hc : s.callOf f with _ | c
  · -- the operation goes on at the file system
    by_cases hprobe : ∃ l fd path address x,
        f = .working l (.probing fd path address) ∧ s.listeners[l]? = some x
    · obtain ⟨l, fd, path, address, x, rfl, hx⟩ := hprobe
      have hdeal : s.dealOf (.working l (.probing fd path address)) = .probe path := by
        simp [State.dealOf, hx, Task.deal]
      rw [hdeal]
      have hanswered := sameSockets_answered (r := .files) (s := s) ht rfl hx
      exact (sameSockets_afterProbe s.host fd path address).trans hanswered
    · have hnone : ∀ l fd path address, f = .working l (.probing fd path address) →
          s.listeners[l]? = none := by
        intro l fd path address hf
        exact Option.eq_none_iff_forall_ne_some.mpr fun x hx =>
          hprobe ⟨l, fd, path, address, x, hf, hx⟩
      rw [dealOf_of_files hc hnone]
      refine sameSockets_reply (s.step (.world s.host)) .files
        fun l fd path address rest' x h hx => ?_
      obtain ⟨rfl, -⟩ := List.cons.inj (ht.symm.trans h)
      exact absurd (hx.symm.trans (hnone l fd path address rfl)) (by simp)
  · rw [dealOf_of_call hc]
    dsimp only
    rcases hr : nativeReply s.host c with _ | ⟨r, host⟩
    · rw [deal_of_nativeReply_none hr]
      exact sameSockets_refl _
    · rw [← nativeReply_deal hr]
      refine sameSockets_reply (s.step (.world host)) r fun l fd path address rest' x h hx => ?_
      obtain ⟨rfl, -⟩ := List.cons.inj (ht.symm.trans h)
      simp [State.callOf, Task.call] at hc

/-- What happens is what it is said to do to the sockets. -/
theorem sameSockets_happen (s : State) (e : Happening) :
    (s.host.deal (s.deal e)).SameSockets (s.happen e).host := by
  cases e with
  | start op => exact sameSockets_start s op
  | answer => exact sameSockets_answer s
  | read fd n => exact sameSockets_refl _
  | write fd data => exact sameSockets_refl _
  | files tree => exact ⟨rfl, rfl⟩

/-- What was hung up before anything was sent stays so. -/
theorem silent_live {n : Nat} (h : s.host.Silent n) (es : List Happening) :
    (s.live es).host.Silent n := by
  induction es generalizing s with
  | nil => exact h
  | cons e es ih => exact ih ((sameSockets_happen s e).silent (h.deal (s.deal e)))

end Deals

end Unix

end LocalIpc

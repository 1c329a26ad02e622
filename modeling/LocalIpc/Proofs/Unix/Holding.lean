import LocalIpc.Proofs.Unix.Arrivals
import LocalIpc.Proofs.Unix.Ending
/-!
# Who holds a descriptor

What a host has opened is held by a listener, by a connection, or by an operation that gives it
back. As long as the host opens no descriptor that is in use, no two of them hold the same one. So
nobody closes what another one holds, and an accept that waits at the socket of a listener is an
accept of that listener.
-/

namespace LocalIpc.Unix

/-! ## Holders -/

/-- The descriptor that a task gives back. -/
def Task.holds? : Task → Option Fd
  | .givingUp fd _ _ _ | .refusing fd | .shuttingDown fd _ | .closing fd _ => some fd
  | .binding .. | .listening .. | .accepting _ => none
  | .looking .. | .probing .. | .clearing .. | .sweeping .. => none

def Frame.holds? : Frame → Option Fd
  | .creating _ => none
  | .working _ t => t.holds?
  | .releasing fd _ => some fd

/-- The descriptors of connections in use, accepted or made by connecting. -/
def connectionFds (connections : List (Option Held)) : List Fd :=
  connections.flatMap fun c => (c.map fun held => held.connection.handle.fd).toList

def State.holds (s : State) : List Fd :=
  s.tasks.filterMap Frame.holds? ++
    (s.listeners.flatMap Listener.owes ++ connectionFds s.connections)

/-- What an operation holds for its caller, or goes on holding. -/
def Progress.holds? : Progress → Option Fd
  | .waits t => t.holds?
  | .accepted client => some client
  | .done | .failed _ | .over => none

/-- The descriptor that comes to a listener with a reply, apart from its own: a client, or the one
that it has shut down. -/
def Trigger.brings? : Trigger → Option Fd
  | .reply (.accepting _) (.opened (.ok client)) => some client
  | .reply (.shuttingDown fd _) (.done _) => some fd
  | _ => none

def Call.closes? : Call → Option Fd
  | .close fd => some fd
  | .socket | .bind .. | .listen .. | .accept .. | .shutdown _ => none

def Reply.opens? : Reply → Option Fd
  | .opened (.ok fd) => some fd
  | .opened (.error _) | .done _ | .doneSlowly _ | .files => none

section Reactions

variable {x : Listener} {host : Host} {g : Trigger} {client : Fd}

theorem Listener.told_ne_accepted (quiet : Bool) (result : Except ListenerError Unit) :
    told quiet result ≠ .accepted client := by
  rcases told_cases quiet result with ⟨e, heq, -⟩ | heq | heq <;> simp [heq]

theorem Listener.giveUp_ne_accepted (x : Listener) (host : Host) (path : Path)
    (created : Option FileId) (cause : ListenerError) :
    (x.giveUp host path created cause).1 ≠ .accepted client := by
  unfold giveUp
  split
  · simp
  · exact told_ne_accepted false (.error cause)

theorem Listener.finishEndSlowly_ne_accepted (host : Host) (own : Option (Path × FileId))
    (quiet : Bool) (result : Except ListenerError Unit) :
    finishEndSlowly host own quiet result ≠ .accepted client := by
  rcases finishEndSlowly_cases host own quiet result with ⟨path, f, -, -, heq⟩ | heq <;> rw [heq]
  · simp
  · exact told_ne_accepted quiet result

theorem Listener.reply_accepted {t : Task} {r : Reply} (hm : t.Meets r)
    (h : (x.react host (.reply t r)).1 = .accepted client) :
    ∃ fd, t = .accepting fd ∧ r = .opened (.ok client) := by
  cases hm with
  | accepting fd r =>
    simp only [react, afterAccept] at h
    split at h
    · simp at h
    split at h
    · exact ⟨fd, rfl, by rw [Progress.accepted.inj h]⟩
    · simp at h
  | binding fd path address r => cases r <;> simp [react, afterBind] at h
  | listening fd path created r =>
    simp only [react, afterListen] at h
    split at h
    · exact absurd h (giveUp_ne_accepted _ _ _ _ _)
    split at h
    · exact absurd h (giveUp_ne_accepted _ _ _ _ _)
    · simp at h
  | refusing | shuttingDown => simp [react] at h
  | givingUp fd path created cause r => exact absurd h (told_ne_accepted false (.error cause))
  | closing fd quiet r => exact absurd h (told_ne_accepted quiet (r.mapError (.native .close)))
  | sweeping path f quiet result => exact absurd h (told_ne_accepted quiet result)
  | givingUpSlowly | closingSlowly => exact absurd h (finishEndSlowly_ne_accepted _ _ _ _)
  | looking fd path address =>
    rcases afterLook_cases host fd path address with ⟨e, heq⟩ | heq | heq <;>
      simp [react, heq] at h
  | probing fd path address =>
    rcases afterProbe_cases host fd path address with ⟨e, heq⟩ | heq | heq <;>
      simp [react, heq] at h
  | clearing fd path address =>
    rcases afterClear_cases host fd path address with ⟨e, heq⟩ | heq <;>
      simp [react, heq] at h

/-- Only an accept hands a client out. -/
theorem Listener.react_accepted (h : (x.react host g).1 = .accepted client) :
    ∃ fd, g = .reply (.accepting fd) (.opened (.ok client)) := by
  cases g with
  | bind path =>
    rcases x.beginBind_cases host path with ⟨e, heq⟩ | ⟨fd, address, heq, -⟩ <;>
      simp [react, heq] at h
  | bindSlowly path =>
    rcases x.beginBindSlowly_cases path with ⟨e, heq⟩ | ⟨fd, address, heq, -⟩ <;>
      simp [react, heq] at h
  | accept =>
    rcases x.beginAccept_cases with ⟨e, heq⟩ | ⟨fd, heq, -⟩ <;> simp [react, heq] at h
  | close quiet =>
    simp only [react, beginClose] at h
    split at h
    · cases quiet <;> simp at h
    split at h
    · simp at h
    · exact absurd h (told_ne_accepted _ _)
  | reply t r =>
    cases htakes : t.takes r with
    | false => simp [react_untaken htakes] at h
    | true =>
      obtain ⟨fd, rfl, rfl⟩ := reply_accepted (Task.meets_of_takes htakes) h
      exact ⟨fd, rfl⟩

/-- A reaction passes on what comes to it and what its listener holds. -/
theorem Listener.react_holds (x : Listener) (host : Host) (g : Trigger) :
    (x.react host g).1.holds?.toList ++ (x.react host g).2.1.owes =
      g.brings?.toList ++ x.owes := by
  rcases hg : g.brings? with _ | fd
  · -- what is held for nobody outside is the listener's own
    have hown : (x.react host g).1.holds? = (x.react host g).1.own? := by
      cases hp : (x.react host g).1 with
      | waits t =>
        cases t with
        | refusing client =>
          cases react_waits hp with
          | refusing fd client => simp [Trigger.brings?] at hg
          | led _ _ h => cases h
        | _ => rfl
      | accepted client =>
        obtain ⟨fd, rfl⟩ := react_accepted hp
        simp [Trigger.brings?] at hg
      | _ => rfl
    by_cases hshut : ∃ fd quiet r, g = .reply (.shuttingDown fd quiet) r
    · obtain ⟨fd, quiet, r, rfl⟩ := hshut
      cases r with
      | done r => simp [Trigger.brings?] at hg
      | _ => rfl
    · rw [hown]
      exact (x.react_passes host fun fd quiet r hr => hshut ⟨fd, quiet, r, hr⟩).symm
  · unfold Trigger.brings? at hg
    split at hg
    · obtain rfl := Option.some.inj hg
      simp only [react, afterAccept]
      split <;> rfl
    · obtain rfl := Option.some.inj hg
      rfl
    · simp at hg

end Reactions

/-! ## What is held after a step -/

section Steps

variable {s : State} {k : Nat} {x : Listener} {g : Trigger} {host : Host} {f : Frame}
  {rest : List Frame} {r : Reply} {c : Call}

theorem State.holds_take (host : Host) (g : Trigger) (hx : s.listeners[k]? = some x) :
    (s.take k (x.react host g)).holds.Perm (g.brings?.toList ++ s.holds) := by
  have hreact := x.react_holds host g
  generalize x.react host g = p at hreact
  obtain ⟨rest, hold, hset⟩ := perm_flatMap_set hx Listener.owes
  have hparts : (s.take k p).holds.Perm (p.1.holds?.toList ++ (s.tasks.filterMap Frame.holds? ++
      ((s.listeners.set k p.2.1).flatMap Listener.owes ++ connectionFds s.connections))) := by
    rcases p with ⟨t | client | _ | e | _, y, h⟩
    · cases ht : t.holds? <;>
        simp [State.take, State.holds, State.wait, State.setListener, Frame.holds?,
          Progress.holds?, ht]
    · have hmore : connectionFds (s.connections ++ [some ⟨Connection.ofFd client, true⟩]) =
          connectionFds s.connections ++ [client] := by
        simp [connectionFds, fd_ofFd]
      refine List.perm_iff_count.mpr fun a => ?_
      simp only [State.take, State.holds, State.addConnection, State.finish, State.note,
        State.setListener, hmore, Progress.holds?, Option.toList_some, List.count_append]
      omega
    · exact .refl _
    · exact .refl _
    · exact .refl _
  refine hparts.trans (List.perm_iff_count.mpr fun a => ?_)
  have hbefore := hold.count_eq a
  have hafter := (hset p.2.1).count_eq a
  have hsame := congrArg (List.count a) hreact
  simp only [State.holds, List.count_append] at hbefore hafter hsame ⊢
  omega

theorem State.holds_closeUnheld (s : State) (k : Nat) : (s.closeUnheld k).holds.Perm s.holds := by
  rcases s.closeUnheld_cases k with heq | ⟨x, hr, heq⟩ <;> rw [heq]
  exact State.holds_take _ _ hr.listener

theorem State.holds_advanceWith (host : Host) (g : Trigger) (hx : s.listeners[k]? = some x) :
    (s.advanceWith k (x.react host g)).holds.Perm (g.brings?.toList ++ s.holds) := by
  have htake := State.holds_take host g hx
  rcases s.advanceWith_cases k (x.react host g) with heq | heq <;> rw [heq]
  · exact htake
  · exact (State.holds_closeUnheld _ k).trans htake

/-- What is asked of a listener closes at once what it opens: the descriptor of a check, if any. -/
theorem closes?_asks {op : Operation} (hop : op.asks? = some (k, g)) :
    s.host.closes? (s.deal (.start op)) = s.host.opens? (s.deal (.start op)) := by
  cases op with
  | bind l path =>
    simp only [State.deal]
    split <;> rfl
  | bindSlowly | accept | close => rfl
  | _ => simp [Operation.asks?] at hop

theorem connectionFds_set {i : Nat} {held : Held} (hc : s.connection? i = some held) :
    (connectionFds s.connections).Perm
      (held.connection.handle.fd :: connectionFds (s.connections.set i none)) := by
  have hget : s.connections[i]? = some (some held) := by
    simpa [State.connection?, Option.join_eq_some_iff] using hc
  obtain ⟨rest, hold, hset⟩ := perm_flatMap_set hget fun c =>
    (c.map fun held => held.connection.handle.fd).toList
  exact hold.trans ((hset none).symm.cons _)

theorem connectionFds_append (connections : List (Option Held)) (fd : Fd) (accepted : Bool) :
    connectionFds (connections ++ [some ⟨Connection.ofFd fd, accepted⟩]) =
      connectionFds connections ++ [fd] := by
  simp [connectionFds, fd_ofFd]

/-- What an operation opens when it begins is held from then on, and what it closes was held. -/
theorem State.holds_start (s : State) (op : Operation) :
    ((s.host.closes? (s.deal (.start op))).toList ++ (s.step (.start op)).holds).Perm
      ((s.host.opens? (s.deal (.start op))).toList ++ s.holds) := by
  have heffect := s.effect_step (.start op)
  generalize s.step (.start op) = s' at heffect ⊢
  cases heffect with
  | waits _ hlock =>
    obtain ⟨l, hl, -⟩ := (Option.any_eq_true ..).mp hlock
    obtain ⟨g, hop⟩ := Operation.asks_of_lockOf hl
    rw [closes?_asks hop]
  | noListener _ l hop hx =>
    rcases hop with ⟨g, hop⟩ | rfl
    · rw [closes?_asks hop]
      exact .refl _
    · exact .refl _
  | noConnection _ i quiet hop hc =>
    simp only [deal_letsGo hop, hc]
    exact .refl _
  | creates config => exact .refl _
  | asks _ l x g hop hx hfree =>
    have hbrings : g.brings? = none := by
      cases g with
      | reply t r => exact absurd rfl (Operation.asks?_ne_reply hop t r)
      | _ => rfl
    have hadvance := State.holds_advanceWith (s := s.note (.began op)) s.host g
      (State.listener?_eq_some hx).2
    rw [hbrings] at hadvance
    rw [closes?_asks hop]
    exact hadvance.append_left _
  | drops l x hx =>
    exact State.holds_closeUnheld
      ({ s.note (.began (.drop l)) with dropped := l :: s.dropped }.finish .done) l
  | connects path fd host hc =>
    -- the host connects just when somebody listens at the path
    obtain ⟨k, file, waiting, hat, heq⟩ | ⟨e, -, heq⟩ := s.host.connect_cases path
    · obtain ⟨hfd, -⟩ := Prod.mk.inj (heq.symm.trans hc)
      obtain rfl := Except.ok.inj hfd
      refine List.perm_iff_count.mpr fun a => ?_
      simp only [State.holds, State.addConnection, State.finish, State.note, State.deal,
        connectionFds_append, Host.opens?, Host.closes?, hat, Except.toOption, Option.map_some,
        Option.toList_some, Option.toList_none, List.count_append, List.count_nil]
      omega
    · exact absurd (heq.symm.trans hc) (by simp)
  | refused path e host hc =>
    obtain ⟨k, file, waiting, -, heq⟩ | ⟨e', hat, -⟩ := s.host.connect_cases path
    · exact absurd (heq.symm.trans hc) (by simp)
    · simp only [State.deal, Host.opens?, Host.closes?, hat]
      exact .refl _
  | releases _ i quiet c hop hc =>
    -- the connection gives its descriptor to the task
    simp only [deal_letsGo hop, hc]
    refine List.perm_iff_count.mpr fun a => ?_
    have hset := (connectionFds_set hc).count_eq a
    simp [State.holds, State.push, State.note, Frame.holds?, Host.closes?, Host.opens?,
      List.count_append, List.count_cons] at hset ⊢
    omega
  | forgets _ i quiet c hop hc =>
    simp only [deal_letsGo hop, hc]
    refine List.perm_iff_count.mpr fun a => ?_
    have hset := (connectionFds_set hc).count_eq a
    simp [State.holds, State.finish, State.note, Host.closes?, Host.opens?,
      List.count_append, List.count_cons] at hset ⊢
    omega

/-- What a task has in its hands is closed by its call, or comes from it. -/
theorem Task.holds_of_takes {t : Task} (config : UnixConfig) (h : t.takes r = true) :
    ((t.call config).bind Call.closes?).toList ++ (Trigger.reply t r).brings?.toList =
      r.opens?.toList ++ t.holds?.toList := by
  cases Task.meets_of_takes h with
  | accepting fd r => cases r <;> rfl
  | _ => rfl

/-- What an operation that goes on holds no more, its call has closed. -/
theorem State.holds_reply (ht : s.tasks = f :: rest) (htakes : State.Frame.takes f r = true)
    (hcall : s.callOf f ≠ none ∨ r = .files)
    (hvalid : ∀ fd, r.opens? = some fd → fd ≠ DescriptorSlot.invalid) :
    (((s.callOf f).bind Call.closes?).toList ++ (s.reply r).holds).Perm
      (r.opens?.toList ++ s.holds) := by
  have hholds : s.holds =
      f.holds?.toList ++ ({ s with tasks := rest }.note (.replied r)).holds := by
    cases hf : f.holds? <;> simp [State.holds, ht, State.note, hf]
  have heffect := s.effect_step (.reply r)
  change Effect s (.reply r) (s.reply r) at heffect
  -- what the tasks below hold is the same on both sides
  rw [hholds]
  generalize s.reply r = s' at heffect ⊢
  cases heffect with
  | ignored _ h => exact absurd htakes (by simp [h f rest ht])
  | notMade config e rest' ht' =>
    obtain ⟨rfl, rfl⟩ := List.cons.inj (ht.symm.trans ht')
    exact .refl _
  | made config fd rest' ht' =>
    obtain ⟨rfl, rfl⟩ := List.cons.inj (ht.symm.trans ht')
    have hslot : (Listener.fresh config fd).owes = [fd] := by
      simp [Listener.owes, Listener.fresh, DescriptorSlot.get, hvalid fd rfl]
    refine List.perm_iff_count.mpr fun a => ?_
    simp [State.holds, State.finish, State.note, hslot, State.callOf, Call.closes?, Reply.opens?,
      Frame.holds?, List.count_append, List.count_cons]
    omega
  | answered l x t _ rest' ht' _ hx =>
    obtain ⟨rfl, rfl⟩ := List.cons.inj (ht.symm.trans ht')
    have hadvance := State.holds_advanceWith (s := { s with tasks := rest }.note (.replied r))
      s.host (.reply t r) hx
    refine (hadvance.append_left _).trans ?_
    have hhands := Task.holds_of_takes x.config htakes
    simp only [State.callOf, hx, Option.bind_some]
    rw [← List.append_assoc, hhands, List.append_assoc]
    exact .refl _
  | lost l t _ rest' ht' htakes' hx =>
    obtain ⟨rfl, rfl⟩ := List.cons.inj (ht.symm.trans ht')
    obtain hcall | rfl := hcall
    · simp [State.callOf, hx] at hcall
    · have hnone : t.holds? = none := by
        cases Task.meets_of_takes htakes' <;> rfl
      simp [State.callOf, hx, Frame.holds?, hnone, Reply.opens?]
  | released fd quiet r rest' o ht' ho =>
    obtain ⟨rfl, rfl⟩ := List.cons.inj (ht.symm.trans ht')
    exact .refl _

/-- An operation that goes on at the file system holds what it held. -/
theorem State.holds_files (ht : s.tasks = f :: rest) (hc : s.callOf f = none) :
    (s.reply .files).holds.Perm s.holds := by
  cases htakes : State.Frame.takes f .files with
  | true =>
    have hreply := State.holds_reply ht htakes (.inr rfl) (by simp [Reply.opens?])
    rwa [hc] at hreply
  | false =>
    have hsame : s.reply .files = s := by simp [State.reply, ht, htakes]
    rw [hsame]

/-- The host replies with what it has opened. -/
theorem opens?_of_nativeReply {h h' : Host} (hr : nativeReply h c = some (r, h')) :
    r.opens? = h.opens? c.deal ∧ c.closes? = h.closes? c.deal := by
  cases c with
  | accept fd peer =>
    refine ⟨?_, rfl⟩
    simp only [nativeReply, Option.map_eq_some_iff] at hr
    obtain ⟨p, hp, heq⟩ := hr
    obtain ⟨rfl, rfl⟩ := Prod.mk.inj heq
    rcases h.accept_cases fd with ⟨file, i, rest, hd, haccept⟩ | ⟨hempty, -, hnone⟩
    · obtain rfl := Option.some.inj (haccept.symm.trans hp)
      simp [Reply.opens?, Call.deal, Host.opens?, Host.queue_of_listening hd]
    · rcases p with ⟨e | client, h'⟩
      · simp [Reply.opens?, Call.deal, Host.opens?, hempty]
      · exact absurd hp (hnone client h')
  | _ =>
    obtain ⟨rfl, -⟩ := Prod.mk.inj (Option.some.inj hr)
    exact ⟨rfl, rfl⟩

/-- The host replies as the call asks. -/
theorem takes_of_nativeReply {h h' : Host} (hc : s.callOf f = some c)
    (hr : nativeReply h c = some (r, h')) : State.Frame.takes f r = true := by
  cases f with
  | creating config =>
    obtain rfl := Option.some.inj hc
    obtain ⟨rfl, -⟩ := Prod.mk.inj (Option.some.inj hr)
    rfl
  | releasing fd quiet =>
    obtain rfl := Option.some.inj hc
    obtain ⟨rfl, -⟩ := Prod.mk.inj (Option.some.inj hr)
    rfl
  | working k t =>
    obtain ⟨x, -, hcall⟩ := Option.bind_eq_some_iff.mp hc
    cases t with
    | looking | probing | clearing | sweeping => simp [Task.call] at hcall
    | accepting fd =>
      obtain rfl := Option.some.inj hcall
      obtain ⟨p, -, heq⟩ := Option.map_eq_some_iff.mp hr
      obtain ⟨rfl, -⟩ := Prod.mk.inj heq
      rfl
    | _ =>
      obtain rfl := Option.some.inj hcall
      obtain ⟨rfl, -⟩ := Prod.mk.inj (Option.some.inj hr)
      rfl

theorem opens?_of_nativeReply_none {h : Host} (hr : nativeReply h c = none) :
    h.opens? c.deal = none ∧ h.closes? c.deal = none := by
  cases c with
  | accept fd peer =>
    simp only [nativeReply, Option.map_eq_none_iff] at hr
    rcases h.accept_cases fd with ⟨file, i, rest, -, haccept⟩ | ⟨hempty, -, -⟩
    · simp [haccept] at hr
    · simp [Call.deal, Host.opens?, Host.closes?, hempty]
  | _ => simp [nativeReply] at hr

/-- At the file system a bind closes at once what it opens, to see whether somebody answers. -/
theorem closes?_dealOf (hc : s.callOf f = none) :
    s.host.closes? (s.dealOf f) = s.host.opens? (s.dealOf f) := by
  cases f with
  | working l t =>
    rcases hx : s.listeners[l]? with _ | x
    · simp [State.dealOf, hx, Host.closes?, Host.opens?]
    simp only [State.dealOf, hx, Option.elim_some]
    cases t with
    | looking | probing | clearing | sweeping => rfl
    | _ => simp [State.callOf, hx, Task.call] at hc
  | _ => simp [State.callOf] at hc

/-- The descriptors that are held come and go with those that are opened and closed. -/
theorem State.holds_happen (s : State) (e : Happening)
    (hvalid : ∀ fd, s.host.opens? (s.deal e) = some fd → fd ≠ DescriptorSlot.invalid) :
    ((s.host.closes? (s.deal e)).toList ++ (s.happen e).holds).Perm
      ((s.host.opens? (s.deal e)).toList ++ s.holds) := by
  cases e with
  | start op => exact s.holds_start op
  | answer =>
    rcases ht : s.tasks with _ | ⟨f, rest⟩
    · have hsame : s.happen .answer = s := by
        have hreply : s.reply .files = s := by simp [State.reply, ht]
        simp only [State.happen, State.answer?, ht, List.head?_nil, Option.bind_none]
        exact hreply
      simp [hsame, State.deal, ht, Host.opens?, Host.closes?]
    have hdeal : s.deal .answer = s.dealOf f := by simp [State.deal, ht]
    rw [hdeal] at hvalid ⊢
    rcases hc : s.callOf f with _ | c
    · have hstep : s.happen .answer = (s.step (.world s.host)).reply .files := by
        simp only [State.happen, State.answer?, ht, List.head?_cons, Option.bind_some, hc]
        rfl
      rw [hstep, closes?_dealOf hc]
      exact (State.holds_files (s := s.step (.world s.host)) ht hc).append_left _
    rw [dealOf_of_call hc] at hvalid ⊢
    rcases hr : nativeReply s.host c with _ | ⟨r, host⟩
    · obtain ⟨hopens, hcloses⟩ := opens?_of_nativeReply_none hr
      simp [State.happen, State.answer?, ht, hc, hr, hopens, hcloses]
    · obtain ⟨hopens, hcloses⟩ := opens?_of_nativeReply hr
      have hstep : s.happen .answer = (s.step (.world host)).reply r := by
        simp only [State.happen, State.answer?, ht, List.head?_cons, Option.bind_some, hc, hr]
        rfl
      rw [hstep, ← hopens, ← hcloses]
      have hc' : (s.step (.world host)).callOf f = some c := hc
      have hreply := State.holds_reply (s := s.step (.world host)) ht (takes_of_nativeReply hc hr)
        (.inl (hc' ▸ Option.some_ne_none c)) fun fd hfd => hvalid fd (hopens ▸ hfd)
      rwa [hc'] at hreply
  | read fd n => exact .refl _
  | write fd data => exact .refl _
  | files tree => exact .refl _

end Steps

/-! ## Where accepts wait -/

def Frame.waitsAt? : Frame → Option Fd
  | .working _ (.accepting fd) => some fd
  | _ => none

/-- An accept waits at the socket of its listener, if that still has it, and at no other's. -/
def State.Aligned (s : State) : Prop :=
  ∀ k f, .working k (.accepting f) ∈ s.tasks → k < s.listeners.length ∧
    ∀ (l : Nat) (x : Listener) (fd : Fd), s.listeners[l]? = some x → x.slot.get = some fd →
      (k = l ↔ f = fd)

section Waits

variable {s m s' : State} {l k : Nat} {x y : Listener} {g : Trigger} {host : Host} {e : Event}
  {fd : Fd}

/-- A listener does not get a descriptor by a reaction. -/
theorem Becomes.slot (h : Becomes x g y) (hy : y.slot.get = some fd) : x.slot.get = some fd := by
  cases h with
  | same => exact hy
  | closed => simp [Listener.retired, DescriptorSlot.get, DescriptorSlot.retire] at hy
  | givenUp => simp [Listener.retired, DescriptorSlot.get, DescriptorSlot.retire] at hy
  | bound => exact hy

/-- Every slot that is not empty was there before. -/
theorem State.slot_take (hx : m.listeners[k]? = some x)
    (hy : (m.take k (x.react host g)).listeners[l]? = some y) (hslot : y.slot.get = some fd) :
    ∃ z, m.listeners[l]? = some z ∧ z.slot.get = some fd := by
  obtain ⟨rfl, rfl⟩ | ⟨-, hy⟩ := State.take_cases hx hy
  · exact ⟨x, hx, (x.react_becomes host g).slot hslot⟩
  · exact ⟨y, hy, hslot⟩

/-- The descriptor of a listener that there was before is the one that it had. -/
theorem State.slot_turn (ht : Turn s e s') (hlt : l < s.listeners.length)
    (hy : s'.listeners[l]? = some y) (hslot : y.slot.get = some fd) :
    ∃ x, s.listeners[l]? = some x ∧ x.slot.get = some fd := by
  induction ht generalizing y with
  | aside e ha => exact ⟨y, ha.listeners ▸ hy, hslot⟩
  | world host => exact ⟨y, hy, hslot⟩
  | made config fd rest ht => exact ⟨y, (List.getElem?_append_left hlt).symm.trans hy, hslot⟩
  | asked op k x g hop hd hr => exact State.slot_take (m := s.note (.began op)) hr.listener hy hslot
  | answered k x t r rest ht htakes hx =>
    exact State.slot_take (m := { s with tasks := rest }.note (.replied r)) hx hy hslot
  | dropped k hk => exact ⟨y, hy, hslot⟩
  | letGo e m k x hm hr ih =>
    obtain ⟨z, hz, hfd⟩ := State.slot_take hr.listener hy hslot
    exact ih hz hfd

theorem State.Aligned.take (h : m.Aligned) (hx : m.listeners[k]? = some x)
    (haccept : ∀ f, (x.react host g).1 = .waits (.accepting f) →
      ∀ (l : Nat) (y : Listener) (fd : Fd), m.listeners[l]? = some y → y.slot.get = some fd →
        (k = l ↔ f = fd)) :
    (m.take k (x.react host g)).Aligned := by
  intro j f hf
  rw [State.length_take]
  rcases State.mem_tasks_take.mp hf with ⟨t, ht, heq⟩ | hold
  · obtain ⟨rfl, rfl⟩ := Frame.working.inj heq
    refine ⟨(List.getElem?_eq_some_iff.mp hx).1, fun l y fd hy hslot => ?_⟩
    obtain ⟨z, hz, hfd⟩ := State.slot_take hx hy hslot
    exact haccept f ht l z fd hz hfd
  · obtain ⟨hlt, hothers⟩ := h j f hold
    refine ⟨hlt, fun l y fd hy hslot => ?_⟩
    obtain ⟨z, hz, hfd⟩ := State.slot_take hx hy hslot
    exact hothers l z fd hz hfd

/-- A new descriptor is one that no accept waits at. -/
theorem State.Aligned.turn (ht : Turn s e s') (h : s.Aligned)
    (hsole : ∀ (k l : Nat) (x y : Listener) (fd : Fd), s.listeners[k]? = some x →
      s.listeners[l]? = some y → x.slot.get = some fd → y.slot.get = some fd → k = l)
    (hmade : ∀ config fd rest, s.tasks = .creating config :: rest → e = .reply (.opened (.ok fd)) →
      ∀ f ∈ s.tasks, f.waitsAt? ≠ some fd) : s'.Aligned := by
  induction ht with
  | aside e ha =>
    intro k f hf
    rw [ha.listeners]
    exact h k f (ha.working k _ hf)
  | world host => exact h
  | made config fd rest ht =>
    intro k f hf
    have hold : .working k (.accepting f) ∈ s.tasks := ht ▸ List.mem_cons_of_mem _ hf
    obtain ⟨hlt, hothers⟩ := h k f hold
    refine ⟨Nat.lt_of_lt_of_le hlt (by simp [State.finish, State.note]), fun l y fd' hy hslot => ?_⟩
    have hy' : (s.listeners ++ [Listener.fresh config fd])[l]? = some y := hy
    rw [List.getElem?_append] at hy'
    split at hy'
    · exact hothers l y fd' hy' hslot
    · rename_i hge
      obtain rfl : y = Listener.fresh config fd := by
        have := List.mem_of_getElem? hy'
        simpa using this
      have hfd : fd' = fd := by
        by_cases hi : fd = DescriptorSlot.invalid
        · simp [Listener.fresh, DescriptorSlot.get, hi] at hslot
        · simpa [Listener.fresh, DescriptorSlot.get, hi, eq_comm] using hslot
      subst hfd
      refine iff_of_false (by omega) fun heq => hmade config fd' rest ht rfl _ hold ?_
      rw [heq]
      rfl
  | asked op k x g hop hd hr =>
    refine State.Aligned.take (m := s.note (.began op)) h hr.listener fun f hf l y fd hy hslot => ?_
    cases Listener.react_waits hf with
    | accepting =>
      -- the accept waits at the descriptor of its listener, and no other listener has that
      obtain ⟨err, heq⟩ | ⟨f', heq, -, hf'⟩ := x.beginAccept_cases
      · simp [Listener.react, heq] at hf
      · obtain rfl : f' = f := by simpa [Listener.react, heq] using hf
        refine ⟨?_, fun heq => hsole k l x y fd hr.listener hy (heq ▸ hf') hslot⟩
        rintro rfl
        obtain rfl := Option.some.inj (hr.listener.symm.trans hy)
        exact Option.some.inj (hf'.symm.trans hslot)
    | led _ _ h => cases h
  | answered k x t r rest ht htakes hx =>
    have hpopped : ({ s with tasks := rest }.note (.replied r)).Aligned :=
      fun j f hf => h j f (ht ▸ List.mem_cons_of_mem _ hf)
    refine hpopped.take hx fun f hf => ?_
    cases Listener.react_waits hf with
    | led _ _ h => cases h
  | dropped k hk => exact h
  | letGo e m k x hm hr ih =>
    refine (ih hmade).take hr.listener fun f hf => ?_
    cases Listener.react_waits hf

end Waits

/-! ## Descriptors in use -/

/-- The descriptor is in no use: it is not open, no accept waits at it, and it is not the one that
stands for none. -/
structure State.Unused (s : State) (fd : Fd) : Prop where
  valid : fd ≠ DescriptorSlot.invalid
  closed : s.host.descriptor? fd = none
  alone : ∀ f ∈ s.tasks, f.waitsAt? ≠ some fd

instance (s : State) (fd : Fd) : Decidable (s.Unused fd) :=
  decidable_of_iff (fd ≠ DescriptorSlot.invalid ∧ s.host.descriptor? fd = none ∧
    ∀ f ∈ s.tasks, f.waitsAt? ≠ some fd)
    ⟨fun ⟨h, h', h''⟩ => ⟨h, h', h''⟩, fun ⟨h, h', h''⟩ => ⟨h, h', h''⟩⟩

/-- Whatever the host opens in the course of a run was in no use. -/
def State.OpensUnused (s : State) : List Happening → Prop
  | [] => True
  | e :: es => (∀ fd ∈ s.host.opens? (s.deal e), s.Unused fd) ∧ (s.happen e).OpensUnused es

instance State.decidableOpensUnused (s : State) : (es : List Happening) →
    Decidable (s.OpensUnused es)
  | [] => isTrue trivial
  | e :: es =>
    have := (s.happen e).decidableOpensUnused es
    decidable_of_iff
      ((s.host.opens? (s.deal e)).all (fun fd => s.Unused fd) = true ∧ (s.happen e).OpensUnused es)
      (by simp [State.OpensUnused, Option.all_eq_true])

/-- Nobody shares a descriptor with another one: what is held is open, and it is held once. -/
structure State.Apart (s : State) : Prop where
  ending : Ending s
  tidy : s.host.Tidy
  nodup : s.holds.Nodup
  opened : ∀ fd ∈ s.holds, s.host.descriptor? fd ≠ none
  aligned : s.Aligned

section Runs

variable {s : State} {l k : Nat} {x y : Listener} {fd : Fd} {e : Happening} {es fs : List Happening}

/-- What happens is a step, or the world changes and then a call returns. -/
theorem State.happen_cases (s : State) (e : Happening) :
    s.happen e = s ∨ (∃ op, e = .start op ∧ s.happen e = s.step (.start op)) ∨
      (∃ host, s.happen e = s.step (.world host)) ∨
      ∃ r host, e = .answer ∧ s.answer? = some (r, host) ∧
        s.happen e = (s.step (.world host)).step (.reply r) := by
  cases e with
  | start op => exact .inr (.inl ⟨op, rfl, rfl⟩)
  | answer =>
    rcases hr : s.answer? with _ | ⟨r, host⟩
    · exact .inl (by simp [State.happen, hr])
    · exact .inr (.inr (.inr ⟨r, host, rfl, rfl, by simp [State.happen, hr]⟩))
  | _ => exact .inr (.inr (.inl ⟨_, rfl⟩))

theorem apart_start {host : Host} (hnone : host.descriptors = []) : (State.start host).Apart where
  ending := ending_run host []
  tidy := Host.tidy_of_closed hnone
  nodup := List.nodup_nil
  opened := by simp [State.start, State.holds, connectionFds]
  aligned := by simp [State.start, State.Aligned]

theorem mem_holds_of_connection {held : Held} (hk : s.connection? k = some held) :
    held.connection.handle.fd ∈ s.holds := by
  have hget : s.connections[k]? = some (some held) := by
    simpa [State.connection?, Option.join_eq_some_iff] using hk
  refine List.mem_append_right _ (List.mem_append_right _ (List.mem_flatMap.mpr ?_))
  exact ⟨_, List.mem_of_getElem? hget, by simp⟩

/-- A descriptor is in the slot of one listener. -/
theorem State.Apart.slot (h : s.Apart) (hx : s.listeners[k]? = some x)
    (hy : s.listeners[l]? = some y) (hxfd : x.slot.get = some fd) (hyfd : y.slot.get = some fd) :
    k = l := by
  have hslots :=
    h.nodup.sublist ((List.sublist_append_left _ _).trans (List.sublist_append_right _ _))
  exact eq_of_mem_flatMap hslots hx hy (Option.mem_toList.mpr hxfd) (Option.mem_toList.mpr hyfd)

theorem Ending.happen (h : Ending s) (e : Happening) : Ending (s.happen e) := by
  rcases s.happen_cases e with heq | ⟨op, -, heq⟩ | ⟨host, heq⟩ | ⟨r, host, -, -, heq⟩ <;> rw [heq]
  · exact h
  · exact h.step _
  · exact h.step _
  · exact (h.step _).step _

theorem slot_happen (hlt : l < s.listeners.length) (hy : (s.happen e).listeners[l]? = some y)
    (hslot : y.slot.get = some fd) : ∃ x, s.listeners[l]? = some x ∧ x.slot.get = some fd := by
  rcases s.happen_cases e with heq | ⟨op, -, heq⟩ | ⟨host, heq⟩ | ⟨r, host, -, -, heq⟩ <;>
    rw [heq] at hy
  · exact ⟨y, hy, hslot⟩
  · exact State.slot_turn (s.turn_step _) hlt hy hslot
  · exact ⟨y, hy, hslot⟩
  · exact State.slot_turn (s := s.step (.world host)) (State.turn_step _ _) hlt hy hslot

theorem length_happen (s : State) (e : Happening) :
    s.listeners.length ≤ (s.happen e).listeners.length := by
  rcases s.happen_cases e with heq | ⟨op, -, heq⟩ | ⟨host, heq⟩ | ⟨r, host, -, -, heq⟩
  · exact Nat.le_of_eq (by rw [heq])
  · exact heq ▸ s.length_step _
  · exact Nat.le_of_eq (by rw [heq]; rfl)
  · exact heq ▸ (s.step (.world host)).length_step _

/-- Nobody holds what the step has closed. -/
theorem State.Apart.nodup_happen (h : s.Apart)
    (hopens : ∀ fd ∈ s.host.opens? (s.deal e), s.Unused fd) :
    ((s.host.closes? (s.deal e)).toList ++ (s.happen e).holds).Nodup := by
  rw [(s.holds_happen e fun fd hfd => (hopens fd hfd).valid).nodup_iff]
  refine List.nodup_append.mpr ⟨by cases s.host.opens? (s.deal e) <;> simp, h.nodup, ?_⟩
  rintro fd hfd _ hheld rfl
  exact h.opened fd hheld (hopens fd (Option.mem_toList.mp hfd)).closed

theorem State.Apart.closes?_ne (h : s.Apart)
    (hopens : ∀ fd ∈ s.host.opens? (s.deal e), s.Unused fd) (hfd : fd ∈ (s.happen e).holds) :
    s.host.closes? (s.deal e) ≠ some fd := fun hcloses =>
  (List.nodup_append.mp (h.nodup_happen hopens)).2.2 fd (Option.mem_toList.mpr hcloses) fd hfd rfl

/-- What is held before a step and after it stays what it is. -/
theorem State.Apart.stays (h : s.Apart) (hopens : ∀ fd ∈ s.host.opens? (s.deal e), s.Unused fd)
    (hfd : fd ∈ s.holds) (hfd' : fd ∈ (s.happen e).holds) :
    s.host.Stays (s.happen e).host fd := by
  have hnew : s.host.opens? (s.deal e) ≠ some fd := fun hnew =>
    h.opened fd hfd (hopens fd hnew).closed
  refine (Host.stays_deal h.tidy.sole _ hnew (h.closes?_ne hopens hfd')).trans (Host.stays_of_eq ?_)
  rw [Host.descriptor?, Host.descriptor?, (sameSockets_happen s e).descriptors]

theorem State.Apart.happen (h : s.Apart)
    (hopens : ∀ fd ∈ s.host.opens? (s.deal e), s.Unused fd) : (s.happen e).Apart := by
  have hsame := sameSockets_happen s e
  refine ⟨h.ending.happen e, ?_, (List.nodup_append.mp (h.nodup_happen hopens)).2.1,
    fun fd hfd => ?_, ?_⟩
  · exact hsame.tidy (h.tidy.deal _ fun fd hfd => (hopens fd hfd).closed)
  · by_cases hnew : s.host.opens? (s.deal e) = some fd
    · have hopen := Host.descriptor?_of_opens hnew (h.closes?_ne hopens hfd)
      unfold Host.descriptor? at hopen ⊢
      rwa [hsame.descriptors]
    · have hmem := (s.holds_happen e fun fd hfd => (hopens fd hfd).valid).subset
        (List.mem_append_right _ hfd)
      have hold : fd ∈ s.holds :=
        (List.mem_append.mp hmem).resolve_left fun hmem => hnew (Option.mem_toList.mp hmem)
      exact (h.stays hopens hold hfd).opened (h.opened fd hold)
  · rcases s.happen_cases e with heq | ⟨op, -, heq⟩ | ⟨host, heq⟩ | ⟨r, host, rfl, hr, heq⟩ <;>
      rw [heq]
    · exact h.aligned
    · exact h.aligned.turn (s.turn_step _) (fun _ _ _ _ _ => h.slot) (by simp)
    · exact h.aligned
    · refine State.Aligned.turn (s := s.step (.world host)) (State.turn_step _ _) h.aligned
        (fun _ _ _ _ _ => h.slot) fun config fd rest ht hfd => (hopens fd ?_).alone
      obtain rfl := Event.reply.inj hfd
      have ht' : s.tasks = .creating config :: rest := ht
      have hdeal : s.deal .answer = .socket := by
        simp [State.deal, ht', State.dealOf, State.callOf, Call.deal]
      have hreply : nativeReply s.host .socket = some (.opened (.ok fd), host) := by
        simpa [State.answer?, ht', State.callOf] using hr
      rw [hdeal]
      exact (opens?_of_nativeReply hreply).1.symm

theorem live_append (s : State) (es fs : List Happening) :
    s.live (es ++ fs) = (s.live es).live fs := List.foldl_append

theorem slot_live (hlt : l < s.listeners.length) (hy : (s.live es).listeners[l]? = some y)
    (hslot : y.slot.get = some fd) : ∃ x, s.listeners[l]? = some x ∧ x.slot.get = some fd := by
  induction es generalizing s with
  | nil => exact ⟨y, hy, hslot⟩
  | cons e es ih =>
    obtain ⟨z, hz, hfd⟩ := ih (Nat.lt_of_lt_of_le hlt (length_happen s e)) hy
    exact slot_happen hlt hz hfd

theorem State.opensUnused_append :
    s.OpensUnused (es ++ fs) ↔ s.OpensUnused es ∧ (s.live es).OpensUnused fs := by
  induction es generalizing s with
  | nil => simp [State.OpensUnused, State.live]
  | cons e es ih =>
    rw [List.cons_append, State.OpensUnused, State.OpensUnused, ih, and_assoc]
    rfl

theorem State.Apart.live (h : s.Apart) (hopens : s.OpensUnused es) : (s.live es).Apart := by
  induction es generalizing s with
  | nil => exact h
  | cons e es ih => exact ih (h.happen hopens.1) hopens.2

end Runs

end LocalIpc.Unix

import LocalIpc.Proofs.Unix.Misuse
import LocalIpc.Proofs.Unix.Removing
import LocalIpc.Unix.Layer
/-!
# Whose path it is

A bind takes a socket file for a dead one when a connect to it is refused, and a connect is refused
as long as the socket of the file does not listen. So the file of a listener is lost to every bind
that comes between its native bind and its native listen. From then on a bind that looks at the file
finds it in use; but one that looked before removes what is at the path by now, and an operation at
its end removes any file that has the identity of its own.
-/

namespace LocalIpc.Unix

/-! ## Removals -/

section Files

variable {r : Nat → Path → FileId → Prop} {s : State} {l : Nat} {x : Listener} {e : Event}
  {t : Task} {path : Path} {f : FileId} {fd : Fd} {address : AddressRecord} {rest : List Frame}

/-- A removal at the end of an operation. -/
theorem Listener.last?_removes {host : Host} {reply : Except IoError Unit}
    (ho : x.last? t = some (path, f)) (hs : SocketAt host path f)
    (hg : host.tree.Removes path f) : t.takes (.done reply) = true ∧
      (x.react host (.reply t (.done reply))).2.2.tree = host.tree.erase f := by
  cases t with
  | givingUp fd p created cause =>
    have hown := Listener.madeAt_eq_some.mp ho
    exact ⟨rfl, (triesOwn_finishGiveUp host p created cause).removed path f hown hs hg⟩
  | closing fd quiet =>
    have hown := Listener.cleansUp_iff.mpr ho
    exact ⟨rfl, (triesOwn_finishClose x host quiet reply).removed path f hown hs hg⟩
  | _ => simp [last?] at ho

theorem Listener.late_removes {host : Host} (hp : t.removes? = some path)
    (hg : host.tree.Removes path f) :
    (x.react host (.reply t .files)).2.2.tree = host.tree.erase f := by
  have hremove : (remove host path).2.tree = host.tree.erase f := by
    rw [remove_removes hg]
    rfl
  cases t with
  | clearing fd p address =>
    obtain rfl := Option.some.inj hp
    exact (congrArg Host.tree (tree_afterClear host fd p address)).trans hremove
  | sweeping p own quiet result =>
    obtain rfl := Option.some.inj hp
    exact hremove
  | _ => simp [Task.removes?] at hp

theorem Traced.lost_of_takes (h : Traced r s) (ht : Takes r s e f) :
    ¬ (s.step e).host.tree.Holds f := by
  have herase : (s.step e).host.tree = s.host.tree.erase f := by
    cases ht with
    | dead l x path fd address f hx hl hc hs hr hg =>
      rw [State.step_bind hx hl, Listener.beginBind_refused hc hs hr hg]
      rfl
    | late l x t path f rest ht hx hp hg =>
      rw [h.tree_answered ht (Task.takes_files_of_removes? hp) hx]
      exact Listener.late_removes hp hg
    | own l x t path f rest reply ht hx ho hr hs hg =>
      obtain ⟨htakes, htree⟩ := Listener.last?_removes ho hs hg
      rw [h.tree_answered ht htakes hx, htree]
  rw [herase]
  exact Tree.not_holds_erase _ f

/-- A path that a listener can be bound to can be connected to. -/
theorem Listener.checkAddress_of_checkBind (h : x.checkBind path = .ok (fd, address)) :
    Host.checkAddress path = .ok () := by
  obtain ⟨-, hne, haddress, -⟩ := checkBind_eq_ok.mp h
  unfold AddressRecord.encode at haddress
  split at haddress
  · simp at haddress
  split at haddress
  · rename_i hzero hlong
    -- what leaves room for the end mark fits into an address
    have hroom : ¬ AddressRecord.pathRoom ≤ path.length := by
      simp only [AddressRecord.longestPath, AddressRecord.pathRoom] at hlong ⊢
      omega
    simp [Host.checkAddress, hzero, hroom, hne]
  · simp at haddress

/-- A bind finds a socket file that listens in use. -/
theorem Listener.isDead_listening {host : Host} (hc : x.checkBind path = .ok (fd, address))
    (hs : SocketAt host path f) (hl : host.Listens f) :
    ∃ host', isDead host path = (.error listenerActive, host') ∧ host'.tree = host.tree := by
  obtain ⟨client, hclient⟩ := Host.connect_of_listens (checkAddress_of_checkBind hc) hs hl
  exact ⟨_, isDead_answered hclient, tree_answered host path client⟩

theorem Listener.beginBind_listening {host : Host} (hc : x.checkBind path = .ok (fd, address))
    (hs : SocketAt host path f) (hl : host.Listens f) :
    ∃ host', x.beginBind host path = (.failed (.native .bind listenerActive), host') ∧
      host'.tree = host.tree := by
  obtain ⟨host', hdead, htree⟩ := isDead_listening hc hs hl
  exact ⟨host', by simp [beginBind, hc, clearWay, look_eq_true.mpr ⟨f, hs⟩, hdead], htree⟩

/-- A bind finds a socket file dead that does not listen. -/
theorem Listener.refused_of_not_listens {host : Host} (hc : x.checkBind path = .ok (fd, address))
    (hs : SocketAt host path f) (hl : ¬ host.Listens f) (hd : ¬ host.HasDatagram f) :
    Refused host path :=
  ⟨_, Host.connect_of_not_listens (checkAddress_of_checkBind hc) hs hl hd, by decide⟩

/-- A bind that is alone with the files takes away what does not listen. -/
theorem State.step_bind_dead (hx : s.listener? l = some x) (hl : s.isLocked l = false)
    (hc : x.checkBind path = .ok (fd, address)) (hs : SocketAt s.host path f)
    (hr : Refused s.host path) (hg : s.host.tree.Removes path f) :
    ¬ (s.step (.start (.bind l path))).host.tree.Holds f ∧
      (s.step (.start (.bind l path))).tasks =
        .working l (.binding fd path address) :: s.tasks := by
  rw [State.step_bind hx hl, Listener.beginBind_refused hc hs hr hg]
  exact ⟨Tree.not_holds_erase _ f, rfl⟩

/-- One that is not finds out, and goes on to remove what is at the path. -/
theorem State.step_probing (ht : s.tasks = .working l (.probing fd path address) :: rest)
    (hx : s.listener? l = some x) (hr : Refused s.host path) :
    (s.step (.reply .files)).host = s.host ∧
      (s.step (.reply .files)).tasks = .working l (.clearing fd path address) :: rest := by
  have hreact : x.react s.host (.reply (.probing fd path address) .files) =
      (.waits (.clearing fd path address), x, s.host) := by
    simp [Listener.react, Listener.afterProbe, isDead_refused hr]
  rw [step_waits ht rfl hx hreact]
  exact ⟨rfl, rfl⟩

theorem State.step_probing_listening {host' : Host}
    (ht : s.tasks = .working l (.probing fd path address) :: rest) (hx : s.listener? l = some x)
    (hd : isDead s.host path = (.error listenerActive, host')) (htree : host'.tree = s.host.tree) :
    (s.step (.reply .files)).host.tree = s.host.tree ∧ s.news (.reply .files) =
      [.replied .files, .finished (.failed (.native .bind listenerActive))] := by
  have hreact : x.react s.host (.reply (.probing fd path address) .files) =
      (.failed (.native .bind listenerActive), x, host') := by
    simp [Listener.react, Listener.afterProbe, hd]
  have hstep := step_ends (o := .failed (.native .bind listenerActive)) ht rfl hx hreact rfl
  rw [news, hstep]
  exact ⟨htree, List.drop_left ..⟩

end Files

/-! ## Who loses a file -/

/-- Whether the socket of the file at its path listens decides what a bind makes of it. -/
structure DeadUnlessListening (s : State) : Prop where
  /-- A bind takes a file away that does not listen, and goes on to its native bind. -/
  taken : ∀ l x path f fd address, s.listener? l = some x → s.isLocked l = false →
    x.checkBind path = .ok (fd, address) → SocketAt s.host path f → ¬ s.host.Listens f →
    ¬ s.host.HasDatagram f → s.host.tree.Removes path f →
    ¬ (s.step (.start (.bind l path))).host.tree.Holds f ∧
      (s.step (.start (.bind l path))).tasks = .working l (.binding fd path address) :: s.tasks
  /-- When the file listens it fails, and the files stay as they are. -/
  refused : ∀ l x path f fd address, s.listener? l = some x → s.isLocked l = false →
    x.checkBind path = .ok (fd, address) → SocketAt s.host path f → s.host.Listens f →
    (s.step (.start (.bind l path))).host.tree = s.host.tree ∧
      s.news (.start (.bind l path)) =
        [.began (.bind l path), .finished (.failed (.native .bind listenerActive))]
  /-- A bind that lets others in decides in the same way, but removes the file later. -/
  doomed : ∀ l x path f fd address rest, s.tasks = .working l (.probing fd path address) :: rest →
    s.listener? l = some x → x.checkBind path = .ok (fd, address) → SocketAt s.host path f →
    ¬ s.host.Listens f → ¬ s.host.HasDatagram f →
    (s.step (.reply .files)).host = s.host ∧
      (s.step (.reply .files)).tasks = .working l (.clearing fd path address) :: rest
  spared : ∀ l x path f fd address rest, s.tasks = .working l (.probing fd path address) :: rest →
    s.listener? l = some x → x.checkBind path = .ok (fd, address) → SocketAt s.host path f →
    s.host.Listens f →
    (s.step (.reply .files)).host.tree = s.host.tree ∧ s.news (.reply .files) =
      [.replied .files, .finished (.failed (.native .bind listenerActive))]
  /-- What a native bind has made does not listen before its native listen, and listens after it. -/
  between : ∀ fd path host, s.host.bind fd path false = (.ok (), host) →
    ∃ f, host.descriptor? fd = some (.bound f false) ∧ ¬ host.Listens f ∧ ¬ host.HasDatagram f ∧
      (host.listen fd).2.Listens f

theorem State.deadUnlessListening (s : State) : DeadUnlessListening s where
  taken := by
    intro l x path f fd address hx hl hc hs hn hd hg
    exact State.step_bind_dead hx hl hc hs (Listener.refused_of_not_listens hc hs hn hd) hg
  refused := by
    intro l x path f fd address hx hl hc hs hlisten
    obtain ⟨host', hbegin, htree⟩ := Listener.beginBind_listening hc hs hlisten
    obtain ⟨hhost, hnews⟩ := State.step_bind_failed hx hl hbegin
    exact ⟨by rw [hhost, htree], hnews⟩
  doomed := by
    intro l x path f fd address rest ht hx hc hs hn hd
    exact State.step_probing ht hx (Listener.refused_of_not_listens hc hs hn hd)
  spared := by
    intro l x path f fd address rest ht hx hc hs hlisten
    obtain ⟨host', hdead, htree⟩ := Listener.isDead_listening hc hs hlisten
    exact State.step_probing_listening ht hx hdead htree
  between := by
    intro fd path host hb
    obtain ⟨f, hd, hsilent, hdatagram⟩ := Host.silent_of_bind hb
    exact ⟨f, hd, hsilent, hdatagram, Host.listens_of_listen hd⟩

/-- After the events the socket of the file listens, and what happens next leaves the file alone: it
is no late removal of the file, no listener that takes the file for its own comes to its end, and
other processes leave the file where it is. -/
structure Undisturbed (host : Host) (es : List (Nat × Event)) (f : FileId) (i : Nat) (e : Event) :
    Prop where
  listens : ((State.start host).interleave es).host.Listens f
  kept : ∀ host', e = .world host' → host'.tree.Holds f
  late : ∀ l t path rest,
    (((State.start host).interleave es).raise i).tasks = .working l t :: rest →
    t.removes? = some path → e = .reply .files →
    ¬ ((State.start host).interleave es).host.tree.Removes path f
  owned : ∀ l x t path rest reply,
    (((State.start host).interleave es).raise i).tasks = .working l t :: rest →
    ((State.start host).interleave es).listeners[l]? = some x → e = .reply (.done reply) →
    x.last? t ≠ some (path, f)

theorem Undisturbed.keeps {host : Host} {es : List (Nat × Event)} {f : FileId} {i : Nat} {e : Event}
    (h : Undisturbed host es f i e)
    (hf : ((State.start host).interleave es).host.tree.Holds f) :
    ((State.start host).interleave (es ++ [(i, e)])).host.tree.Holds f := by
  rw [State.interleave_append]
  show ((((State.start host).interleave es).raise i).step e).host.tree.Holds f
  have htraced := (traced_interleave host es).raise i
  generalize hs : (State.start host).interleave es = s at *
  by_cases he : ∃ host', e = .world host'
  · obtain ⟨host', rfl⟩ := he
    exact h.kept host' rfl
  have hheld : (s.raise i).host.tree.Holds f := by rwa [State.host_raise]
  refine Classical.byContradiction fun hlost => ?_
  -- the three ways to lose a file, of which the first one needs that it does not listen
  cases htraced.takes_of_lost (fun host' heq => he ⟨host', heq⟩) hheld hlost with
  | dead l x path fd address f hx hl hc hat hr hg =>
    rw [State.host_raise] at hat hr
    exact hr.not_listens hat (hs ▸ h.listens)
  | late l x t path f rest ht hx hp hg =>
    rw [State.host_raise] at hg
    exact h.late l t path rest (hs ▸ ht) hp rfl (hs ▸ hg)
  | own l x t path f rest reply ht hx ho =>
    rw [State.listeners_raise] at hx
    exact h.owned l x t path rest reply (hs ▸ ht) (hs ▸ hx) rfl ho

theorem stays_undisturbed {host : Host} {es : List (Nat × Event)} {f : FileId}
    (hf : ((State.start host).interleave es).host.tree.Holds f) (later : List (Nat × Event))
    (h : ∀ before i e, before ++ [(i, e)] <+: later → Undisturbed host (es ++ before) f i e) :
    ((State.start host).interleave (es ++ later)).host.tree.Holds f := by
  induction later generalizing es with
  | nil => simpa using hf
  | cons e later ih =>
    have hnow : Undisturbed host es f e.1 e.2 := by simpa using h [] e.1 e.2 ⟨later, rfl⟩
    have hlater := ih (hnow.keeps hf) fun before i e' hp => by
      have := h (e :: before) i e' (by simpa using hp)
      simpa using this
    simpa using hlater

/-- After a run, which steps take a socket file away, and which do not. -/
structure SafeWhileListening (host : Host) (es : List (Nat × Event)) : Prop
    extends DeadUnlessListening ((State.start host).interleave es) where
  /-- A file goes in these steps, and in no others. -/
  lost : ∀ e f, (∀ host', e ≠ .world host') →
    ((State.start host).interleave es).host.tree.Holds f →
    (¬ (((State.start host).interleave es).step e).host.tree.Holds f ↔
      Takes (Recorded host es) ((State.start host).interleave es) e f)
  /-- A file that goes on listening stays as long as nothing disturbs it. -/
  stays : ∀ path f, SocketAt ((State.start host).interleave es).host path f → ∀ later,
    (∀ before i e, before ++ [(i, e)] <+: later → Undisturbed host (es ++ before) f i e) →
    ((State.start host).interleave (es ++ later)).host.tree.Holds f

/-- In every run, in whatever order the operations go on, a bind takes a socket file for dead just
when its socket does not listen. A file that listens is lost to nobody but a removal that was
decided on before, and an operation at its end that takes the file for its own. -/
theorem files_safe_while_listening (host : Host) (es : List (Nat × Event)) :
    SafeWhileListening host es where
  toDeadUnlessListening := State.deadUnlessListening _
  lost := fun _ _ he hf => ⟨(traced_interleave host es).takes_of_lost he hf,
    (traced_interleave host es).lost_of_takes⟩
  stays := fun _ _ hs later h => stays_undisturbed (Tree.holds_of_status hs) later h

/-- A listener is bound to a path between the native bind and the native listen of another one. It
takes the file of the other one away, and in the end both are bound to the path. -/
theorem bound_twice_to_one_path :
    let made := ((State.start .fresh).carryOut (.create .default)).carryOut (.create .default)
    let first := State.settle 0 1 (made.perform (.bind 0 [115]))
    let both := State.settle 0 State.callBound (first.carryOut (.bind 1 [115]))
    (first.tasks = [.working 0 (.listening 3 [115] (some 5))] ∧ SocketAt first.host [115] 5) ∧
      ¬ both.host.tree.Holds 5 ∧ SocketAt both.host [115] 6 ∧
      both.listeners.map (fun x => (x.phase, x.path)) =
        [(.bound, some [115]), (.bound, some [115])] := by
  refine ⟨⟨rfl, rfl⟩, ?_, rfl, rfl⟩
  unfold Tree.Holds
  decide

/-- A bind finds a dead file at its path. Before it removes the file, another listener does, and is
bound to the path and listens; then the first bind removes the file of that one. -/
theorem late_removal_takes_listening_file :
    let made := ((State.start leftBehind).carryOut (.create .default)).carryOut (.create .default)
    let looked := (made.perform (.bindSlowly 0 [115])).run [.reply .files, .reply .files]
    let bound := looked.carryOut (.bind 1 [115])
    let both := State.settle 0 State.callBound (bound.step (.reply .files))
    (∃ fd address, looked.tasks = [.working 0 (.clearing fd [115] address)]) ∧
      (SocketAt bound.host [115] 6 ∧ bound.host.Listens 6) ∧ ¬ both.host.tree.Holds 6 ∧
      both.listeners.map (fun x => (x.phase, x.path)) =
        [(.bound, some [115]), (.bound, some [115])] := by
  refine ⟨⟨_, _, rfl⟩, ⟨rfl, _, _, _, rfl⟩, ?_, rfl⟩
  unfold Tree.Holds
  decide

/-- The file of a listener gets the identity that the file of another one had, which is just being
closed, and goes when that one comes to its end. -/
theorem identity_that_came_back_is_removed :
    let host : Host := { Host.fresh with tree.recycles := true }
    let made := ((State.start host).carryOut (.create .default)).carryOut (.create .default)
    let first := made.carryOut (.bind 0 [115])
    let closing := State.settle 0 1 (first.perform (.close 0))
    let released : State := { closing with host := (closing.host.close 3).2 }
    let second := released.carryOut (.bind 1 [115])
    let ended := second.step (.reply (.done (.ok ())))
    (SocketAt first.host [115] 5 ∧ closing.tasks = [.working 0 (.closing 3 false)]) ∧
      (SocketAt second.host [115] 5 ∧ second.host.Listens 5) ∧ ¬ ended.host.tree.Holds 5 ∧
      ended.listeners.map (fun x => (x.phase, x.path)) =
        [(.closed, some [115]), (.bound, some [115])] := by
  refine ⟨⟨rfl, rfl⟩, ⟨rfl, _, _, _, rfl⟩, ?_, rfl⟩
  unfold Tree.Holds
  decide

end LocalIpc.Unix

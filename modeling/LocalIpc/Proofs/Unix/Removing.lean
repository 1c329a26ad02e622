import LocalIpc.Proofs.Unix.Altering
import LocalIpc.Proofs.Unix.Locked
/-!
# The files that a listener removes

A listener removes a socket file at the path that it is about to be bound to, on which a connect is
refused, and at its end the socket file that it takes for its own. Every other file stays, whatever
it is, and a file that bars the way of a bind makes the bind fail. The system may refuse a removal,
and then the file stays as well.
-/

namespace LocalIpc.Unix

/-! ## Binds -/

section Binds

variable {s : State} {l : Nat} {x : Listener} {path : Path} {f : FileId} {fd : Fd}
  {address : AddressRecord}

/-- A bind looks at the path of a listener that has an owner, with the lock free. -/
theorem State.step_bind (hx : s.listener? l = some x) (hl : s.isLocked l = false) (path : Path) :
    s.step (.start (.bind l path)) =
      { s.note (.began (.bind l path)) with host := (x.beginBind s.host path).2 }.advance l x.config
        (x.beginBind s.host path).1 := by
  obtain ⟨-, hget⟩ := State.listener?_eq_some hx
  rw [State.step_asks rfl hx hl]
  exact State.advanceWith_same (s := s.note (.began (.bind l path))) hget _ _

/-- A bind that fails before its native call is over at once. -/
theorem State.step_bind_ends {host : Host} {err : ListenerError} (hx : s.listener? l = some x)
    (hl : s.isLocked l = false) (hb : x.beginBind s.host path = (.failed err, host)) :
    s.step (.start (.bind l path)) =
      { s.note (.began (.bind l path)) with host }.finish (.failed err) := by
  have hd := (State.listener?_eq_some hx).1
  rw [State.step_bind hx hl, hb]
  exact State.closeUnheld_of_owned
    (s := { s.note (.began (.bind l path)) with host }.finish (.failed err)) hd

/-- It changes nothing but the host, and makes no native call. -/
theorem State.step_bind_failed {host : Host} {err : ListenerError} (hx : s.listener? l = some x)
    (hl : s.isLocked l = false) (hb : x.beginBind s.host path = (.failed err, host)) :
    (s.step (.start (.bind l path))).host = host ∧
      s.news (.start (.bind l path)) = [.began (.bind l path), .finished (.failed err)] := by
  rw [State.news, State.step_bind_ends hx hl hb]
  exact ⟨rfl, by simp [State.finish, State.note]⟩

/-- What bars the way of a bind is left where it is, and no native call is made. -/
theorem Listener.beginBind_barred (x : Listener) {host : Host} (h : Barred host path) :
    ∃ err host', x.beginBind host path = (.failed err, host') ∧ host'.tree = host.tree := by
  unfold beginBind
  split
  · exact ⟨_, host, rfl, rfl⟩
  · obtain ⟨e, host', heq, htree⟩ := clearWay_barred h
    rw [heq]
    exact ⟨_, host', rfl, htree⟩

theorem Listener.beginBind_refused {host : Host} (hc : x.checkBind path = .ok (fd, address))
    (hs : SocketAt host path f) (hr : Refused host path) (hg : host.tree.Removes path f) :
    x.beginBind host path = (.waits (.binding fd path address), host.without f) := by
  simp [beginBind, hc, clearWay_refused hs hr, remove_removes hg]

theorem Listener.beginBind_stuck {host : Host} {e : IoError}
    (hc : x.checkBind path = .ok (fd, address)) (hs : SocketAt host path f)
    (hr : Refused host path) (he : host.tree.unlink path = .error e) :
    x.beginBind host path = (.failed (.native .bind e), host) := by
  simp [beginBind, hc, clearWay_refused hs hr, remove_stuck he]

/-- A native listen that fails, or permissions that cannot be given, make the bind give up. -/
theorem Listener.afterListen_failing {host : Host} {result : Except IoError Unit} (hb : x.Binding)
    (created : Option FileId)
    (h : (∃ e, result = .error e) ∨
      ∃ mode e, x.config.mode = some mode ∧ host.tree.changeMode path mode = .error e) :
    ∃ fd cause, x.afterListen host path created result =
      (.waits (.givingUp fd path created cause), x.retired, host) := by
  cases result with
  | error e =>
    obtain ⟨fd, heq⟩ := giveUp_eq hb host path created (.native .listen e)
    exact ⟨fd, _, heq⟩
  | ok u =>
    obtain ⟨e, he⟩ | ⟨mode, e, hm, htree⟩ := h
    · simp at he
    · obtain ⟨fd, heq⟩ := giveUp_eq hb host path created (.native .bind e)
      refine ⟨fd, .native .bind e, ?_⟩
      simpa [afterListen, applyMode, hm, htree, Except.map] using heq

/-- A listener whose file has its permissions is bound. -/
theorem State.step_listening {rest : List Frame} {host : Host} {created : Option FileId}
    (ht : s.tasks = .working l (.listening fd path created) :: rest)
    (hx : s.listener? l = some x) (hm : Listener.applyMode x.config s.host path = .ok host) :
    s.step (.reply (.done (.ok ()))) = { s with
      host
      listeners := s.listeners.set l { x with phase := .bound, path := some path, created }
      tasks := rest
      history := s.history ++ [.replied (.done (.ok ())), .finished .done] } := by
  have hafter : x.afterListen s.host path created (.ok ()) =
      (.done, { x with phase := .bound, path := some path, created }, host) := by
    simp [Listener.afterListen, hm]
  exact step_ends ht rfl hx hafter rfl

end Binds

/-! ## Closes -/

/-- The step from `s` to `s'` begins the close of listener `l`, which is `x` in `s`. The native
shutdown comes first, and no file goes yet. -/
structure State.BeginsClose (s s' : State) (l : Nat) (x : Listener) (quiet : Bool) : Prop where
  tasks : ∃ fd, x.slot.get = some fd ∧ s'.tasks = .working l (.shuttingDown fd quiet) :: s.tasks
  listener : s'.listeners[l]? = some x.retired
  tree : s'.host.tree = s.host.tree

/-- From the native shutdown on, whatever happens inside that and inside the native close, a close
of listener `x` tries to remove its own file when the native close has returned, and removes nothing
before. -/
def State.ClosesDown (s : State) (x : Listener) : Prop :=
  ∀ inside r, s.Within inside →
    let closing := (s.run inside).step (.reply (.done r))
    closing.host.tree = (s.run inside).host.tree ∧ ∀ inside' r', closing.Within inside' →
      let m := closing.run inside'
      TriesOwn x.CleansUp m.host (m.step (.reply (.done r'))).host.tree

section Closes

variable {r : Nat → Path → FileId → Prop} {s s' : State} {k l : Nat} {x : Listener} {fd : Fd}
  {t : Task} {quiet : Bool} {rest : List Frame} {e : Event}

theorem Listener.beginClose_bound (hb : x.phase = .bound) (hfd : x.slot.get = some fd)
    (host : Host) (quiet : Bool) :
    x.beginClose host quiet = (.waits (.shuttingDown fd quiet), x.retired, host) := by
  simp [beginClose, hb, hfd, retired]

theorem Traced.slot_of_bound (h : Traced r s) (hx : s.listeners[l]? = some x)
    (hb : x.phase = .bound) : ∃ fd, x.slot.get = some fd :=
  Option.isSome_iff_exists.mp ((h.owns l x hx).live hb)

/-- The state in which the close of a bound listener has begun. -/
theorem State.beginsClose_wait (hx : s.listeners[l]? = some x) (hfd : x.slot.get = some fd)
    (ht : s'.tasks = s.tasks) (hl : s'.listeners = s.listeners)
    (htree : s'.host.tree = s.host.tree) :
    s.BeginsClose ((s'.setListener l x.retired).wait l x.config (.shuttingDown fd quiet)) l x
      quiet := by
  refine ⟨⟨fd, hfd, ?_⟩, ?_, htree⟩
  · rw [← ht]
    rfl
  · have hx' : s'.listeners[l]? = some x := hl ▸ hx
    exact get_setListener hx' x.retired

theorem Ending.beginsClose (h : Ending s) (hx : s.listener? l = some x) (hb : x.phase = .bound) :
    s.BeginsClose (s.step (.start (.close l))) l x false := by
  obtain ⟨-, hget⟩ := State.listener?_eq_some hx
  obtain ⟨fd, hfd⟩ := h.traced.slot_of_bound hget hb
  have hstep : s.step (.start (.close l)) =
      ((s.note (.began (.close l))).setListener l x.retired).wait l x.config
        (.shuttingDown fd false) := by
    rw [State.step_asks (g := .close false) rfl hx (h.unlocked_of_bound hget hb)]
    have hclose := x.beginClose_bound hb hfd s.host false
    simp only [Listener.react, hclose]
    rfl
  rw [hstep]
  exact State.beginsClose_wait hget hfd rfl rfl rfl

/-- A bound listener that nothing is under way of is closed when its owner lets it go. -/
theorem Ending.beginsClose_drop (h : Ending s) (hx : s.listener? l = some x)
    (hb : x.phase = .bound) (hidle : ∀ t, .working l t ∉ s.tasks) :
    s.BeginsClose (s.step (.start (.drop l))) l x true := by
  obtain ⟨-, hget⟩ := State.listener?_eq_some hx
  obtain ⟨fd, hfd⟩ := h.traced.slot_of_bound hget hb
  let m := { s.note (.began (.drop l)) with dropped := l :: s.dropped }.finish .done
  have hstep : s.step (.start (.drop l)) = m.closeUnheld l := by
    have hx' : (s.note (.began (.drop l))).listener? l = some x := hx
    simp only [State.step, State.perform, State.lockOf, Option.any_none, Bool.false_eq_true,
      if_false, State.begin, State.withListener, hx']
    rfl
  have hunheld : m.isUnheld l = true := State.isUnheld_iff.mpr ⟨List.mem_cons_self .., hidle⟩
  have hget' : m.listeners[l]? = some x := hget
  have hclose := x.beginClose_bound hb hfd m.host true
  have heq : m.closeUnheld l = (m.setListener l x.retired).wait l x.config
      (.shuttingDown fd true) := by
    simp only [State.closeUnheld, hget', hunheld, if_true, hclose]
    rfl
  rw [hstep, heq]
  exact State.beginsClose_wait hget hfd rfl rfl rfl

/-- The close of listener `l`, which was `x` before, is under way and begins with the native
shutdown. -/
structure State.Retires (s : State) (l : Nat) (x : Listener) : Prop where
  retired : s.listeners[l]? = some x.retired
  waits : ∃ fd quiet, x.slot.get = some fd ∧ .working l (.shuttingDown fd quiet) ∈ s.tasks

/-- A listener that was bound is as it was, or it is being closed. -/
def State.StaysOrRetires (s : State) (l : Nat) (x : Listener) : Prop :=
  s.listeners[l]? = some x ∨ s.Retires l x

theorem State.retires_close (hx : s.listeners[l]? = some x) (hb : x.phase = .bound)
    (hfd : x.slot.get = some fd) (quiet : Bool) :
    (s.take l (x.react s.host (.close quiet))).Retires l x := by
  have hreact : x.react s.host (.close quiet) =
      (.waits (.shuttingDown fd quiet), x.retired, s.host) := x.beginClose_bound hb hfd s.host quiet
  rw [hreact]
  exact ⟨State.get_take hx, fd, quiet, hfd, State.mem_tasks_take.mpr (.inl ⟨_, rfl, rfl⟩)⟩

/-- A second close finds the listener closed. -/
theorem State.Retires.close_again (h : s.Retires l x) (quiet : Bool) :
    (s.take l (x.retired.react s.host (.close quiet))).Retires l x := by
  obtain ⟨fd, quiet', hfd, hmem⟩ := h.waits
  refine ⟨?_, fd, quiet', hfd, State.mem_tasks_take.mpr (.inr hmem)⟩
  rw [State.get_take h.retired]
  rfl

/-- What another listener does is nothing to it. -/
theorem State.StaysOrRetires.take_ne (h : s.StaysOrRetires l x) (hkl : k ≠ l)
    (p : Progress × Listener × Host) : (s.take k p).StaysOrRetires l x := by
  have hget := State.get_take_ne (s := s) (p := p) (Ne.symm hkl)
  refine h.imp (hget.trans ·) fun hdown => ⟨hget.trans hdown.retired, ?_⟩
  obtain ⟨fd, quiet, hfd, hmem⟩ := hdown.waits
  exact ⟨fd, quiet, hfd, State.mem_tasks_take.mpr (.inr hmem)⟩

/-- No task of a bound listener is on its way to be bound. -/
theorem Traced.not_binds (h : Traced r s) (ht : .working l t ∈ s.tasks)
    (hx : s.listeners[l]? = some x) (hb : x.phase = .bound) : t.binds = false := by
  refine Bool.eq_false_iff.mpr fun hbinds => ?_
  obtain ⟨y, hy, hu, -⟩ := h.binds l t ht hbinds
  obtain rfl := Option.some.inj (hy.symm.trans hx)
  simp [hb] at hu

/-- Only a close makes a bound listener another one. -/
theorem State.staysOrRetires_take {m : State} {g : Trigger} (hx : m.listeners[l]? = some x)
    (hb : x.phase = .bound) (hfd : x.slot.get = some fd)
    (hg : ∀ t r, g = .reply t r → t.binds = false) :
    (m.take l (x.react m.host g)).StaysOrRetires l x := by
  have hget := State.get_take (p := x.react m.host g) hx
  have hbecomes := x.react_becomes m.host g
  generalize (x.react m.host g).2.1 = y at hget hbecomes
  cases hbecomes with
  | same g => exact .inl hget
  | closed quiet => exact .inr (State.retires_close hx hb hfd quiet)
  | givenUp | bound =>
    have := hg _ _ rfl
    simp [Task.binds] at this

/-- However a bound listener comes to be closed, its native shutdown begins. -/
theorem Traced.retires_turn (h : Traced r s) (ht : Turn s e s') (hx : s.listeners[l]? = some x)
    (hb : x.phase = .bound) : s'.StaysOrRetires l x := by
  obtain ⟨fd, hfd⟩ := h.slot_of_bound hx hb
  induction ht with
  | aside e ha => exact .inl (ha.listeners ▸ hx)
  | world host => exact .inl hx
  | made config fd rest ht =>
    exact .inl ((List.getElem?_append_left (List.getElem?_eq_some_iff.mp hx).1).trans hx)
  | dropped k hk => exact .inl hx
  | asked op k y g hop hd hready =>
    have hstays : (s.note (.began op)).StaysOrRetires l x := .inl hx
    by_cases hkl : k = l
    · subst hkl
      obtain rfl := Option.some.inj (hready.listener.symm.trans hx)
      exact State.staysOrRetires_take (m := s.note (.began op)) hx hb hfd
        fun t r heq => absurd heq (Operation.asks?_ne_reply hop t r)
    · exact hstays.take_ne hkl _
  | answered k y t reply rest ht htakes hy =>
    have hstays : ({ s with tasks := rest }.note (.replied reply)).StaysOrRetires l x := .inl hx
    by_cases hkl : k = l
    · subst hkl
      obtain rfl := Option.some.inj (hy.symm.trans hx)
      have hbinds := h.not_binds (ht ▸ List.mem_cons_self ..) hx hb
      exact State.staysOrRetires_take (m := { s with tasks := rest }.note (.replied reply)) hx hb
        hfd fun u r heq => (Trigger.reply.inj heq).1 ▸ hbinds
    · exact hstays.take_ne hkl _
  | letGo e m k y ht hready ih =>
    by_cases hkl : k = l
    rotate_left
    · exact ih.take_ne hkl _
    subst hkl
    rcases ih with hget | hdown
    · obtain rfl := Option.some.inj (hready.listener.symm.trans hget)
      exact .inr (State.retires_close hget hb hfd true)
    · obtain rfl := Option.some.inj (hready.listener.symm.trans hdown.retired)
      exact .inr (hdown.close_again true)

/-- The end of a close, step by step. -/
theorem Traced.triesOwn_closing (h : Traced r s)
    (ht : s.tasks = .working l (.closing fd quiet) :: rest) (hx : s.listeners[l]? = some x)
    (reply : Except IoError Unit) :
    TriesOwn x.CleansUp s.host (s.step (.reply (.done reply))).host.tree := by
  rw [h.tree_answered ht rfl hx]
  exact x.triesOwn_finishClose s.host quiet reply

theorem State.step_shuttingDown (ht : s.tasks = .working l (.shuttingDown fd quiet) :: rest)
    (hx : s.listeners[l]? = some x) (reply : Except IoError Unit) :
    s.step (.reply (.done reply)) =
      ({ s with tasks := rest }.note (.replied (.done reply))).wait l x.config
        (.closing fd quiet) := by
  rw [step_answered ht rfl hx]
  exact advanceWith_same (s := { s with tasks := rest }.note (.replied (.done reply))) hx
    (.waits (.closing fd quiet)) s.host

theorem Ending.closesDown (h : Ending s)
    (ht : s.tasks = .working l (.shuttingDown fd quiet) :: rest) (hx : s.listeners[l]? = some x) :
    s.ClosesDown x := by
  intro inside reply hin closing
  -- both calls hold the lock, so the listener is the same when they return
  obtain ⟨htasks, hget, -⟩ := hin.rests ht rfl hx
  have hclosing := State.step_shuttingDown (htasks.trans ht) hget reply
  have ht' : closing.tasks = .working l (.closing fd quiet) :: rest := by
    simp only [closing, hclosing]
    rfl
  have hx' : closing.listeners[l]? = some x := by
    simp only [closing, hclosing]
    exact hget
  refine ⟨by simp only [closing, hclosing]; rfl, fun inside' reply' hin' => ?_⟩
  obtain ⟨htasks', hget', -⟩ := hin'.rests ht' rfl hx'
  have hended : Ending (closing.run inside') := ((h.run inside).step _).run inside'
  exact hended.traced.triesOwn_closing (htasks'.trans ht') hget' reply'

end Closes

/-! ## Whose files go -/

/-- What becomes of the files in `s`, where `r` says what is whose own. -/
structure SparesOthers (r : Nat → Path → FileId → Prop) (s : State) : Prop where
  /-- A step removes one file at most, and for one of these reasons. -/
  alters : ∀ e, (∀ host, e ≠ .world host) → Alters r s e (s.step e).host.tree
  /-- A listener that can be bound clears a dead socket file away and goes on to its native bind. -/
  clears : ∀ l x path f fd address, s.listener? l = some x → s.isLocked l = false →
    x.checkBind path = .ok (fd, address) → SocketAt s.host path f → Refused s.host path →
    s.host.tree.Removes path f →
    s.step (.start (.bind l path)) = { s.note (.began (.bind l path)) with
      host := s.host.without f }.push (.working l (.binding fd path address)) (.bind fd address)
  /-- One that cannot be removed makes the bind fail before its native bind, and stays. -/
  stuck : ∀ l x path f fd address e, s.listener? l = some x → s.isLocked l = false →
    x.checkBind path = .ok (fd, address) → SocketAt s.host path f → Refused s.host path →
    s.host.tree.unlink path = .error e →
    (s.step (.start (.bind l path))).host.tree = s.host.tree ∧
      s.news (.start (.bind l path)) =
        [.began (.bind l path), .finished (.failed (.native .bind e))]
  /-- What is no socket, or answers, does so too. -/
  barred : ∀ l x path, s.listener? l = some x → s.isLocked l = false → Barred s.host path →
    (s.step (.start (.bind l path))).host.tree = s.host.tree ∧
      ∃ err, s.news (.start (.bind l path)) = [.began (.bind l path), .finished (.failed err)]
  /-- When its native bind has returned, a bind takes the file at the path for its own. -/
  records : ∀ l x fd path address rest,
    s.tasks = .working l (.binding fd path address) :: rest → s.listeners[l]? = some x →
    (s.step (.reply (.done (.ok ())))).tasks =
      .working l (.listening fd path (identity? s.host path)) :: rest
  bound : ∀ l x fd path created rest host,
    s.tasks = .working l (.listening fd path created) :: rest → s.listener? l = some x →
    Listener.applyMode x.config s.host path = .ok host →
    (s.step (.reply (.done (.ok ())))).listeners[l]? =
      some { x with phase := .bound, path := some path, created }
  /-- A listener that was bound or closed keeps what it takes for its own, come what may. -/
  keeps : ∀ (l : Nat) (x : Listener), s.listeners[l]? = some x → x.phase ≠ .unbound →
    ∀ es, ∃ y, (s.run es).listeners[l]? = some y ∧ x.Keeps y
  /-- When the native listen fails, or the permissions cannot be given, the bind gives up. -/
  fails : ∀ l x fd path created rest result,
    s.tasks = .working l (.listening fd path created) :: rest → s.listeners[l]? = some x →
    ((∃ e, result = .error e) ∨
      ∃ mode e, x.config.mode = some mode ∧ s.host.tree.changeMode path mode = .error e) →
    (s.step (.reply (.done result))).host = s.host ∧ ∃ k cause,
      (s.step (.reply (.done result))).tasks = .working l (.givingUp k path created cause) :: rest
  /-- Then it tries to remove its file, whatever is asked of a close. -/
  givesUp : ∀ l x fd path created cause rest reply,
    s.tasks = .working l (.givingUp fd path created cause) :: rest → s.listeners[l]? = some x →
    TriesOwn (fun p f => p = path ∧ created = some f) s.host
      (s.step (.reply (.done reply))).host.tree
  /-- A close begins with the native shutdown when the listener is bound. -/
  closes : ∀ l x, s.listener? l = some x → x.phase = .bound →
    s.BeginsClose (s.step (.start (.close l))) l x false
  /-- So does the end of a listener whose owner lets it go while nothing of it is under way. -/
  drops : ∀ l x, s.listener? l = some x → x.phase = .bound → (∀ t, .working l t ∉ s.tasks) →
    s.BeginsClose (s.step (.start (.drop l))) l x true
  /-- There is no other way for a bound listener to come to its end. -/
  ends : ∀ (e : Event) (l : Nat) (x : Listener), s.listeners[l]? = some x → x.phase = .bound →
    (s.step e).listeners[l]? = some x ∨ ((s.step e).listeners[l]? = some x.retired ∧
      ∃ fd quiet, x.slot.get = some fd ∧ .working l (.shuttingDown fd quiet) ∈ (s.step e).tasks)
  /-- From there on its own file goes, if a close is to clean up, and nothing else. -/
  closesDown : ∀ l x fd quiet rest, s.tasks = .working l (.shuttingDown fd quiet) :: rest →
    s.listeners[l]? = some x → s.ClosesDown x
  /-- Whoever goes on between, that is so when the native close returns. -/
  finishes : ∀ l x fd quiet rest reply, s.tasks = .working l (.closing fd quiet) :: rest →
    s.listeners[l]? = some x →
    TriesOwn x.CleansUp s.host (s.step (.reply (.done reply))).host.tree

theorem Ending.sparesOthers {r : Nat → Path → FileId → Prop} {s : State} (h : Ending s)
    (hr : Traced r s) : SparesOthers r s where
  alters := fun _ he => hr.alters_step he
  clears := by
    intro l x path f fd address hx hl hc hs hrefused hg
    rw [State.step_bind hx hl, Listener.beginBind_refused hc hs hrefused hg]
    rfl
  stuck := by
    intro l x path f fd address e hx hl hc hs hrefused he
    have hbegin := Listener.beginBind_stuck hc hs hrefused he
    obtain ⟨hhost, hnews⟩ := State.step_bind_failed hx hl hbegin
    exact ⟨by rw [hhost], hnews⟩
  barred := by
    intro l x path hx hl hb
    obtain ⟨err, host, hbegin, htree⟩ := x.beginBind_barred hb
    obtain ⟨hhost, hnews⟩ := State.step_bind_failed hx hl hbegin
    exact ⟨by rw [hhost, htree], err, hnews⟩
  records := by
    intro l x fd path address rest ht hx
    rw [State.step_answered ht rfl hx]
    rfl
  bound := by
    intro l x fd path created rest host ht hx hm
    rw [State.step_listening ht hx hm]
    exact State.get_setListener (State.listener?_eq_some hx).2 _
  keeps := fun l x hx hp es => h.traced.keeps_run hx hp es
  fails := by
    intro l x fd path created rest result ht hx hfail
    obtain ⟨y, hy, hbinding⟩ := h.traced.binds l (.listening fd path created) (by simp [ht]) rfl
    obtain rfl := Option.some.inj (hy.symm.trans hx)
    obtain ⟨k, cause, heq⟩ := Listener.afterListen_failing hbinding created hfail
    have hreact : y.react s.host (.reply (.listening fd path created) (.done result)) = _ := heq
    rw [State.step_answered ht rfl hx, hreact]
    exact ⟨rfl, k, cause, rfl⟩
  givesUp := by
    intro l x fd path created cause rest reply ht hx
    rw [hr.tree_answered ht rfl hx]
    exact Listener.triesOwn_finishGiveUp s.host path created cause
  closes := fun _ _ hx hb => h.beginsClose hx hb
  drops := fun _ _ hx hb hidle => h.beginsClose_drop hx hb hidle
  ends := fun e _ _ hx hb =>
    (hr.retires_turn (s.turn_step e) hx hb).imp_right fun hdown => ⟨hdown.retired, hdown.waits⟩
  closesDown := fun _ _ _ _ _ ht hx => h.closesDown ht hx
  finishes := fun _ _ _ _ _ reply ht hx => h.traced.triesOwn_closing ht hx reply

/-! ## Nobody in between -/

/-- The event lets nobody come between two calls of an operation to the file system. -/
def Event.isPrompt : Event → Bool
  | .start (.bindSlowly ..) | .reply (.doneSlowly _) => false
  | _ => true

/-- No operation waits at the file system. -/
def State.Prompt (s : State) : Prop := ∀ l t, .working l t ∈ s.tasks → t.pauses = false

section Prompt

variable {s s' : State} {l : Nat} {x : Listener} {g : Trigger} {host : Host} {e : Event}

theorem Follows.prompt {u : Task} (h : Follows x host g u) (hb : ∀ path, g ≠ .bindSlowly path)
    (hr : ∀ t r, g = .reply t r → t.pauses = false ∧ ∀ result, r ≠ .doneSlowly result) :
    u.pauses = false := by
  cases h with
  | looking path fd address hc => exact absurd rfl (hb path)
  | led t u h =>
    have hwaits := (hr t .files rfl).1
    cases h <;> simp [Task.pauses, Task.takes] at hwaits
  | givenUp fd path f cause r hs => exact absurd rfl ((hr _ _ rfl).2 r)
  | closed fd quiet path f r ho hs => exact absurd rfl ((hr _ _ rfl).2 r)
  | _ => rfl

theorem State.Prompt.take (h : s.Prompt) (hb : ∀ path, g ≠ .bindSlowly path)
    (hr : ∀ t r, g = .reply t r → t.pauses = false ∧ ∀ result, r ≠ .doneSlowly result) :
    (s.take l (x.react host g)).Prompt := by
  intro k t hmem
  rcases State.mem_tasks_take.mp hmem with ⟨u, hu, heq⟩ | hmem
  · obtain ⟨rfl, rfl⟩ := Frame.working.inj heq
    exact (Listener.react_waits hu).prompt hb hr
  · exact h k t hmem

theorem State.Prompt.turn (h : s.Prompt) (ht : Turn s e s') (he : e.isPrompt = true) :
    s'.Prompt := by
  have hpop : ∀ {f : Frame} {rest : List Frame}, s.tasks = f :: rest →
      State.Prompt { s with tasks := rest } :=
    fun ht l t hmem => h l t (ht ▸ List.mem_cons_of_mem _ hmem)
  induction ht with
  | aside e ha => exact fun l t hmem => h l t (ha.working l t hmem)
  | world host => exact h
  | made config fd rest ht => exact hpop ht
  | asked op l x g hop hd hready =>
    refine State.Prompt.take (s := s.note (.began op)) h (fun path heq => ?_) fun t r heq => ?_
    · cases op <;> simp_all [Operation.asks?, Event.isPrompt]
    · exact absurd heq (Operation.asks?_ne_reply hop t r)
  | answered l x t r rest ht htakes hx =>
    refine State.Prompt.take (s := { s with tasks := rest }.note (.replied r)) (g := .reply t r)
      (hpop ht) (by simp) fun u reply heq => ?_
    obtain ⟨rfl, rfl⟩ := Trigger.reply.inj heq
    refine ⟨h l t (ht ▸ List.mem_cons_self ..), ?_⟩
    rintro result rfl
    simp [Event.isPrompt] at he
  | dropped l hl => exact h
  | letGo e m l x ht hready ih => exact State.Prompt.take (ih he) (by simp) (by simp)

theorem State.Prompt.raise (h : s.Prompt) (i : Nat) : (s.raise i).Prompt :=
  fun l t ht => h l t (State.tasks_raise.mem_iff.mp ht)

theorem State.Prompt.interleave (h : s.Prompt) {es : List (Nat × Event)}
    (hes : ∀ e ∈ es, e.2.isPrompt = true) : (s.interleave es).Prompt := by
  induction es generalizing s with
  | nil => exact h
  | cons e es ih =>
    have hstep := (h.raise e.1).turn (State.turn_step _ e.2) (hes e (List.mem_cons_self ..))
    exact ih hstep fun e' he' => hes e' (List.mem_cons_of_mem _ he')

theorem State.prompt_interleave {es : List (Nat × Event)} (hes : ∀ e ∈ es, e.2.isPrompt = true) :
    ((State.start host).interleave es).Prompt :=
  State.Prompt.interleave (by simp [State.Prompt, State.start]) hes

/-- Without an operation that waits at the file system no removal is late. -/
theorem Traced.takes_prompt {r : Nat → Path → FileId → Prop} {f : FileId} (h : Traced r s)
    (hp : s.Prompt) (he : ∀ host, e ≠ .world host) (hf : s.host.tree.Holds f)
    (hn : ¬ (s.step e).host.tree.Holds f) : Takes r s e f ∧ e ≠ .reply .files := by
  refine ⟨h.takes_of_lost he hf hn, ?_⟩
  rintro rfl
  cases h.takes_of_lost he hf hn with
  | late l x t path f rest ht hx hremoves hg =>
    have hpauses : t.pauses = false := hp l t (by simp [ht])
    exact absurd (Task.takes_files_of_removes? hremoves) (by simpa [Task.pauses] using hpauses)

end Prompt

/-- What becomes of the files after a run. -/
structure OnlyDeadOrOwn (host : Host) (es : List (Nat × Event)) : Prop
    extends SparesOthers (Recorded host es) ((State.start host).interleave es) where
  /-- When nobody came between the calls of an operation to the file system, nobody will: no
  operation is about to remove what it has looked at before. -/
  prompt : (∀ e ∈ es, e.2.isPrompt = true) → ((State.start host).interleave es).Prompt
  /-- So no removal is late then: a file that goes was dead, or the own one of an operation at its
  end. -/
  only : (∀ e ∈ es, e.2.isPrompt = true) → ∀ e f, (∀ host', e ≠ .world host') →
    ((State.start host).interleave es).host.tree.Holds f →
    ¬ (((State.start host).interleave es).step e).host.tree.Holds f →
    Takes (Recorded host es) ((State.start host).interleave es) e f ∧ e ≠ .reply .files

/-- In every run, in whatever order the operations go on, what a listener removes is a dead socket
file on its way to a bind, or a socket file that was at its path when its own native bind returned.
Only when others come in between its look at the path and the removal, what is there by then goes in
place of that. -/
theorem only_dead_or_own_files_removed (host : Host) (es : List (Nat × Event)) :
    OnlyDeadOrOwn host es where
  toSparesOthers := (ending_interleave host es).sparesOthers (traced_interleave host es)
  prompt := State.prompt_interleave
  only := fun hes _ _ he hf hn =>
    (traced_interleave host es).takes_prompt (State.prompt_interleave hes) he hf hn

/-- A host on which a socket file was left behind. -/
def leftBehind : Host := ((Host.fresh.socket.2.bind 3 [115] false).2.close 3).2

/-- The file goes when the directory lets it. -/
def leftBound : Host := ((leftBehind.socket.2.without 5).bind 4 [115] false).2

/-- A listener is made and bound to the path of the file that was left behind. -/
def boundOverDead : List (Nat × Event) :=
  [(0, .start (.create ⟨1, none, true⟩)), (0, .world leftBehind.socket.2),
    (0, .reply (.opened (.ok 4))), (0, .start (.bind 0 [115])), (0, .world leftBound),
    (0, .reply (.done (.ok ()))), (0, .world (leftBound.listen 4).2),
    (0, .reply (.done (.ok ())))]

/-- Another file has the path. -/
def replaced : Host :=
  let gone := leftBound.without 6
  { gone with tree := (gone.tree.add [] Tree.workDir [115] .regular 0o644).2 }

/-- The directory keeps its files. -/
def locked : Host :=
  { leftBound with tree.frozen := [(Tree.workDir, .custom .permissionDenied "")] }

/-- The dead file is removed by the bind and the own one by the close; a file that has taken its
place meanwhile stays, and so does the own one when the directory keeps it. -/
theorem dead_and_own_file_removed :
    let s := (State.start leftBehind).interleave boundOverDead
    let closing := (s.step (.start (.close 0))).step (.reply (.done (.ok ())))
    let ended := fun host => ((closing.step (.world host)).step (.reply (.done (.ok ())))).host.tree
    (SocketAt leftBehind [115] 5 ∧ ¬ s.host.tree.Holds 5 ∧ SocketAt s.host [115] 6) ∧
      ended leftBound = leftBound.tree.erase 6 ∧ ended replaced = replaced.tree ∧
      ended locked = locked.tree := by
  intro s closing ended
  let x : Listener := ⟨⟨1, none, true⟩, ⟨4⟩, .bound, some [115], some 6⟩
  have hx : s.listener? 0 = some x := rfl
  have hbegins := (only_dead_or_own_files_removed leftBehind boundOverDead).closes 0 x hx rfl
  have hrun : (State.start leftBehind).interleave (boundOverDead ++ [(0, .start (.close 0))]) =
      s.step (.start (.close 0)) := State.interleave_append ..
  have hclose :=
    only_dead_or_own_files_removed leftBehind (boundOverDead ++ [(0, .start (.close 0))])
  have hdown := hclose.closesDown 0 x.retired 4 false [] rfl (hrun ▸ hbegins.listener)
  have hend : ∀ host, TriesOwn x.retired.CleansUp host (ended host) := fun host =>
    (hdown [] (.ok ()) ⟨trivial, rfl⟩).2 [.world host] (.ok ()) ⟨⟨trivial, trivial⟩, rfl⟩
  have hown : x.retired.CleansUp [115] 6 := ⟨rfl, rfl, rfl⟩
  refine ⟨⟨rfl, ?_, rfl⟩, (hend leftBound).removed [115] 6 hown rfl rfl, ?_,
    (hend locked).stuck [115] 6 _ hown rfl⟩
  · unfold Tree.Holds
    decide
  · refine (hend replaced).spared fun path f hc hs => ?_
    obtain rfl : [115] = path := Option.some.inj hc.named
    have hkind : (replaced.tree.status [115]).map Tree.Status.kind = .ok .regular := rfl
    rw [hs] at hkind
    simp [Except.map] at hkind

end LocalIpc.Unix

import LocalIpc.Proofs.Unix.Locked
import LocalIpc.Proofs.Unix.Noting
import LocalIpc.Proofs.Unix.Removing
import LocalIpc.Unix.Layer
/-!
# A bind, all or nothing

A bind that fails up to its native bind leaves its listener as it was, to be bound again. One that
fails after that leaves the listener closed, with its descriptor given back and its file removed, if
the system lets it go. What happens meanwhile, inside the native calls or before a call to the file
system, changes nothing in that.
-/

namespace LocalIpc.Unix

/-! ## The way to the native bind -/

/-- The path has an address record. -/
def Bindable (path : Path) (address : AddressRecord) : Prop :=
  path ≠ [] ∧ AddressRecord.encode .family path = .ok address

/-- The path has none. -/
inductive Unfit (path : Path) : ListenerError → Prop
  | empty (hp : path = []) : Unfit path .emptyPath
  | zero (hp : 0 ∈ path) : Unfit path (.invalidPath path "contains a NUL byte")
  | tooLong (hz : 0 ∉ path) (hp : AddressRecord.longestPath < path.length) :
      Unfit path (.pathTooLong path path.length AddressRecord.longestPath)

/-- What keeps an open listener from its native bind, and the host after that. When somebody answers
on the path, a client that has hung up at once waits there; apart from that nothing is changed. -/
inductive Refusal (host : Host) (path : Path) : ListenerError → Host → Prop
  | unfit {err : ListenerError} (h : Unfit path err) : Refusal host path err host
  | noSocket (address : AddressRecord) (status : Tree.Status) (hb : Bindable path address)
      (hs : host.tree.status path = .ok status) (hk : status.kind ≠ .socket) :
      Refusal host path (.native .bind notASocket) host
  | answered (address : AddressRecord) (f : FileId) (client : Fd) (hb : Bindable path address)
      (hs : SocketAt host path f) (hc : (host.connect path).1 = .ok client) :
      Refusal host path (.native .bind listenerActive) ((host.connect path).2.close client).2
  | unclear (address : AddressRecord) (f : FileId) (e : IoError) (hb : Bindable path address)
      (hs : SocketAt host path f) (hc : (host.connect path).1 = .error e)
      (hr : e.kind ≠ .connectionRefused) (hn : e.kind ≠ .notFound) :
      Refusal host path (.native .bind e) host
  | unremovable (address : AddressRecord) (f : FileId) (e : IoError) (hb : Bindable path address)
      (hs : SocketAt host path f) (hr : Refused host path)
      (he : host.tree.unlink path = .error e) : Refusal host path (.native .bind e) host

/-- The way to a native bind at the path is clear, and the host is this one then: only a socket file
on which nobody answers has gone. -/
inductive Cleared (host : Host) (path : Path) : Host → Prop
  | free (e : IoError) (hs : host.tree.status path = .error e) : Cleared host path host
  | dead (f : FileId) (hs : SocketAt host path f) (hr : Refused host path)
      (hg : host.tree.Removes path f) : Cleared host path (host.without f)
  | vanished (f : FileId) (e : IoError) (hs : SocketAt host path f)
      (hc : (host.connect path).1 = .error e) (hn : e.kind = .notFound) : Cleared host path host

/-- What a bind that lets others in comes to at its next call to the file system: it fails, or goes
on to wait. -/
inductive Proceeds (host : Host) (fd : Fd) (path : Path) (address : AddressRecord) :
    Task → Except ListenerError Task → Host → Prop
  | free (e : IoError) (hs : host.tree.status path = .error e) :
      Proceeds host fd path address (.looking fd path address) (.ok (.binding fd path address)) host
  | noSocket (status : Tree.Status) (hs : host.tree.status path = .ok status)
      (hk : status.kind ≠ .socket) :
      Proceeds host fd path address (.looking fd path address)
        (.error (.native .bind notASocket)) host
  | seen (f : FileId) (hs : SocketAt host path f) :
      Proceeds host fd path address (.looking fd path address) (.ok (.probing fd path address)) host
  | answered (client : Fd) (hc : (host.connect path).1 = .ok client) :
      Proceeds host fd path address (.probing fd path address)
        (.error (.native .bind listenerActive)) ((host.connect path).2.close client).2
  | refused (hr : Refused host path) :
      Proceeds host fd path address (.probing fd path address)
        (.ok (.clearing fd path address)) host
  | vanished (e : IoError) (hc : (host.connect path).1 = .error e) (hn : e.kind = .notFound) :
      Proceeds host fd path address (.probing fd path address) (.ok (.binding fd path address)) host
  | unclear (e : IoError) (hc : (host.connect path).1 = .error e)
      (hr : e.kind ≠ .connectionRefused) (hn : e.kind ≠ .notFound) :
      Proceeds host fd path address (.probing fd path address) (.error (.native .bind e)) host
  /-- Whatever is at the path by then. -/
  | removed (f : FileId) (hg : host.tree.Removes path f) :
      Proceeds host fd path address (.clearing fd path address)
        (.ok (.binding fd path address)) (host.without f)
  | unremovable (e : IoError) (he : host.tree.unlink path = .error e) :
      Proceeds host fd path address (.clearing fd path address) (.error (.native .bind e)) host

section Ways

variable {host host' : Host} {path : Path} {address : AddressRecord} {x : Listener} {fd : Fd}
  {err : ListenerError} {t : Task}

theorem look_noSocket {status : Tree.Status} (hs : host.tree.status path = .ok status)
    (hk : status.kind ≠ .socket) : look host path = .error notASocket := by
  simp [look, hs, hk]

theorem look_free {e : IoError} (hs : host.tree.status path = .error e) :
    look host path = .ok false := by
  simp [look, hs]

theorem isDead_unclear {e : IoError} (hc : (host.connect path).1 = .error e)
    (hr : e.kind ≠ .connectionRefused) (hn : e.kind ≠ .notFound) :
    isDead host path = (.error e, host) := by
  simp [isDead, probe_failed hc, hr, hn]

theorem isDead_vanished {e : IoError} (hc : (host.connect path).1 = .error e)
    (hn : e.kind = .notFound) : isDead host path = (.ok false, host) := by
  simp [isDead, probe_failed hc, hn]

theorem Bindable.check (hb : Bindable path address) (hu : x.phase = .unbound)
    (hfd : x.slot.get = some fd) : x.checkBind path = .ok (fd, address) :=
  Listener.checkBind_eq_ok.mpr ⟨hu, hb.1, hb.2, hfd⟩

theorem Unfit.check (h : Unfit path err) (hu : x.phase = .unbound) :
    x.checkBind path = .error err := by
  cases h with
  | empty hp => simp [Listener.checkBind, hu, hp]
  | zero hp =>
    have hne : path ≠ [] := List.ne_nil_of_mem hp
    simp [Listener.checkBind, hu, hne, AddressRecord.encode, hp, Bind.bind, Except.bind]
  | tooLong hz hp =>
    have hne : path ≠ [] := List.ne_nil_of_length_pos (Nat.zero_lt_of_lt hp)
    have hlong : ¬ path.length ≤ AddressRecord.longestPath := Nat.not_le.mpr hp
    simp [Listener.checkBind, hu, hne, AddressRecord.encode, hz, hlong, Bind.bind, Except.bind]

theorem Listener.beginBind_of_checkBind (h : x.checkBind path = .error err) :
    x.beginBind host path = (.failed err, host) := by
  simp [beginBind, h]

theorem Listener.beginBindSlowly_of_checkBind (h : x.checkBind path = .error err) :
    x.beginBindSlowly path = .failed err := by
  simp [beginBindSlowly, h]

theorem Refusal.beginBind (h : Refusal host path err host') (hu : x.phase = .unbound)
    (hfd : x.slot.get = some fd) : x.beginBind host path = (.failed err, host') := by
  cases h with
  | unfit h => exact Listener.beginBind_of_checkBind (h.check hu)
  | noSocket address status hb hs hk =>
    simp [Listener.beginBind, hb.check hu hfd, clearWay, look_noSocket hs hk]
  | answered address f client hb hs hc =>
    simp [Listener.beginBind, hb.check hu hfd, clearWay_answered hs hc]
  | unclear address f e hb hs hc hr hn =>
    simp [Listener.beginBind, hb.check hu hfd, clearWay, look_eq_true.mpr ⟨f, hs⟩,
      isDead_unclear hc hr hn]
  | unremovable address f e hb hs hr he =>
    exact Listener.beginBind_stuck (hb.check hu hfd) hs hr he

theorem Cleared.clearWay (h : Cleared host path host') :
    clearWay host path = (.ok (), host') := by
  cases h with
  | free e hs => simp [Unix.clearWay, look_free hs]
  | dead f hs hr hg => rw [clearWay_refused hs hr, remove_removes hg]
  | vanished f e hs hc hn =>
    simp [Unix.clearWay, look_eq_true.mpr ⟨f, hs⟩, isDead_vanished hc hn]

theorem Cleared.beginBind (h : Cleared host path host') (hb : Bindable path address)
    (hu : x.phase = .unbound) (hfd : x.slot.get = some fd) :
    x.beginBind host path = (.waits (.binding fd path address), host') := by
  simp [Listener.beginBind, hb.check hu hfd, h.clearWay]

/-- The path has an address record, or none. -/
theorem unfit_or_bindable (path : Path) :
    (∃ err, Unfit path err) ∨ ∃ address, Bindable path address := by
  -- the checks, in the order in which they are made
  by_cases hne : path = []
  · exact .inl ⟨_, .empty hne⟩
  by_cases hz : 0 ∈ path
  · exact .inl ⟨_, .zero hz⟩
  by_cases hlong : AddressRecord.longestPath < path.length
  · exact .inl ⟨_, .tooLong hz hlong⟩
  have hfits : path.length ≤ AddressRecord.longestPath := Nat.not_lt.mp hlong
  exact .inr ⟨_, hne, by rw [AddressRecord.encode, if_neg hz, dif_pos hfits]⟩

/-- There are no other ways. -/
theorem refused_or_cleared (host : Host) (path : Path) :
    (∃ err host', Refusal host path err host') ∨
      ∃ address host', Bindable path address ∧ Cleared host path host' := by
  obtain ⟨err, hunfit⟩ | ⟨address, hb⟩ := unfit_or_bindable path
  · exact .inl ⟨err, host, .unfit hunfit⟩
  rcases hs : host.tree.status path with e | status
  · exact .inr ⟨address, host, hb, .free e hs⟩
  by_cases hk : status.kind = .socket
  rotate_left
  · exact .inl ⟨_, _, .noSocket address status hb hs hk⟩
  have hsocket : SocketAt host path status.id := by rw [SocketAt, hs, ← hk]
  rcases hc : (host.connect path).1 with e | client
  rotate_left
  · exact .inl ⟨_, _, .answered address status.id client hb hsocket hc⟩
  by_cases hr : e.kind = .connectionRefused
  · rcases Tree.unlink_of_status hsocket with hg | ⟨e', he⟩
    · exact .inr ⟨address, _, hb, .dead status.id hsocket ⟨e, hc, hr⟩ hg⟩
    · exact .inl ⟨_, _, .unremovable address status.id e' hb hsocket ⟨e, hc, hr⟩ he⟩
  by_cases hn : e.kind = .notFound
  · exact .inr ⟨address, host, hb, .vanished status.id e hsocket hc hn⟩
  · exact .inl ⟨_, _, .unclear address status.id e hb hsocket hc hr hn⟩

/-! ### One call at a time -/

/-- What a bind that lets others in comes to, as the listener does. -/
def progressOf : Except ListenerError Task → Progress
  | .ok u => .waits u
  | .error err => .failed err

theorem Proceeds.react {result : Except ListenerError Task}
    (h : Proceeds host fd path address t result host') (x : Listener) :
    x.react host (.reply t .files) = (progressOf result, x, host') := by
  cases h with
  | free e hs => simp [Listener.react, Listener.afterLook, look_free hs, progressOf]
  | noSocket status hs hk =>
    simp [Listener.react, Listener.afterLook, look_noSocket hs hk, progressOf]
  | seen f hs => simp [Listener.react, Listener.afterLook, look_eq_true.mpr ⟨f, hs⟩, progressOf]
  | answered client hc =>
    simp [Listener.react, Listener.afterProbe, isDead_answered hc, progressOf]
  | refused hr => simp [Listener.react, Listener.afterProbe, isDead_refused hr, progressOf]
  | vanished e hc hn =>
    simp [Listener.react, Listener.afterProbe, isDead_vanished hc hn, progressOf]
  | unclear e hc hr hn =>
    simp [Listener.react, Listener.afterProbe, isDead_unclear hc hr hn, progressOf]
  | removed f hg => simp [Listener.react, Listener.afterClear, remove_removes hg, progressOf]
  | unremovable e he => simp [Listener.react, Listener.afterClear, remove_stuck he, progressOf]

theorem Proceeds.takes {result : Except ListenerError Task}
    (h : Proceeds host fd path address t result host') : t.takes .files = true := by
  cases h <;> rfl

/-- What comes before the native bind holds the lock and makes no native call. -/
theorem Proceeds.onward {u : Task} (h : Proceeds host fd path address t (.ok u) host')
    (hne : u ≠ .binding fd path address) : u.holdsLock = true ∧ ∀ config, u.call config = none := by
  cases h with
  | seen | refused => exact ⟨rfl, fun _ => rfl⟩
  | free | vanished | removed => exact absurd rfl hne

theorem proceeds_looking (host : Host) (fd : Fd) (path : Path) (address : AddressRecord) :
    ∃ result host', Proceeds host fd path address (.looking fd path address) result host' := by
  rcases hs : host.tree.status path with e | status
  · exact ⟨_, _, .free e hs⟩
  by_cases hk : status.kind = .socket
  · exact ⟨_, _, .seen status.id (by rw [SocketAt, hs, ← hk])⟩
  · exact ⟨_, _, .noSocket status hs hk⟩

theorem proceeds_probing (host : Host) (fd : Fd) (path : Path) (address : AddressRecord) :
    ∃ result host', Proceeds host fd path address (.probing fd path address) result host' := by
  rcases hc : (host.connect path).1 with e | client
  rotate_left
  · exact ⟨_, _, .answered client hc⟩
  by_cases hr : e.kind = .connectionRefused
  · exact ⟨_, _, .refused ⟨e, hc, hr⟩⟩
  by_cases hn : e.kind = .notFound
  · exact ⟨_, _, .vanished e hc hn⟩
  · exact ⟨_, _, .unclear e hc hr hn⟩

theorem proceeds_clearing (host : Host) (fd : Fd) (path : Path) (address : AddressRecord) :
    ∃ result host', Proceeds host fd path address (.clearing fd path address) result host' := by
  rcases he : host.tree.unlink path with e | tree
  · exact ⟨_, _, .unremovable e he⟩
  · obtain ⟨f, -, hg⟩ := Tree.removes_of_unlink he
    exact ⟨_, _, .removed f hg⟩

end Ways

/-! ## Nothing recorded -/

/-- A listener that was neither bound nor closed has no path, and takes no file for its own. -/
def State.Blank (s : State) : Prop :=
  ∀ (l : Nat) (x : Listener), s.listeners[l]? = some x → x.phase = .unbound →
    x.path = none ∧ x.created = none

section Recorded

variable {s s' : State} {l : Nat} {x : Listener} {g : Trigger} {host : Host} {e : Event}

theorem Becomes.eq_of_unbound {y : Listener} (h : Becomes x g y) (hu : y.phase = .unbound) :
    y = x := by
  cases h with
  | same g => rfl
  | closed quiet => simp [Listener.retired] at hu
  | givenUp k path created r => simp [Listener.retired] at hu
  | bound k path created r => simp at hu

theorem State.Blank.take (h : s.Blank) (hx : s.listeners[l]? = some x) :
    (s.take l (x.react host g)).Blank := by
  intro k y hy hu
  obtain ⟨rfl, rfl⟩ | ⟨-, hy⟩ := take_cases hx hy
  · have hsame := (x.react_becomes host g).eq_of_unbound hu
    rw [hsame] at hu ⊢
    exact h l x hx hu
  · exact h k y hy hu

theorem State.Blank.turn (h : s.Blank) (ht : Turn s e s') : s'.Blank := by
  induction ht with
  | aside e ha =>
    intro l x hx
    exact h l x (ha.listeners ▸ hx)
  | world host => exact h
  | made config fd rest ht =>
    intro l x hx hu
    rcases Nat.lt_or_ge l s.listeners.length with hlt | hge
    · exact h l x ((List.getElem?_append_left hlt).symm.trans hx) hu
    · have hnew := (List.getElem?_append_right hge).symm.trans hx
      obtain rfl := List.mem_singleton.mp (List.mem_of_getElem? hnew)
      exact ⟨rfl, rfl⟩
  | asked op l x g hop hd hr => exact State.Blank.take (s := s.note _) h hr.listener
  | answered l x t r rest ht htakes hx =>
    exact State.Blank.take (s := { s with tasks := rest }.note _) h hx
  | dropped l hl => exact h
  | letGo e m l x ht hr ih => exact State.Blank.take ih hr.listener

theorem State.Blank.raise (h : s.Blank) (i : Nat) : (s.raise i).Blank := by
  intro l x hx
  rw [listeners_raise] at hx
  exact h l x hx

theorem State.Blank.interleave (h : s.Blank) (es : List (Nat × Event)) :
    (s.interleave es).Blank := by
  induction es generalizing s with
  | nil => exact h
  | cons e es ih => exact ih ((h.raise e.1).turn (turn_step _ e.2))

end Recorded

/-! ## The stages of a bind -/

/-- The step from `s` to `s'` ends an operation with an error, and that is all that is left of it:
everything goes on as from `s`. -/
structure State.FailsWhole (s s' : State) (e : Entry) (err : ListenerError) : Prop where
  told : s'.history = s.history ++ [e, .finished (.failed err)]
  same : { s' with history := s.history } = s
  goesOn : s'.GoesOnAs s

/-- After the events, a bind of listener `l` that began in `s` waits in a task, above what waited in
`s`. The listener is `y` then, and its calls were these. -/
structure State.BindWaits (s : State) (l : Nat) (es : List Event) (t : Task) (y : Listener)
    (calls : List Call) : Prop where
  tasks : (s.run es).tasks = .working l t :: s.tasks
  listener : (s.run es).listener? l = some y
  calls : (s.tasksOf l es).filterMap (Task.call y.config) = calls

/-- The own file of a bind is gone, if it was there and could be removed; another one in its place
stays. -/
inductive OwnGone (host : Host) (path : Path) (created : Option FileId) : Host → Prop
  | removed (f : FileId) (hc : created = some f) (hs : SocketAt host path f)
      (hg : host.tree.Removes path f) : OwnGone host path created (host.without f)
  | stuck (f : FileId) (e : IoError) (hc : created = some f) (hs : SocketAt host path f)
      (he : host.tree.unlink path = .error e) : OwnGone host path created host
  | spared (hs : ∀ f, created = some f → ¬ SocketAt host path f) : OwnGone host path created host

section Stages

variable (s : State) (l : Nat) (x : Listener) (fd : Fd) (path : Path) (address : AddressRecord)

/-- After the events, a bind that has failed half way has seen its own file at the path, and let
others in. -/
structure Sweeps (f : FileId) (cause : ListenerError) (es : List Event) : Prop where
  waits : s.BindWaits l es (.sweeping path f false (.error cause)) x.retired
    [.bind fd address, .listen fd x.config.backlog, .close fd]
  /-- It removes what is at the path by now, and tells what it has failed by. -/
  ends : (s.run es).step (.reply .files) = { s.run es with
    host := (remove (s.run es).host path).2
    tasks := s.tasks
    history := (s.run es).history ++ [.replied .files, .finished (.failed cause)] }

/-- After the events, a bind that has failed half way waits in its native close. -/
structure GivesUp (created : Option FileId) (cause : ListenerError) (es : List Event) : Prop where
  waits : s.BindWaits l es (.givingUp fd path created cause) x.retired
    [.bind fd address, .listen fd x.config.backlog, .close fd]
  /-- However the close goes, the bind tells what it has failed by, and the listener is closed. -/
  ends : ∀ r, ∃ host, OwnGone (s.run es).host path created host ∧
    (s.run es).step (.reply (.done r)) = { s.run es with
      host
      tasks := s.tasks
      history := (s.run es).history ++ [.replied (.done r), .finished (.failed cause)] }
  /-- A bind that lets others in before it removes its file does so too. -/
  spares : ∀ r, (∀ f, created = some f → ¬ SocketAt (s.run es).host path f) →
    (s.run es).step (.reply (.doneSlowly r)) = { s.run es with
      tasks := s.tasks
      history := (s.run es).history ++ [.replied (.doneSlowly r), .finished (.failed cause)] }
  sweeps : ∀ r f, created = some f → SocketAt (s.run es).host path f → ∀ inside,
    ((s.run es).step (.reply (.doneSlowly r))).During l inside →
      Sweeps s l x fd path address f cause (es ++ .reply (.doneSlowly r) :: inside)
  /-- That is the only close of the descriptor, whatever comes later, and it is never shut down. -/
  once : ∀ r later, (Task.givingUp fd path created cause).takes r = true →
    s.nativeCloses l (es ++ .reply r :: later) = [fd] ∧
      s.nativeShutdowns l (es ++ .reply r :: later) = []

/-- After the events, a bind waits in its native listen. -/
structure Listens (created : Option FileId) (es : List Event) : Prop where
  waits : s.BindWaits l es (.listening fd path created) x
    [.bind fd address, .listen fd x.config.backlog]
  /-- The file is given the permissions that are asked for, and the listener is bound. -/
  bound : ∀ host, Listener.applyMode x.config (s.run es).host path = .ok host →
    (s.run es).step (.reply (.done (.ok ()))) = { s.run es with
      host
      listeners := (s.run es).listeners.set l { x with phase := .bound, path := some path, created }
      tasks := s.tasks
      history := (s.run es).history ++ [.replied (.done (.ok ())), .finished .done] }
  failed : ∀ e inside, ((s.run es).step (.reply (.done (.error e)))).During l inside →
    GivesUp s l x fd path address created (.native .listen e)
      (es ++ .reply (.done (.error e)) :: inside)
  /-- The permissions cannot be given. -/
  barred : ∀ e, Listener.applyMode x.config (s.run es).host path = .error e → ∀ inside,
    ((s.run es).step (.reply (.done (.ok ())))).During l inside →
      GivesUp s l x fd path address created (.native .bind e)
        (es ++ .reply (.done (.ok ())) :: inside)

/-- After the events, a bind waits in its native bind. -/
structure Binds (es : List Event) : Prop where
  waits : s.BindWaits l es (.binding fd path address) x [.bind fd address]
  failed : ∀ e, State.FailsWhole { s.run es with tasks := s.tasks }
    ((s.run es).step (.reply (.done (.error e)))) (.replied (.done (.error e))) (.native .bind e)
  /-- The file at the path is taken for the one that was made. -/
  made : ∀ inside, ((s.run es).step (.reply (.done (.ok ())))).During l inside →
    Listens s l x fd path address (identity? (s.run es).host path)
      (es ++ .reply (.done (.ok ())) :: inside)

/-- After the events, a bind that lets others in waits in a task before its native bind, without a
native call so far. -/
structure CallsFiles (t : Task) (next : List Event → Prop) (es : List Event) : Prop where
  waits : s.BindWaits l es t x []
  /-- It goes on in one of the ways that there are. -/
  decided : ∃ result host', Proceeds (s.run es).host fd path address t result host'
  failed : ∀ err host', Proceeds (s.run es).host fd path address t (.error err) host' →
    State.FailsWhole { s.run es with host := host', tasks := s.tasks }
      ((s.run es).step (.reply .files)) (.replied .files) err
  binds : ∀ host', Proceeds (s.run es).host fd path address t (.ok (.binding fd path address))
    host' → ∀ inside, ((s.run es).step (.reply .files)).During l inside →
      Binds s l x fd path address (es ++ .reply .files :: inside)
  /-- The native bind does not come next. -/
  goesOn : ∀ u host', Proceeds (s.run es).host fd path address t (.ok u) host' →
    u ≠ .binding fd path address → ∀ inside,
    ((s.run es).step (.reply .files)).During l inside → next (es ++ .reply .files :: inside)

def Clears : List Event → Prop :=
  CallsFiles s l x fd path address (.clearing fd path address) fun _ => False

def Probes : List Event → Prop :=
  CallsFiles s l x fd path address (.probing fd path address) (Clears s l x fd path address)

def Looks : List Event → Prop :=
  CallsFiles s l x fd path address (.looking fd path address) (Probes s l x fd path address)

end Stages

section Staged

variable {s m : State} {l : Nat} {x y : Listener} {t u : Task} {calls : List Call} {host : Host}
  {es inside : List Event} {r : Reply} {rest : List Frame} {p : Progress} {fd : Fd} {path : Path}
  {address : AddressRecord} {created : Option FileId} {cause : ListenerError}

theorem State.failsWhole_finish (s : State) (e : Entry) (err : ListenerError) :
    s.FailsWhole ((s.note e).finish (.failed err)) e err :=
  ⟨List.append_assoc s.history [e] [_], rfl, goesOnAs_of_history rfl⟩

/-! ### From call to call -/

/-- What happens inside the call of a bind changes nothing for it. -/
theorem State.BindWaits.during (h : s.BindWaits l es t y calls) (ht : t.holdsLock = true)
    (hd : (s.run es).During l inside) : s.BindWaits l (es ++ inside) t y calls := by
  obtain ⟨htasks, hlistener, hnone⟩ := hd.rests h.tasks ht h.listener
  rw [← run_append] at htasks hlistener
  refine ⟨htasks.trans h.tasks, hlistener, ?_⟩
  rw [tasksOf_append, hnone, List.append_nil]
  exact h.calls

/-- A bind goes on from one call to the next, and then something happens inside that. -/
theorem State.BindWaits.goesOn (h : s.BindWaits l es t x calls)
    (htakes : State.Frame.takes (.working l t) r = true)
    (hr : x.react (s.run es).host (.reply t r) = (.waits u, y, host)) (hu : u.holdsLock = true)
    (hc : y.config = x.config) (hd : ((s.run es).step (.reply r)).During l inside) :
    s.BindWaits l (es ++ .reply r :: inside) u y (calls ++ (u.call y.config).toList) := by
  obtain ⟨hdropped, hget⟩ := listener?_eq_some h.listener
  have hstep := step_waits h.tasks htakes h.listener hr
  have hrun : s.run (es ++ [.reply r]) = (s.run es).step (.reply r) := run_append s es [.reply r]
  have htasks : ((s.run es).step (.reply r)).tasks = .working l u :: s.tasks := by
    rw [hstep]
    rfl
  have hunder : (s.run es).under (.reply r) = s.tasks := by
    simp only [under, h.tasks, htakes, if_true]
  have hadded : (s.run es).added (.reply r) = [.working l u] := by simp [added, htasks, hunder]
  have hnext : s.BindWaits l (es ++ [.reply r]) u y (calls ++ (u.call y.config).toList) := by
    refine ⟨by rw [hrun, htasks], ?_, ?_⟩
    · rw [hrun, hstep]
      exact listener?_of_get hdropped (get_setListener hget y)
    · rw [tasksOf_append, List.filterMap_append, hc, h.calls, tasksOf_cons, hadded]
      cases hcall : u.call x.config <;> simp [Frame.task?, hcall]
  rw [← List.singleton_append, ← List.append_assoc]
  apply hnext.during hu
  rwa [hrun]

/-! ### The stages -/

theorem ownGone_finishGiveUp (host : Host) (path : Path) (created : Option FileId)
    (cause : ListenerError) :
    OwnGone host path created (Listener.finishGiveUp host path created cause).2 := by
  by_cases hown : ∃ f, created = some f ∧ SocketAt host path f
  · obtain ⟨f, rfl, hs⟩ := hown
    have hend : (Listener.finishGiveUp host path (some f) cause).2 = (remove host path).2 :=
      removeOwn_own hs
    rw [hend]
    rcases Tree.unlink_of_status hs with hg | ⟨e, he⟩
    · rw [remove_removes hg]
      exact .removed f rfl hs hg
    · rw [remove_stuck he]
      exact .stuck f e rfl hs he
  · have hspared : ∀ f, created = some f → ¬ SocketAt host path f :=
      fun f hc hs => hown ⟨f, hc, hs⟩
    have hend : (Listener.finishGiveUp host path created cause).2 = host := by
      rcases created with _ | f
      · rfl
      · exact removeOwn_other (hspared f rfl)
    rw [hend]
    exact .spared hspared

/-- The last task of a bind leaves the listeners as they are. -/
theorem State.BindWaits.step_over (hw : s.BindWaits l es t x calls)
    (htakes : State.Frame.takes (.working l t) r = true)
    (hr : x.react (s.run es).host (.reply t r) = (.failed cause, x, host)) :
    (s.run es).step (.reply r) = { s.run es with
      host
      tasks := s.tasks
      history := (s.run es).history ++ [.replied r, .finished (.failed cause)] } := by
  have hsame := setListener_self (listener?_eq_some hw.listener).2
  rw [step_ends (o := .failed cause) hw.tasks htakes hw.listener hr rfl]
  congr 1
  exact congrArg State.listeners hsame

theorem State.BindWaits.failsWhole (hw : s.BindWaits l es t x calls)
    (htakes : State.Frame.takes (.working l t) r = true)
    (hr : x.react (s.run es).host (.reply t r) = (.failed cause, x, host)) :
    State.FailsWhole { s.run es with host, tasks := s.tasks } ((s.run es).step (.reply r))
      (.replied r) cause := by
  have hfinish : (s.run es).step (.reply r) =
      (({ s.run es with host, tasks := s.tasks } : State).note (.replied r)).finish
        (.failed cause) := by
    rw [hw.step_over htakes hr]
    simp [finish, note]
  rw [hfinish]
  exact failsWhole_finish ..

section GivingUp

variable (hw : s.BindWaits l es (.givingUp fd path created cause) x.retired calls)

include hw

/-- However the native close goes, the bind is over then. -/
theorem State.BindWaits.ends (r : Except IoError Unit) :
    ∃ host, OwnGone (s.run es).host path created host ∧
      (s.run es).step (.reply (.done r)) = { s.run es with
        host
        tasks := s.tasks
        history := (s.run es).history ++ [.replied (.done r), .finished (.failed cause)] } :=
  ⟨_, ownGone_finishGiveUp _ path created cause, hw.step_over rfl rfl⟩

theorem State.BindWaits.spares (r : Except IoError Unit)
    (hs : ∀ f, created = some f → ¬ SocketAt (s.run es).host path f) :
    (s.run es).step (.reply (.doneSlowly r)) = { s.run es with
      tasks := s.tasks
      history := (s.run es).history ++ [.replied (.doneSlowly r), .finished (.failed cause)] } := by
  apply hw.step_over rfl
  rcases created with _ | f
  · rfl
  · have hother : isOwn (s.run es).host path f = false :=
      Bool.eq_false_iff.mpr fun h => hs f rfl (isOwn_iff.mp h)
    simp [Listener.react, Listener.finishEndSlowly, Listener.madeAt, hother, Listener.told]

/-- After the native close nothing is called for the listener any more. -/
theorem State.BindWaits.lets_end (htakes : (Task.givingUp fd path created cause).takes r = true) :
    ((s.run es).step (.reply r)).listeners[l]? = some x.retired ∧
      (((s.run es).step (.reply r)).tasks = s.tasks ∨ ∃ f, ((s.run es).step (.reply r)).tasks =
        .working l (.sweeping path f false (.error cause)) :: s.tasks) := by
  have hget := (listener?_eq_some hw.listener).2
  cases Task.meets_of_takes htakes with
  | givingUp fd path created cause r =>
    obtain ⟨host, -, hend⟩ := hw.ends r
    rw [hend]
    exact ⟨hget, .inl rfl⟩
  | givingUpSlowly fd path created cause r =>
    by_cases hown : ∃ f, created = some f ∧ SocketAt (s.run es).host path f
    · obtain ⟨f, rfl, hs⟩ := hown
      have hreact : x.retired.react (s.run es).host
          (.reply (.givingUp fd path (some f) cause) (.doneSlowly r)) =
          (.waits (.sweeping path f false (.error cause)), x.retired, (s.run es).host) := by
        simp [Listener.react, Listener.finishEndSlowly, Listener.madeAt, isOwn_iff.mpr hs]
      rw [step_waits hw.tasks rfl hw.listener hreact]
      exact ⟨get_setListener hget x.retired, .inr ⟨f, rfl⟩⟩
    · rw [hw.spares r fun f hc hs => hown ⟨f, hc, hs⟩]
      exact ⟨hget, .inl rfl⟩

/-- The native close of a bind that gives up is the last thing that was due of its listener. -/
theorem State.BindWaits.due_ends (hfree : s.isLocked l = false)
    (htakes : (Task.givingUp fd path created cause).takes r = true) :
    ((s.run es).step (.reply r)).due l = [] := by
  have hnone := shuts?_of_unlocked hfree
  obtain ⟨hget, htasks | ⟨f, htasks⟩⟩ := hw.lets_end htakes
  · simp [due, hget, htasks, Listener.get_retired, hnone]
  · rw [due, hget, htasks, List.filterMap_cons_none rfl, hnone]
    rfl

/-- What comes after it makes no call. -/
theorem State.BindWaits.tasksOf_ends (config : UnixConfig)
    (htakes : (Task.givingUp fd path created cause).takes r = true) :
    (s.tasksOf l (es ++ [.reply r])).filterMap (Task.call config) =
      (s.tasksOf l es).filterMap (Task.call config) := by
  have hunder : (s.run es).under (.reply r) = s.tasks := under_of_takes hw.tasks htakes
  obtain ⟨-, htasks | ⟨f, htasks⟩⟩ := hw.lets_end htakes <;>
    simp [tasksOf_append, tasksOf_cons, added, htasks, hunder, Frame.task?, Task.call]

end GivingUp

/-- The one native close of a bind that gives up. -/
theorem State.BindWaits.closesOnce (hx : s.listener? l = some x) (hfree : s.isLocked l = false)
    (hfd : x.slot.get = some fd)
    (hw : s.BindWaits l es (.givingUp fd path created cause) x.retired
      [.bind fd address, .listen fd x.config.backlog, .close fd])
    (htakes : (Task.givingUp fd path created cause).takes r = true) (later : List Event) :
    s.nativeCloses l (es ++ .reply r :: later) = [fd] ∧
      s.nativeShutdowns l (es ++ .reply r :: later) = [] := by
  have hget := (listener?_eq_some hx).2
  have hl : l < s.listeners.length := (List.getElem?_eq_some_iff.mp hget).1
  have hl' : l < ((s.run es).step (.reply r)).listeners.length := by
    have hretired := (listener?_eq_some hw.listener).2
    exact Nat.lt_of_lt_of_le (List.getElem?_eq_some_iff.mp hretired).1 (length_step _ _)
  have hrun : s.run (es ++ [.reply r]) = (s.run es).step (.reply r) := run_append s es [.reply r]
  -- up to the end: what was due was closed, and no call was a shutdown
  have hclosed : s.nativeCloses l (es ++ [.reply r]) = [fd] := by
    have hdue : s.due l = [fd] := by simp [due, hget, hfd, shuts?_of_unlocked hfree]
    have hpays := s.pays_run hl (es ++ [.reply r])
    rw [hdue, hrun, hw.due_ends hfree htakes, List.append_nil, List.singleton_perm] at hpays
    exact hpays.symm
  have hshut : s.nativeShutdowns l (es ++ [.reply r]) = [] := by
    apply nativeShutdowns_eq_nil x.retired.config
    rw [hw.tasksOf_ends _ htakes, hw.calls]
    simp
  -- and after it nothing is due
  obtain ⟨hcloses, hshutdowns⟩ := settled_of_due _ hl' (hw.due_ends hfree htakes) later
  rw [← List.singleton_append, ← List.append_assoc]
  constructor
  · rw [nativeCloses_append, hrun, hclosed, hcloses]
    rfl
  · rw [nativeShutdowns_append, hrun, hshut, hshutdowns]
    rfl

theorem State.BindWaits.givesUp (hx : s.listener? l = some x) (hfree : s.isLocked l = false)
    (hfd : x.slot.get = some fd)
    (hw : s.BindWaits l es (.givingUp fd path created cause) x.retired
      [.bind fd address, .listen fd x.config.backlog, .close fd]) :
    GivesUp s l x fd path address created cause es := by
  refine { waits := hw, ends := hw.ends, spares := hw.spares, sweeps := ?sweeps, once := ?once }
  case sweeps =>
    intro r f hc hs inside hd
    subst hc
    have hreact : x.retired.react (s.run es).host
        (.reply (.givingUp fd path (some f) cause) (.doneSlowly r)) =
        (.waits (.sweeping path f false (.error cause)), x.retired, (s.run es).host) := by
      simp [Listener.react, Listener.finishEndSlowly, Listener.madeAt, isOwn_iff.mpr hs]
    have hsweeping := hw.goesOn rfl hreact rfl rfl hd
    exact ⟨hsweeping, hsweeping.step_over rfl rfl⟩
  case once =>
    intro r later htakes
    exact hw.closesOnce hx hfree hfd htakes later

theorem State.BindWaits.listens (hx : s.listener? l = some x) (hfree : s.isLocked l = false)
    (hfd : x.slot.get = some fd)
    (hw : s.BindWaits l es (.listening fd path created) x
      [.bind fd address, .listen fd x.config.backlog]) :
    Listens s l x fd path address created es := by
  -- a failed listen and permissions that cannot be given are given up in one way
  have hgives : ∀ (cause : ListenerError) (r : Except IoError Unit),
      x.afterListen (s.run es).host path created r =
        x.giveUp (s.run es).host path created cause → ∀ inside,
      ((s.run es).step (.reply (.done r))).During l inside →
        GivesUp s l x fd path address created cause (es ++ .reply (.done r) :: inside) := by
    intro cause r hafter inside hd
    have hreact : x.react (s.run es).host (.reply (.listening fd path created) (.done r)) =
        (.waits (.givingUp fd path created cause), x.retired, (s.run es).host) := by
      apply hafter.trans
      simp [Listener.giveUp, hfd, Listener.retired]
    exact (hw.goesOn rfl hreact rfl rfl hd).givesUp hx hfree hfd
  refine { waits := hw, bound := ?bound, failed := ?failed, barred := ?barred }
  case bound =>
    intro host hmode
    have hafter : x.afterListen (s.run es).host path created (.ok ()) =
        (.done, { x with phase := .bound, path := some path, created }, host) := by
      simp [Listener.afterListen, hmode]
    exact step_ends hw.tasks rfl hw.listener hafter rfl
  case failed =>
    intro e inside hd
    exact hgives _ _ rfl inside hd
  case barred =>
    intro e hmode inside hd
    apply hgives (.native .bind e) (.ok ()) _ inside hd
    simp [Listener.afterListen, hmode]

theorem State.BindWaits.binds (hx : s.listener? l = some x) (hfree : s.isLocked l = false)
    (hfd : x.slot.get = some fd)
    (hw : s.BindWaits l es (.binding fd path address) x [.bind fd address]) :
    Binds s l x fd path address es := by
  refine { waits := hw, failed := ?failed, made := ?made }
  case failed =>
    intro e
    exact hw.failsWhole rfl rfl
  case made =>
    intro inside hd
    have hafter : x.react (s.run es).host (.reply (.binding fd path address) (.done (.ok ()))) =
        (.waits (.listening fd path (identity? (s.run es).host path)), x, (s.run es).host) := rfl
    exact (hw.goesOn rfl hafter rfl rfl hd).listens hx hfree hfd

/-! ### Before the native bind -/

theorem State.BindWaits.callsFiles {next : List Event → Prop} (hx : s.listener? l = some x)
    (hfree : s.isLocked l = false) (hfd : x.slot.get = some fd) (hw : s.BindWaits l es t x [])
    (hdecided : ∃ result host', Proceeds (s.run es).host fd path address t result host')
    (hnext : ∀ u host' es', Proceeds (s.run es).host fd path address t (.ok u) host' →
      u ≠ .binding fd path address → s.BindWaits l es' u x [] → next es') :
    CallsFiles s l x fd path address t next es := by
  refine { waits := hw, decided := hdecided, failed := ?failed, binds := ?binds, goesOn := ?goesOn }
  case failed =>
    intro err host' hp
    exact hw.failsWhole hp.takes (hp.react x)
  case binds =>
    intro host' hp inside hd
    exact (hw.goesOn hp.takes (hp.react x) rfl rfl hd).binds hx hfree hfd
  case goesOn =>
    intro u host' hp hne inside hd
    obtain ⟨hlock, hcall⟩ := hp.onward hne
    have hwaits := hw.goesOn hp.takes (hp.react x) hlock rfl hd
    rw [hcall] at hwaits
    exact hnext u host' _ hp hne hwaits

theorem State.BindWaits.clears (hx : s.listener? l = some x) (hfree : s.isLocked l = false)
    (hfd : x.slot.get = some fd) (hw : s.BindWaits l es (.clearing fd path address) x []) :
    Clears s l x fd path address es := by
  refine hw.callsFiles hx hfree hfd (proceeds_clearing ..) fun u host' es' hp hne hw' => ?_
  cases hp
  exact absurd rfl hne

theorem State.BindWaits.probes (hx : s.listener? l = some x) (hfree : s.isLocked l = false)
    (hfd : x.slot.get = some fd) (hw : s.BindWaits l es (.probing fd path address) x []) :
    Probes s l x fd path address es := by
  refine hw.callsFiles hx hfree hfd (proceeds_probing ..) fun u host' es' hp hne hw' => ?_
  cases hp with
  | refused hr => exact hw'.clears hx hfree hfd
  | vanished e hc hn => exact absurd rfl hne

theorem State.BindWaits.looks (hx : s.listener? l = some x) (hfree : s.isLocked l = false)
    (hfd : x.slot.get = some fd) (hw : s.BindWaits l es (.looking fd path address) x []) :
    Looks s l x fd path address es := by
  refine hw.callsFiles hx hfree hfd (proceeds_looking ..) fun u host' es' hp hne hw' => ?_
  cases hp with
  | seen f hs => exact hw'.probes hx hfree hfd
  | free e hs => exact absurd rfl hne

end Staged

/-! ## Every bind -/

/-- What a bind comes to in `s`. -/
structure BindsAllOrNothing (s : State) : Prop where
  /-- A listener that is bound or closed is not bound again, and nothing is changed. -/
  bound : ∀ op l x path, op.bindsTo? = some (l, path) → s.listener? l = some x →
    x.phase = .bound → s.FailsWhole (s.step (.start op)) (.began op) .alreadyBound
  closed : ∀ op l x path, op.bindsTo? = some (l, path) → s.listener? l = some x →
    s.isLocked l = false → x.phase = .closed →
    s.FailsWhole (s.step (.start op)) (.began op) .alreadyClosed
  /-- A listener that was never bound has no path, and takes no file for its own. -/
  blank : s.Blank
  /-- Any other bind is refused, or finds its way clear. -/
  decided : ∀ path, (∃ err host, Refusal s.host path err host) ∨
    ∃ address host, Bindable path address ∧ Cleared s.host path host
  refused : ∀ l x fd path err host, s.listener? l = some x → s.isLocked l = false →
    x.phase = .unbound → x.slot.get = some fd → Refusal s.host path err host →
    State.FailsWhole { s with host } (s.step (.start (.bind l path))) (.began (.bind l path)) err
  /-- Where the way is clear, the native bind is called, and it is the only call so far. -/
  cleared : ∀ l x fd path address host, s.listener? l = some x → s.isLocked l = false →
    x.phase = .unbound → x.slot.get = some fd → Bindable path address →
    Cleared s.host path host →
    s.step (.start (.bind l path)) = ({ s with host }.note (.began (.bind l path))).push
        (.working l (.binding fd path address)) (.bind fd address) ∧
      ∀ inside, (s.step (.start (.bind l path))).During l inside →
        Binds s l x fd path address (.start (.bind l path) :: inside)
  /-- A bind that lets others in makes the same checks of its path first, -/
  unfit : ∀ l x path err, s.listener? l = some x → s.isLocked l = false → x.phase = .unbound →
    Unfit path err → s.FailsWhole (s.step (.start (.bindSlowly l path)))
      (.began (.bindSlowly l path)) err
  /-- and then makes its way to the native bind in one call after the other. -/
  looks : ∀ l x fd path address, s.listener? l = some x → s.isLocked l = false →
    x.phase = .unbound → x.slot.get = some fd → Bindable path address → ∀ inside,
    (s.step (.start (.bindSlowly l path))).During l inside →
      Looks s l x fd path address (.start (.bindSlowly l path) :: inside)

section Whole

variable {s : State} {l : Nat} {x : Listener} {fd : Fd} {path : Path} {host : Host}
  {err : ListenerError} {op : Operation} {g : Trigger}

/-- An operation that fails before it waits leaves nothing behind but what has become of the
host. -/
theorem State.failsWhole_asks (hop : op.asks? = some (l, g)) (hx : s.listener? l = some x)
    (hl : s.isLocked l = false) (hr : x.react s.host g = (.failed err, x, host)) :
    State.FailsWhole { s with host } (s.step (.start op)) (.began op) err := by
  obtain ⟨hd, hget⟩ := State.listener?_eq_some hx
  have hstep : s.step (.start op) =
      (({ s with host } : State).note (.began op)).finish (.failed err) := by
    rw [State.step_asks hop hx hl, hr]
    refine (State.advanceWith_same (s := s.note (.began op)) hget (.failed err) host).trans ?_
    exact State.closeUnheld_of_owned
      (s := { s.note (.began op) with host }.finish (.failed err)) hd
  rw [hstep]
  exact failsWhole_finish ..

/-- Both ways to bind make the same checks first. -/
theorem State.failsWhole_check (hop : op.bindsTo? = some (l, path)) (hx : s.listener? l = some x)
    (hl : s.isLocked l = false) (hcheck : x.checkBind path = .error err) :
    s.FailsWhole (s.step (.start op)) (.began op) err := by
  cases op with
  | bind k p =>
    obtain ⟨rfl, rfl⟩ : k = l ∧ p = path := by simpa [Operation.bindsTo?] using hop
    apply failsWhole_asks (g := .bind p) rfl hx hl
    simp [Listener.react, Listener.beginBind_of_checkBind hcheck]
  | bindSlowly k p =>
    obtain ⟨rfl, rfl⟩ : k = l ∧ p = path := by simpa [Operation.bindsTo?] using hop
    apply failsWhole_asks (g := .bindSlowly p) rfl hx hl
    simp [Listener.react, Listener.beginBindSlowly_of_checkBind hcheck]
  | _ => simp [Operation.bindsTo?] at hop

/-- A bind begins, and then something happens inside its first call. -/
theorem State.bindWaits_begun {e : Event} {t : Task} {calls : List Call} {inside : List Event}
    (hx : s.listener? l = some x) (hlock : t.holdsLock = true)
    (hstep : s.step e = { s.note (.began op) with host }.wait l x.config t)
    (hunder : s.under e = s.tasks) (hcalls : (t.call x.config).toList = calls)
    (hd : (s.step e).During l inside) : s.BindWaits l (e :: inside) t x calls := by
  have hrun : s.run [e] = s.step e := rfl
  have htasks : (s.run [e]).tasks = .working l t :: s.tasks := by
    rw [hrun, hstep]
    rfl
  have hfirst : s.BindWaits l [e] t x calls := by
    refine ⟨htasks, by rw [hrun, hstep]; exact hx, ?_⟩
    have hadded : s.added e = [.working l t] := by simp [added, hunder, ← hrun, htasks]
    rw [tasksOf_cons, hadded, ← hcalls]
    cases hcall : t.call x.config <;> simp [Frame.task?, hcall]
  exact hfirst.during hlock hd

theorem State.binds_of_cleared {address : AddressRecord} (hx : s.listener? l = some x)
    (hl : s.isLocked l = false) (hu : x.phase = .unbound) (hfd : x.slot.get = some fd)
    (hb : Bindable path address) (hc : Cleared s.host path host) :
    s.step (.start (.bind l path)) = ({ s with host }.note (.began (.bind l path))).push
        (.working l (.binding fd path address)) (.bind fd address) ∧
      ∀ inside, (s.step (.start (.bind l path))).During l inside →
        Binds s l x fd path address (.start (.bind l path) :: inside) := by
  have hstep : s.step (.start (.bind l path)) =
      { s.note (.began (.bind l path)) with host }.wait l x.config (.binding fd path address) := by
    rw [step_bind hx hl, hc.beginBind hb hu hfd]
    rfl
  refine ⟨hstep, fun inside hd => ?_⟩
  exact (bindWaits_begun hx rfl hstep rfl rfl hd).binds hx hl hfd

theorem State.looks_of_bindable {address : AddressRecord} {inside : List Event}
    (hx : s.listener? l = some x) (hl : s.isLocked l = false) (hu : x.phase = .unbound)
    (hfd : x.slot.get = some fd) (hb : Bindable path address)
    (hd : (s.step (.start (.bindSlowly l path))).During l inside) :
    Looks s l x fd path address (.start (.bindSlowly l path) :: inside) := by
  obtain ⟨-, hget⟩ := listener?_eq_some hx
  have hreact : x.react s.host (.bindSlowly path) =
      (.waits (.looking fd path address), x, s.host) := by
    simp [Listener.react, Listener.beginBindSlowly, hb.check hu hfd]
  have hstep : s.step (.start (.bindSlowly l path)) =
      { s.note (.began (.bindSlowly l path)) with host := s.host }.wait l x.config
        (.looking fd path address) := by
    rw [step_asks (g := .bindSlowly path) rfl hx hl, hreact]
    exact advanceWith_same (s := s.note (.began (.bindSlowly l path))) hget _ _
  exact (bindWaits_begun hx rfl hstep rfl rfl hd).looks hx hl hfd

end Whole

theorem Ending.bindsAllOrNothing {s : State} (h : Ending s) (hb : s.Blank) :
    BindsAllOrNothing s where
  bound := by
    intro op l x path hop hx hp
    have hl := h.unlocked_of_bound (State.listener?_eq_some hx).2 hp
    exact State.failsWhole_check hop hx hl (by simp [Listener.checkBind, hp])
  closed := by
    intro op l x path hop hx hl hp
    exact State.failsWhole_check hop hx hl (by simp [Listener.checkBind, hp])
  blank := hb
  decided := refused_or_cleared s.host
  refused := by
    intro l x fd path err host hx hl hu hfd hr
    apply State.failsWhole_asks (g := .bind path) rfl hx hl
    simp [Listener.react, hr.beginBind hu hfd]
  cleared := by
    intro l x fd path address host hx hl hu hfd hbindable hc
    exact State.binds_of_cleared hx hl hu hfd hbindable hc
  unfit := by
    intro l x path err hx hl hu hunfit
    have hop : (Operation.bindSlowly l path).bindsTo? = some (l, path) := rfl
    exact State.failsWhole_check hop hx hl (hunfit.check hu)
  looks := by
    intro l x fd path address hx hl hu hfd hbindable inside hd
    exact State.looks_of_bindable hx hl hu hfd hbindable hd

/-- In every run, in whatever order the operations go on, a bind is all or nothing. One that is
refused, or whose native bind fails, leaves its listener to be bound again, and all goes on as if
there had been no bind, but for a dead socket file that has gone, or a client that has hung up and
waits where somebody answered. One that fails after its native bind closes its descriptor once,
removes its own file if it can be removed, and leaves the listener closed. Any other leaves the
listener bound, with its two native calls made. -/
theorem bind_all_or_nothing (host : Host) (es : List (Nat × Event)) :
    BindsAllOrNothing ((State.start host).interleave es) := by
  have hblank : (State.start host).Blank := by simp [State.Blank, State.start]
  exact (ending_interleave host es).bindsAllOrNothing (hblank.interleave es)

/-- A bind is refused because another listener answers on the path, and leaves the files as they
were. The next accept of that listener would wait for a client, and hands out the one that the
refused bind was. And a bind whose native listen fails leaves its file at the path when the
directory gives up no names by then. -/
theorem failed_binds_leave_traces :
    let made := ((State.start .fresh).carryOut (.create .default)).carryOut (.create .default)
    let live := made.carryOut (.bind 0 [115])
    let refused := live.carryOut (.bind 1 [115])
    let listening := State.settle 0 1 (made.perform (.bind 0 [115]))
    let kept : Host := { listening.host with tree.frozen := [(Tree.workDir, .os 30)] }
    let failed := listening.run
      [.world kept, .reply (.done (.error .addressInUse)), .reply (.done (.ok ()))]
    ((refused.lastOutcome = .failed (.native .bind listenerActive) ∧
      refused.callsSince live.history.length = [] ∧ refused.host.tree = live.host.tree) ∧
    (live.carryOut (.accept 0)).tasks = [.working 0 (.accepting 3)] ∧
      (refused.carryOut (.accept 0)).lastOutcome = .opened 0 (Connection.ofFd 6)) ∧
    listening.tasks = [.working 0 (.listening 3 [115] (some 5))] ∧
      failed.lastOutcome = .failed (.native .listen .addressInUse) ∧ SocketAt failed.host [115] 5 :=
  ⟨⟨⟨rfl, rfl, rfl⟩, rfl, rfl⟩, rfl, rfl, rfl⟩

end LocalIpc.Unix

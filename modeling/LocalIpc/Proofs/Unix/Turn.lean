import LocalIpc.Proofs.Host.Files
import LocalIpc.Proofs.Unix.Step
/-!
# What a step of socket listeners can do

A step lets one listener react, to an operation that begins or to a reply to one of its tasks, or it
is the business of no listener. An operation that ends may let its listener go, and then the close
is one more reaction. None of this needs a promise about the descriptors that replies bring.
-/

namespace LocalIpc.Unix

/-! ## Reactions -/

/-- What a listener reacts to. -/
inductive Trigger
  | bind (path : Path)
  | bindSlowly (path : Path)
  | accept
  | close (quiet : Bool)
  /-- A task goes on. -/
  | reply (t : Task) (r : Reply)

/-- The reaction needs the lock of the listener. -/
def Trigger.needsLock : Trigger → Bool
  | bind _ | bindSlowly _ | close _ => true
  | accept => false
  | reply t _ => t.holdsLock

/-- What an operation asks of which listener. -/
def Operation.asks? : Operation → Option (Nat × Trigger)
  | bind l path => some (l, .bind path)
  | bindSlowly l path => some (l, .bindSlowly path)
  | accept l => some (l, .accept)
  | close l => some (l, .close false)
  | _ => none

/-- The listener that an operation binds, and the path that it binds it to. -/
def Operation.bindsTo? : Operation → Option (Nat × Path)
  | bind l path | bindSlowly l path => some (l, path)
  | _ => none

/-- What asks something of a listener needs its lock. -/
theorem Operation.lockOf_of_asks {op : Operation} {l : Nat} {g : Trigger}
    (h : op.asks? = some (l, g)) : State.lockOf op = some l := by
  cases op <;> simp_all [asks?, State.lockOf]

theorem Operation.asks_of_lockOf {op : Operation} {l : Nat} (h : State.lockOf op = some l) :
    ∃ g, op.asks? = some (l, g) := by
  cases op <;> simp_all [asks?, State.lockOf]

/-- What begins an operation is no reply. -/
theorem Operation.asks?_ne_reply {op : Operation} {l : Nat} {g : Trigger}
    (hop : op.asks? = some (l, g)) (t : Task) (r : Reply) : g ≠ .reply t r := by
  cases op <;> simp_all [Operation.asks?] <;> (rintro rfl; simp_all)

/-- How far an operation comes when the listener reacts, with the listener and the host after it. -/
def Listener.react (x : Listener) (host : Host) : Trigger → Progress × Listener × Host
  | .bind path => ((x.beginBind host path).1, x, (x.beginBind host path).2)
  | .bindSlowly path => (x.beginBindSlowly path, x, host)
  | .accept => (x.beginAccept, x, host)
  | .close quiet => x.beginClose host quiet
  | .reply (.binding fd path _) (.done r) => (afterBind host fd path r, x, host)
  | .reply (.listening _ path created) (.done r) => x.afterListen host path created r
  | .reply (.givingUp _ path created cause) (.done _) =>
    ((finishGiveUp host path created cause).1, x, (finishGiveUp host path created cause).2)
  | .reply (.accepting _) (.opened r) => (x.afterAccept r, x, host)
  | .reply (.refusing _) (.done _) => (.failed .alreadyClosed, x, host)
  | .reply (.shuttingDown fd quiet) (.done _) => (.waits (.closing fd quiet), x, host)
  | .reply (.closing _ quiet) (.done r) =>
    ((x.finishClose host quiet r).1, x, (x.finishClose host quiet r).2)
  | .reply (.givingUp _ path created cause) (.doneSlowly _) =>
    (finishEndSlowly host (madeAt path created) false (.error cause), x, host)
  | .reply (.closing _ quiet) (.doneSlowly r) =>
    (finishEndSlowly host x.own? quiet (r.mapError (.native .close)), x, host)
  | .reply (.looking fd path address) .files => (afterLook host fd path address, x, host)
  | .reply (.probing fd path address) .files =>
    ((afterProbe host fd path address).1, x, (afterProbe host fd path address).2)
  | .reply (.clearing fd path address) .files =>
    ((afterClear host fd path address).1, x, (afterClear host fd path address).2)
  | .reply (.sweeping path _ quiet result) .files =>
    (told quiet result, x, (remove host path).2)
  | .reply _ _ => (.over, x, host)

/-- A reply of another kind than the task waits for comes to nothing. -/
theorem Listener.react_untaken {x : Listener} {host : Host} {t : Task} {r : Reply}
    (h : t.takes r = false) : x.react host (.reply t r) = (.over, x, host) := by
  cases t <;> cases r <;> first | rfl | simp [Task.takes] at h

/-- What it takes for a listener to be bound to a path. -/
theorem Listener.checkBind_eq_ok {x : Listener} {path : Path} {fd : Fd} {address : AddressRecord} :
    x.checkBind path = .ok (fd, address) ↔ x.phase = .unbound ∧ path ≠ [] ∧
      AddressRecord.encode .family path = .ok address ∧ x.slot.get = some fd := by
  unfold checkBind
  cases hp : x.phase with
  | unbound =>
    by_cases hne : path = []
    · simp [hne]
    rcases haddress : AddressRecord.encode .family path with e | a
    · simp [hne, bind, Except.bind]
    · cases hslot : x.slot.get <;> simp [hne, bind, Except.bind, and_comm]
  | _ => simp

/-- The error that an operation at its end has yet to tell of. -/
def Task.tells? : Task → Option ListenerError
  | givingUp _ _ _ cause => some cause
  | sweeping _ _ _ (.error e) => some e
  | _ => none

/-- A bind goes on from one task at the file system to the next, and to its native call. -/
inductive Task.Leads : Task → Task → Prop
  | free (fd : Fd) (path : Path) (address : AddressRecord) :
      Leads (.looking fd path address) (.binding fd path address)
  | seen (fd : Fd) (path : Path) (address : AddressRecord) :
      Leads (.looking fd path address) (.probing fd path address)
  | gone (fd : Fd) (path : Path) (address : AddressRecord) :
      Leads (.probing fd path address) (.binding fd path address)
  | dead (fd : Fd) (path : Path) (address : AddressRecord) :
      Leads (.probing fd path address) (.clearing fd path address)
  | cleared (fd : Fd) (path : Path) (address : AddressRecord) :
      Leads (.clearing fd path address) (.binding fd path address)

/-- The task that a reaction goes on to wait in. -/
inductive Follows (x : Listener) (host : Host) : Trigger → Task → Prop
  | binding (path : Path) (fd : Fd) (address : AddressRecord)
      (hc : x.checkBind path = .ok (fd, address)) :
      Follows x host (.bind path) (.binding fd path address)
  /-- The file is taken for the one that the native bind has made. -/
  | listening (fd : Fd) (path : Path) (address : AddressRecord) (u : Unit) :
      Follows x host (.reply (.binding fd path address) (.done (.ok u)))
        (.listening fd path (identity? host path))
  | givingUp (fd k : Fd) (path : Path) (created : Option FileId) (r : Except IoError Unit)
      (cause : ListenerError) (hc : cause.isMisuse = false) :
      Follows x host (.reply (.listening k path created) (.done r))
        (.givingUp fd path created cause)
  | accepting (fd : Fd) : Follows x host .accept (.accepting fd)
  | refusing (fd client : Fd) :
      Follows x host (.reply (.accepting fd) (.opened (.ok client))) (.refusing client)
  | shuttingDown (fd : Fd) (quiet : Bool) : Follows x host (.close quiet) (.shuttingDown fd quiet)
  | closing (fd : Fd) (quiet : Bool) : Follows x host (.close quiet) (.closing fd quiet)
  | shut (fd : Fd) (quiet : Bool) (r : Except IoError Unit) :
      Follows x host (.reply (.shuttingDown fd quiet) (.done r)) (.closing fd quiet)
  | looking (path : Path) (fd : Fd) (address : AddressRecord)
      (hc : x.checkBind path = .ok (fd, address)) :
      Follows x host (.bindSlowly path) (.looking fd path address)
  | led (t u : Task) (h : t.Leads u) : Follows x host (.reply t .files) u
  /-- The own file of an operation at its end is still there. -/
  | givenUp (fd : Fd) (path : Path) (f : FileId) (cause : ListenerError) (r : Except IoError Unit)
      (hs : isOwn host path f = true) :
      Follows x host (.reply (.givingUp fd path (some f) cause) (.doneSlowly r))
        (.sweeping path f false (.error cause))
  | closed (fd : Fd) (quiet : Bool) (path : Path) (f : FileId) (r : Except IoError Unit)
      (ho : x.own? = some (path, f)) (hs : isOwn host path f = true) :
      Follows x host (.reply (.closing fd quiet) (.doneSlowly r))
        (.sweeping path f quiet (r.mapError (.native .close)))

theorem Listener.told_ne_waits (quiet : Bool) (result : Except ListenerError Unit) (t : Task) :
    told quiet result ≠ .waits t := by
  rcases told_cases quiet result with ⟨e, heq, -⟩ | heq | heq <;> simp [heq]

theorem Listener.giveUp_waits {x : Listener} {host : Host} {path : Path} {created : Option FileId}
    {cause : ListenerError} {t : Task} (h : (x.giveUp host path created cause).1 = .waits t) :
    ∃ fd, t = .givingUp fd path created cause := by
  unfold giveUp at h
  split at h
  · exact ⟨_, (Progress.waits.inj h).symm⟩
  · exact absurd h (told_ne_waits false (.error cause) t)

theorem Listener.finishEndSlowly_waits {host : Host} {own : Option (Path × FileId)} {quiet : Bool}
    {result : Except ListenerError Unit} {t : Task}
    (h : finishEndSlowly host own quiet result = .waits t) :
    ∃ path f, own = some (path, f) ∧ isOwn host path f = true ∧
      t = .sweeping path f quiet result := by
  rcases finishEndSlowly_cases host own quiet result with ⟨path, f, ho, hs, heq⟩ | heq
  · exact ⟨path, f, ho, hs, (Progress.waits.inj (heq.symm.trans h)).symm⟩
  · exact absurd (heq.symm.trans h) (told_ne_waits _ _ _)

/-- A bind goes on with the tasks that it leads to. -/
theorem Listener.files_waits {x : Listener} {host : Host} {t u : Task} (hm : t.Meets .files)
    (h : (x.react host (.reply t .files)).1 = .waits u) : t.Leads u := by
  have hinj : ∀ {p : Progress} {v : Task}, p = .waits v → p = .waits u → v = u :=
    fun hp hu => Progress.waits.inj (hp.symm.trans hu)
  cases hm with
  | looking fd path address =>
    rcases afterLook_cases host fd path address with ⟨e, heq⟩ | heq | heq
    · exact absurd (heq.symm.trans h) (by simp)
    · exact hinj heq h ▸ .free fd path address
    · exact hinj heq h ▸ .seen fd path address
  | probing fd path address =>
    rcases afterProbe_cases host fd path address with ⟨e, heq⟩ | heq | heq
    · exact absurd (heq.symm.trans h) (by simp)
    · exact hinj heq h ▸ .gone fd path address
    · exact hinj heq h ▸ .dead fd path address
  | clearing fd path address =>
    rcases afterClear_cases host fd path address with ⟨e, heq⟩ | heq
    · exact absurd (heq.symm.trans h) (by simp)
    · exact hinj heq h ▸ .cleared fd path address
  | sweeping path f quiet result => exact absurd h (told_ne_waits _ _ _)

/-- What an operation goes on to wait in that has its reply. -/
theorem Listener.reply_waits {x : Listener} {host : Host} {u t : Task} {r : Reply} (hm : u.Meets r)
    (h : (x.react host (.reply u r)).1 = .waits t) : Follows x host (.reply u r) t := by
  cases hm with
  | accepting fd r =>
    simp only [react] at h
    unfold afterAccept at h
    split at h
    · simp at h
    · split at h
      · simp at h
      · obtain rfl := Progress.waits.inj h
        exact .refusing fd _
  | binding fd path address r =>
    simp only [react] at h
    unfold afterBind at h
    split at h
    · obtain rfl := Progress.waits.inj h
      exact .listening fd path address _
    · simp at h
  | listening k path created r =>
    simp only [react] at h
    unfold afterListen at h
    -- it gives up if the native call has failed, and also if the mode cannot be set
    split at h
    · obtain ⟨fd, rfl⟩ := giveUp_waits h
      exact .givingUp fd k path created _ _ rfl
    · split at h
      · obtain ⟨fd, rfl⟩ := giveUp_waits h
        exact .givingUp fd k path created _ _ rfl
      · simp at h
  | shuttingDown fd quiet r =>
    obtain rfl := Progress.waits.inj h
    exact .shut fd quiet r
  | refusing client r => simp [react] at h
  | givingUp fd path created cause r =>
    exact absurd h (told_ne_waits false (.error cause) t)
  | closing fd quiet r =>
    exact absurd h (told_ne_waits quiet (r.mapError (.native .close)) t)
  | givingUpSlowly fd path created cause r =>
    obtain ⟨p, f, ho, hs, rfl⟩ := finishEndSlowly_waits h
    obtain ⟨i, rfl, heq⟩ := Option.map_eq_some_iff.mp ho
    obtain ⟨rfl, rfl⟩ := Prod.mk.inj heq
    exact .givenUp fd path i cause r hs
  | closingSlowly fd quiet r =>
    obtain ⟨p, f, ho, hs, rfl⟩ := finishEndSlowly_waits h
    exact .closed fd quiet p f r ho hs
  | looking | probing | clearing | sweeping => exact .led _ _ (files_waits (by constructor) h)

theorem Listener.react_waits {x : Listener} {host : Host} {g : Trigger} {t : Task}
    (h : (x.react host g).1 = .waits t) : Follows x host g t := by
  cases g with
  | bind path =>
    simp only [react, beginBind] at h
    split at h
    · simp at h
    · split at h
      · obtain rfl := Progress.waits.inj h
        exact .binding path _ _ ‹_›
      · simp at h
  | bindSlowly path =>
    simp only [react, beginBindSlowly] at h
    split at h
    · simp at h
    · obtain rfl := Progress.waits.inj h
      exact .looking path _ _ ‹_›
  | accept =>
    simp only [react] at h
    rcases beginAccept_cases x with ⟨e, heq⟩ | ⟨fd, heq, -⟩ <;> rw [heq] at h
    · simp at h
    · obtain rfl := Progress.waits.inj h
      exact .accepting fd
  | close quiet =>
    simp only [react, beginClose] at h
    split at h
    · cases quiet <;> simp at h
    split at h
    · obtain rfl := Progress.waits.inj h
      split
      · exact .shuttingDown _ quiet
      · exact .closing _ quiet
    · exact absurd h (told_ne_waits _ _ _)
  | reply u r =>
    cases htakes : u.takes r with
    | false => simp [react_untaken htakes] at h
    | true => exact reply_waits (Task.meets_of_takes htakes) h

/-- Only a reaction that holds the lock goes on to a task that does. -/
theorem Follows.needsLock {x : Listener} {host : Host} {g : Trigger} {t : Task}
    (h : Follows x host g t) (ht : t.holdsLock = true) : g.needsLock = true := by
  cases h with
  | led t u h => cases h <;> rfl
  | _ => simp_all [Task.holdsLock, Trigger.needsLock]

/-- What a listener becomes by a reaction. -/
inductive Becomes (x : Listener) : Trigger → Listener → Prop
  | same (g : Trigger) : Becomes x g x
  | closed (quiet : Bool) : Becomes x (.close quiet) x.retired
  | givenUp (k : Fd) (path : Path) (created : Option FileId) (r : Reply) :
      Becomes x (.reply (.listening k path created) r) x.retired
  | bound (k : Fd) (path : Path) (created : Option FileId) (r : Reply) :
      Becomes x (.reply (.listening k path created) r)
        { x with phase := .bound, path := some path, created }

theorem Listener.giveUp_retires (x : Listener) (host : Host) (path : Path)
    (created : Option FileId) (cause : ListenerError) :
    (x.giveUp host path created cause).2.1 = x.retired := by
  unfold giveUp
  split <;> rfl

theorem Listener.react_becomes (x : Listener) (host : Host) (g : Trigger) :
    Becomes x g (x.react host g).2.1 := by
  cases g with
  | bind path => exact .same _
  | bindSlowly path => exact .same _
  | accept => exact .same _
  | close quiet =>
    simp only [react, beginClose]
    split
    · exact .same _
    · split <;> exact .closed quiet
  | reply t r =>
    cases htakes : t.takes r with
    | false =>
      rw [react_untaken htakes]
      exact .same _
    | true =>
      cases Task.meets_of_takes htakes with
      | listening k path created r =>
        simp only [react]
        unfold afterListen
        split
        · rw [giveUp_retires]
          exact .givenUp k path created _
        · split
          · rw [giveUp_retires]
            exact .givenUp k path created _
          · exact .bound k path created _
      | _ => exact .same _

/-- The operation is over and somebody is told, so the owner's wish to let the listener go is looked
at again. -/
def Progress.reports : Progress → Bool
  | waits _ | .over => false
  | accepted _ | done | failed _ => true

namespace State

/-- Takes what a reaction has come to, as `advanceWith` does, but lets nothing go. -/
def take (s : State) (l : Nat) (p : Progress × Listener × Host) : State :=
  let s := { s.setListener l p.2.1 with host := p.2.2 }
  match p.1 with
  | .waits t => s.wait l p.2.1.config t
  | .accepted client => s.addConnection (Connection.ofFd client) true
  | .done => s.finish .done
  | .failed e => s.finish (.failed e)
  | .over => s

/-- From `s` to `s'` nobody is told of an error but of one with the property `p`. -/
def Tells (s s' : State) (p : ListenerError → Prop) : Prop :=
  ∃ new, s'.history = s.history ++ new ∧ ∀ err, .finished (.failed err) ∈ new → p err

/-- What a step adds to the history. -/
def news (s : State) (e : Event) : List Entry := (s.step e).history.drop s.history.length

end State

/-- Listener `x` of `s` is there to react. -/
structure State.Ready (s : State) (l : Nat) (x : Listener) (g : Trigger) : Prop where
  listener : s.listeners[l]? = some x
  free : g.needsLock = true → l ∉ s.locks

/-! ## Turns -/

/-- From `s` to `s'` no listener and no file has changed, no operation of a listener has begun, and
nobody was told of a misuse. -/
structure Aside (s s' : State) : Prop where
  listeners : s'.listeners = s.listeners
  tree : s'.host.tree = s.host.tree
  working : ∀ l t, .working l t ∈ s'.tasks → .working l t ∈ s.tasks
  locks : s'.locks.Sublist s.locks
  tells : s.Tells s' fun err => err.isMisuse = false

/-- What the step of `s` on an event can come to. -/
inductive Turn (s : State) : Event → State → Prop
  | aside {s' : State} (e : Event) (h : Aside s s') : Turn s e s'
  | world (host : Host) : Turn s (.world host) { s with host }
  | made (config : UnixConfig) (fd : Fd) (rest : List Frame)
      (ht : s.tasks = .creating config :: rest) :
      Turn s (.reply (.opened (.ok fd)))
        ({ { s with tasks := rest }.note (.replied (.opened (.ok fd))) with
          listeners := s.listeners ++ [Listener.fresh config fd] }.finish
            (.created s.listeners.length))
  /-- An operation of a listener begins. -/
  | asked (op : Operation) (l : Nat) (x : Listener) (g : Trigger) (hop : op.asks? = some (l, g))
      (hd : l ∉ s.dropped) (hr : s.Ready l x g) :
      Turn s (.start op) ((s.note (.began op)).take l (x.react s.host g))
  /-- An operation of a listener goes on. -/
  | answered (l : Nat) (x : Listener) (t : Task) (r : Reply) (rest : List Frame)
      (ht : s.tasks = .working l t :: rest) (htakes : State.Frame.takes (.working l t) r = true)
      (hx : s.listeners[l]? = some x) :
      Turn s (.reply r) (({ s with tasks := rest }.note (.replied r)).take l
        (x.react s.host (.reply t r)))
  | dropped (l : Nat) (hl : l < s.listeners.length) :
      Turn s (.start (.drop l))
        ({ s.note (.began (.drop l)) with dropped := l :: s.dropped }.finish .done)
  /-- After all that, a listener is closed that nobody uses any more. -/
  | letGo (e : Event) (m : State) (l : Nat) (x : Listener) (h : Turn s e m)
      (hr : m.Ready l x (.close true)) : Turn s e (m.take l (x.react m.host (.close true)))

section Told

variable {s m s' : State} {p q : ListenerError → Prop}

theorem State.Tells.trans (h : s.Tells m p) (h' : m.Tells s' p) : s.Tells s' p := by
  obtain ⟨new, hnew, hp⟩ := h
  obtain ⟨new', hnew', hp'⟩ := h'
  refine ⟨new ++ new', by rw [hnew', hnew, List.append_assoc], fun err herr => ?_⟩
  exact (List.mem_append.mp herr).elim (hp err) (hp' err)

theorem State.Tells.mono (h : s.Tells s' p) (hpq : ∀ err, p err → q err) : s.Tells s' q := by
  obtain ⟨new, hnew, hp⟩ := h
  exact ⟨new, hnew, fun err herr => hpq err (hp err herr)⟩

/-- Entries that are no failures. -/
theorem State.Tells.of_append (new : List Entry) (h : s'.history = s.history ++ new)
    (hn : ∀ err, .finished (.failed err) ∉ new) : s.Tells s' p :=
  ⟨new, h, fun err herr => absurd herr (hn err)⟩

theorem State.Tells.same (h : s'.history = s.history) : s.Tells s' p :=
  .of_append [] (by simp [h]) (by simp)

theorem State.Tells.of_mem_news {e : Event} {err : ListenerError} (h : s.Tells (s.step e) p)
    (herr : .finished (.failed err) ∈ s.news e) : p err := by
  obtain ⟨new, hnew, hp⟩ := h
  rw [news, hnew, List.drop_left] at herr
  exact hp err herr

end Told

/-! ## What a reaction leaves behind -/

section Taken

variable {s : State} {k l : Nat} {x y : Listener} {f : Frame} {t : Task} {g : Trigger}
  {p : Progress × Listener × Host}

@[simp] theorem State.host_take : (s.take l p).host = p.2.2 := by
  rcases p with ⟨_ | _ | _ | _ | _, y, host⟩ <;> rfl

@[simp] theorem State.listeners_take : (s.take l p).listeners = s.listeners.set l p.2.1 := by
  rcases p with ⟨_ | _ | _ | _ | _, y, host⟩ <;> rfl

theorem State.mem_tasks_take :
    f ∈ (s.take l p).tasks ↔ (∃ t, p.1 = .waits t ∧ f = .working l t) ∨ f ∈ s.tasks := by
  rcases p with ⟨_ | _ | _ | _ | _, y, host⟩ <;>
    simp [take, wait, addConnection, finish, note, setListener]

/-- The failure that somebody is told of is what the reaction has come to. -/
theorem State.tells_take : s.Tells (s.take l p) fun err => p.1 = .failed err := by
  rcases p with ⟨t | _ | _ | e | _, y, host⟩
  · exact .of_append ((t.call y.config).map Entry.called).toList rfl (by simp)
  · exact .of_append [_] rfl (by simp)
  · exact .of_append [_] rfl (by simp)
  · exact ⟨[.finished (.failed e)], rfl, by simp⟩
  · exact .same rfl

theorem State.get_take (hx : s.listeners[l]? = some x) :
    (s.take l p).listeners[l]? = some p.2.1 := by
  rw [listeners_take]
  exact List.getElem?_set_self (List.getElem?_eq_some_iff.mp hx).1

theorem State.get_take_ne (h : k ≠ l) : (s.take l p).listeners[k]? = s.listeners[k]? := by
  rw [listeners_take]
  exact List.getElem?_set_ne (Ne.symm h)

/-- A listener is the one that has reacted, or it is another one and as it was. -/
theorem State.take_cases (hx : s.listeners[l]? = some x)
    (hy : (s.take l p).listeners[k]? = some y) :
    l = k ∧ p.2.1 = y ∨ l ≠ k ∧ s.listeners[k]? = some y := by
  rw [listeners_take] at hy
  exact State.setListener_cases hx hy

/-- A close that nobody waits for tells of nothing. -/
theorem Listener.beginClose_quiet (x : Listener) (host : Host) :
    (x.beginClose host true).1.reports = false := by
  unfold beginClose
  split
  · rfl
  · split <;> rfl

/-- Letting go of a listener is one more reaction, or nothing. -/
theorem State.closeUnheld_cases (s : State) (l : Nat) :
    s.closeUnheld l = s ∨ ∃ x, s.Ready l x (.close true) ∧
      s.closeUnheld l = s.take l (x.react s.host (.close true)) := by
  unfold closeUnheld
  split
  rotate_left
  · exact .inl rfl
  rename_i x hx
  split
  rotate_left
  · exact .inl rfl
  rename_i hu
  refine .inr ⟨x, ⟨hx, fun _ => not_mem_locks_of_isUnheld hu⟩, ?_⟩
  have hquiet := x.beginClose_quiet s.host
  show _ = s.take l (x.beginClose s.host true)
  generalize x.beginClose s.host true = begun at hquiet ⊢
  obtain ⟨p, y, host⟩ := begun
  cases p with
  | accepted client | done | failed err => simp [Progress.reports] at hquiet
  | _ => rfl

/-- An operation goes on as its listener reacts, and then the listener may be let go. -/
theorem State.advanceWith_cases (s : State) (l : Nat) (p : Progress × Listener × Host) :
    s.advanceWith l p = s.take l p ∨ s.advanceWith l p = (s.take l p).closeUnheld l := by
  rcases p with ⟨_ | _ | _ | _ | _, y, host⟩
  · exact .inl rfl
  · exact .inr rfl
  · exact .inr rfl
  · exact .inr rfl
  · exact .inl rfl

/-- An operation that leaves the listener as it was. -/
theorem State.advanceWith_same (hx : s.listeners[l]? = some x) (q : Progress) (host : Host) :
    s.advanceWith l (q, x, host) = { s with host }.advance l x.config q := by
  unfold advanceWith
  rw [setListener_self hx]

end Taken

/-! ## What a step comes to -/

/-- The connection that an operation lets go of, and whether it tells nobody how that goes. -/
def Operation.letsGo? : Operation → Option (Nat × Bool)
  | closeConnection i => some (i, false)
  | dropConnection i => some (i, true)
  | _ => none

/-- What the step of `s` on an event comes to, with a case for each way that it can go. -/
inductive Effect (s : State) : Event → State → Prop
  /-- The operation would have to wait for a lock. -/
  | waits (op : Operation) (hlock : (State.lockOf op).any s.isLocked = true) :
      Effect s (.start op) s
  | noListener (op : Operation) (l : Nat) (hop : (∃ g, op.asks? = some (l, g)) ∨ op = .drop l)
      (hx : s.listener? l = none) : Effect s (.start op) ((s.note (.began op)).finish .gone)
  | noConnection (op : Operation) (i : Nat) (quiet : Bool) (hop : op.letsGo? = some (i, quiet))
      (hc : s.connection? i = none) : Effect s (.start op) ((s.note (.began op)).finish .gone)
  | creates (config : UnixConfig) :
      Effect s (.start (.create config))
        ((s.note (.began (.create config))).push (.creating config) .socket)
  | asks (op : Operation) (l : Nat) (x : Listener) (g : Trigger) (hop : op.asks? = some (l, g))
      (hx : s.listener? l = some x) (hfree : s.isLocked l = false) :
      Effect s (.start op) ((s.note (.began op)).advanceWith l (x.react s.host g))
  | drops (l : Nat) (x : Listener) (hx : s.listener? l = some x) :
      Effect s (.start (.drop l))
        (({ s.note (.began (.drop l)) with dropped := l :: s.dropped }.finish .done).closeUnheld l)
  | connects (path : Path) (fd : Fd) (host : Host) (hc : s.host.connect path = (.ok fd, host)) :
      Effect s (.start (.connect path))
        ({ s.note (.began (.connect path)) with host }.addConnection (Connection.ofFd fd) false)
  | refused (path : Path) (e : IoError) (host : Host)
      (hc : s.host.connect path = (.error e, host)) :
      Effect s (.start (.connect path))
        ({ s.note (.began (.connect path)) with host }.finish (.failed (.io e)))
  /-- An accepted connection gives its descriptor back in a call. -/
  | releases (op : Operation) (i : Nat) (quiet : Bool) (c : Connection)
      (hop : op.letsGo? = some (i, quiet)) (hc : s.connection? i = some ⟨c, true⟩) :
      Effect s (.start op)
        ({ s.note (.began op) with connections := s.connections.set i none }.push
          (.releasing c.handle.fd quiet) (.close c.handle.fd))
  /-- A connection that was made by connecting is closed without the socket layer. -/
  | forgets (op : Operation) (i : Nat) (quiet : Bool) (c : Connection)
      (hop : op.letsGo? = some (i, quiet)) (hc : s.connection? i = some ⟨c, false⟩) :
      Effect s (.start op)
        ({ s.note (.began op) with
            connections := s.connections.set i none
            host := (s.host.close c.handle.fd).2 }.finish .done)
  /-- Nobody waits for such a reply. -/
  | ignored (r : Reply) (h : ∀ f rest, s.tasks = f :: rest → State.Frame.takes f r = false) :
      Effect s (.reply r) s
  | notMade (config : UnixConfig) (e : IoError) (rest : List Frame)
      (ht : s.tasks = .creating config :: rest) :
      Effect s (.reply (.opened (.error e)))
        (({ s with tasks := rest }.note (.replied (.opened (.error e)))).finish
          (.failed (.native .socket e)))
  | made (config : UnixConfig) (fd : Fd) (rest : List Frame)
      (ht : s.tasks = .creating config :: rest) :
      Effect s (.reply (.opened (.ok fd)))
        ({ { s with tasks := rest }.note (.replied (.opened (.ok fd))) with
          listeners := s.listeners ++ [Listener.fresh config fd] }.finish
            (.created s.listeners.length))
  | answered (l : Nat) (x : Listener) (t : Task) (r : Reply) (rest : List Frame)
      (ht : s.tasks = .working l t :: rest) (htakes : State.Frame.takes (.working l t) r = true)
      (hx : s.listeners[l]? = some x) :
      Effect s (.reply r) (({ s with tasks := rest }.note (.replied r)).advanceWith l
        (x.react s.host (.reply t r)))
  /-- There is no such listener, so nobody goes on. -/
  | lost (l : Nat) (t : Task) (r : Reply) (rest : List Frame)
      (ht : s.tasks = .working l t :: rest) (htakes : State.Frame.takes (.working l t) r = true)
      (hx : s.listeners[l]? = none) :
      Effect s (.reply r) ({ s with tasks := rest }.note (.replied r))
  | released (fd : Fd) (quiet : Bool) (r : Except IoError Unit) (rest : List Frame) (o : Outcome)
      (ht : s.tasks = .releasing fd quiet :: rest)
      (ho : ∀ err, o = .failed err → err.isMisuse = false) :
      Effect s (.reply (.done r)) (({ s with tasks := rest }.note (.replied (.done r))).finish o)
  | world (host : Host) : Effect s (.world host) { s with host }

namespace State

variable {s : State} {l : Nat} {x : Listener} {t : Task} {r : Reply} {rest : List Frame}
  {e : Event}

/-- The reply to a task is what the listener reacts to. -/
theorem resume_eq (hx : s.listeners[l]? = some x) (hr : Frame.takes (.working l t) r = true) :
    s.resume l x t r = s.advanceWith l (x.react s.host (.reply t r)) := by
  cases Task.meets_of_takes hr with
  | listening fd path created r => rfl
  | givingUp fd path created cause r =>
    exact (advanceWith_same hx (.failed cause)
      (Listener.finishGiveUp s.host path created cause).2).symm
  | refusing client r => exact (advanceWith_same hx (.failed .alreadyClosed) s.host).symm
  | shuttingDown fd quiet r =>
    exact (advanceWith_same hx (.waits (.closing fd quiet)) s.host).symm
  | _ => exact (advanceWith_same hx _ _).symm

/-- What is asked of a listener that has an owner is what it reacts to. -/
theorem begin_asks {op : Operation} {g : Trigger} (hop : op.asks? = some (l, g))
    (hx : s.listener? l = some x) : s.begin op = s.advanceWith l (x.react s.host g) := by
  obtain ⟨-, hget⟩ := listener?_eq_some hx
  cases op with
  | bind k path =>
    obtain ⟨rfl, rfl⟩ : k = l ∧ Trigger.bind path = g := by simpa [Operation.asks?] using hop
    simp only [begin, withListener, hx]
    exact (advanceWith_same hget _ _).symm
  | bindSlowly k path =>
    obtain ⟨rfl, rfl⟩ : k = l ∧ Trigger.bindSlowly path = g := by simpa [Operation.asks?] using hop
    simp only [begin, withListener, hx]
    exact (advanceWith_same hget _ _).symm
  | accept k =>
    obtain ⟨rfl, rfl⟩ : k = l ∧ Trigger.accept = g := by simpa [Operation.asks?] using hop
    simp only [begin, withListener, hx]
    exact (advanceWith_same hget _ _).symm
  | close k =>
    obtain ⟨rfl, rfl⟩ : k = l ∧ Trigger.close false = g := by simpa [Operation.asks?] using hop
    simp only [begin, withListener, hx]
    rfl
  | _ => simp [Operation.asks?] at hop

theorem begin_asks_gone {op : Operation} {g : Trigger} (hop : op.asks? = some (l, g))
    (hx : s.listener? l = none) : s.begin op = s.finish .gone := by
  cases op <;> simp_all [Operation.asks?, begin, withListener]

theorem step_asks {op : Operation} {g : Trigger} (hop : op.asks? = some (l, g))
    (hx : s.listener? l = some x) (hl : s.isLocked l = false) :
    s.step (.start op) = (s.note (.began op)).advanceWith l (x.react s.host g) := by
  have hlock : (lockOf op).any s.isLocked = false := by
    simp [Operation.lockOf_of_asks hop, hl]
  simp only [step, perform, hlock, Bool.false_eq_true, if_false]
  exact begin_asks (s := s.note (.began op)) hop hx

theorem effect_asks {op : Operation} {g : Trigger} (hop : op.asks? = some (l, g))
    (hl : s.isLocked l = false) : Effect s (.start op) ((s.note (.began op)).begin op) := by
  rcases hx : s.listener? l with _ | x
  · rw [begin_asks_gone (s := s.note (.began op)) hop hx]
    exact .noListener op l (.inl ⟨g, hop⟩) hx
  · rw [begin_asks (s := s.note (.began op)) hop hx]
    exact .asks op l x g hop hx hl

theorem effect_letGo {op : Operation} {i : Nat} {quiet : Bool}
    (hop : op.letsGo? = some (i, quiet)) :
    Effect s (.start op) ((s.note (.began op)).letGo i quiet) := by
  have hsame : (s.note (.began op)).connection? i = s.connection? i := rfl
  unfold letGo
  rw [hsame]
  rcases hc : s.connection? i with _ | ⟨c, _ | _⟩
  · exact .noConnection op i quiet hop hc
  · exact .forgets op i quiet c hop hc
  · exact .releases op i quiet c hop hc

theorem effect_perform (s : State) (op : Operation) : Effect s (.start op) (s.perform op) := by
  unfold perform
  split
  · exact .waits op ‹_›
  rename_i hlock
  have hfree : ∀ {l}, lockOf op = some l → s.isLocked l = false := by
    intro l hl
    simpa [hl] using hlock
  cases op with
  | create config => exact .creates config
  | bind l path => exact effect_asks rfl (hfree rfl)
  | bindSlowly l path => exact effect_asks rfl (hfree rfl)
  | accept l => exact effect_asks rfl (hfree rfl)
  | close l => exact effect_asks rfl (hfree rfl)
  | drop l =>
    have hsame : (s.note (.began (.drop l))).listener? l = s.listener? l := rfl
    simp only [begin, withListener, hsame]
    rcases hx : s.listener? l with _ | x
    · exact .noListener _ l (.inr rfl) hx
    · exact .drops l x hx
  | connect path =>
    have hsame : (s.note (.began (.connect path))).host = s.host := rfl
    simp only [begin, hsame]
    rcases hc : s.host.connect path with ⟨e | fd, host⟩
    · exact .refused path e host hc
    · exact .connects path fd host hc
  | closeConnection i => exact effect_letGo rfl
  | dropConnection i => exact effect_letGo rfl

theorem effect_reply (s : State) (r : Reply) : Effect s (.reply r) (s.reply r) := by
  unfold reply
  split
  · rename_i hnil
    exact .ignored r (by simp [hnil])
  rename_i f rest ht
  split
  rotate_left
  · rename_i htakes
    refine .ignored r fun k below hk => ?_
    obtain ⟨rfl, -⟩ := List.cons.inj (ht.symm.trans hk)
    exact Bool.eq_false_iff.mpr htakes
  rename_i htakes
  cases f with
  | creating config =>
    rcases r with (e | fd) | r | r | _
    · exact .notMade config e rest ht
    · exact .made config fd rest ht
    all_goals simp [Frame.takes] at htakes
  | working l t =>
    rcases hx : s.listeners[l]? with _ | x
    · have hnone : ({ s with tasks := rest }.note (.replied r)).listeners[l]? = none := hx
      simp only [resumeFrame, hnone]
      exact .lost l t r rest ht htakes hx
    · have hx' : ({ s with tasks := rest }.note (.replied r)).listeners[l]? = some x := hx
      simp only [resumeFrame, hx']
      rw [resume_eq hx' htakes]
      exact .answered l x t r rest ht htakes hx
  | releasing fd quiet =>
    obtain ⟨r, rfl⟩ := takes_releasing htakes
    obtain ⟨o, ho, heq⟩ := resumeFrame_releasing
      ({ s with tasks := rest }.note (.replied (.done r))) fd quiet r
    rw [heq]
    exact .released fd quiet r rest o ht ho

/-- Every step comes to one of the effects. What a step keeps is shown for each of them. -/
theorem effect_step (s : State) (e : Event) : Effect s e (s.step e) := by
  cases e with
  | start op => exact s.effect_perform op
  | reply r => exact s.effect_reply r
  | world host => exact .world host

end State

/-! ## Every step is a turn -/

namespace State

variable {s : State} {l : Nat} {rest : List Frame} {e : Event}

theorem turn_closeUnheld {m : State} (h : Turn s e m) (l : Nat) : Turn s e (m.closeUnheld l) := by
  rcases m.closeUnheld_cases l with heq | ⟨x, hr, heq⟩ <;> rw [heq]
  · exact h
  · exact .letGo e m l x h hr

theorem turn_advanceWith {m : State} {p : Progress × Listener × Host} (h : Turn s e (m.take l p)) :
    Turn s e (m.advanceWith l p) := by
  rcases m.advanceWith_cases l p with heq | heq <;> rw [heq]
  · exact h
  · exact turn_closeUnheld h l

/-- One entry that is no failure of misuse. -/
theorem aside_note {s m : State} (new : List Entry) (hl : m.listeners = s.listeners)
    (htree : m.host.tree = s.host.tree) (ht : m.tasks = s.tasks)
    (hh : m.history = s.history ++ new)
    (hn : ∀ err, .finished (.failed err) ∈ new → err.isMisuse = false) : Aside s m :=
  ⟨hl, htree, fun _ _ h => ht ▸ h, by rw [locks, ht]; exact List.Sublist.refl _, new, hh, hn⟩

/-- A task that is none of a listener's begins. -/
theorem aside_push {s m : State} (op : Operation) (hl : m.listeners = s.listeners)
    (htree : m.host.tree = s.host.tree) (ht : m.tasks = s.tasks)
    (hh : m.history = s.history ++ [.began op]) {f : Frame} (hf : ∀ l t, f ≠ .working l t)
    (c : Call) : Aside s (m.push f c) := by
  refine ⟨hl, htree, fun l t h => ?_, ?_, .of_append [.began op, .called c] ?_ (by simp)⟩
  · exact ht ▸ (List.mem_cons.mp h).resolve_left fun heq => hf l t heq.symm
  · have hlocks : f.locks = [] := by
      cases f with
      | working l t => exact absurd rfl (hf l t)
      | _ => rfl
    simp only [locks, push, note, List.flatMap_cons, hlocks, ht]
    exact List.Sublist.refl _
  · simp [push, note, hh]

/-- A task ends that no listener goes on with. -/
theorem aside_pop {m : State} {f : Frame} (new : List Entry) (ht : s.tasks = f :: rest) (r : Reply)
    (hl : m.listeners = s.listeners) (htree : m.host.tree = s.host.tree) (htasks : m.tasks = rest)
    (hh : m.history = s.history ++ .replied r :: new)
    (hn : ∀ err, .finished (.failed err) ∈ new → err.isMisuse = false) : Aside s m := by
  refine ⟨hl, htree, fun l t h => ?_, ?_, .replied r :: new, hh, fun err herr => ?_⟩
  · rw [ht]
    exact List.mem_cons_of_mem _ (htasks ▸ h)
  · rw [locks, locks, htasks, ht, List.flatMap_cons]
    exact List.sublist_append_right _ _
  · exact hn err ((List.mem_cons.mp herr).resolve_left (by simp))

theorem turn_step (s : State) (e : Event) : Turn s e (s.step e) := by
  have heffect := s.effect_step e
  generalize s.step e = s' at heffect ⊢
  -- whatever lets no listener react is aside
  cases heffect with
  | waits op hlock => exact .aside _ (aside_note [] rfl rfl rfl (by simp) (by simp))
  | noListener op l | noConnection op i quiet =>
    exact .aside _ (aside_note [.began op, .finished .gone] rfl rfl rfl (by simp [finish, note])
      (by simp))
  | creates config =>
    exact .aside _ (aside_push (s := s) (m := s.note (.began (.create config)))
      (f := .creating config) _ rfl rfl rfl rfl (by simp) .socket)
  | asks op l x g hop hx hfree =>
    obtain ⟨hd, hget⟩ := listener?_eq_some hx
    exact turn_advanceWith (.asked op l x g hop hd ⟨hget, fun _ => not_mem_locks_of_isLocked hfree⟩)
  | drops l x hx =>
    have hlt := (List.getElem?_eq_some_iff.mp (listener?_eq_some hx).2).1
    exact turn_closeUnheld (.dropped l hlt) l
  | connects path fd host hc =>
    refine .aside _ (aside_note (s := s) [.began (.connect path), .finished (.opened _ _)] rfl
      ?_ rfl (List.append_assoc ..) (by simp))
    exact (congrArg (·.2.tree) hc).symm.trans (Host.tree_connect s.host path)
  | refused path e host hc =>
    refine .aside _ (aside_note (s := s) [.began (.connect path), .finished (.failed (.io e))] rfl
      ?_ rfl (List.append_assoc ..) (by simp [ListenerError.isMisuse]))
    exact (congrArg (·.2.tree) hc).symm.trans (Host.tree_connect s.host path)
  | releases op i quiet c hop hc =>
    exact .aside _ (aside_push (s := s) (m := { s.note (.began op) with
      connections := s.connections.set i none }) (f := .releasing _ quiet) op rfl rfl rfl rfl
      (by simp) _)
  | forgets op i quiet c hop hc =>
    refine .aside _ (aside_note (s := s) [.began op, .finished .done] rfl (Host.tree_close _ _) rfl
      ?_ (by simp))
    simp [finish, note]
  | ignored r => exact .aside _ (aside_note [] rfl rfl rfl (by simp) (by simp))
  | notMade config e rest ht =>
    exact .aside _ (aside_pop [.finished (.failed (.native .socket e))] ht _ rfl rfl rfl
      (List.append_assoc ..) (by simp [ListenerError.isMisuse]))
  | made config fd rest ht => exact .made config fd rest ht
  | answered l x t r rest ht htakes hx =>
    exact turn_advanceWith (.answered l x t r rest ht htakes hx)
  | lost l t r rest ht => exact .aside _ (aside_pop [] ht r rfl rfl rfl rfl (by simp))
  | released fd quiet r rest o ht ho =>
    exact .aside _ (aside_pop [.finished o] ht _ rfl rfl rfl (List.append_assoc ..)
      fun err herr => ho err (by simpa [eq_comm] using herr))
  | world host => exact .world host

/-- What every turn keeps, a run keeps. -/
theorem run_keeps {P : State → Prop} (h : P s)
    (hturn : ∀ {m m' : State} {e : Event}, P m → Turn m e m' → P m') (es : List Event) :
    P (s.run es) := by
  induction es generalizing s with
  | nil => exact h
  | cons e es ih => exact ih (hturn h (s.turn_step e))

end State

end LocalIpc.Unix

import LocalIpc.Unix.State
/-!
# What socket listeners do, move by move

A step of a run is a few moves, one after another: an entry in the history, a task that ends, a task
that begins, a listener that takes up its next phase. Each move says what it needs, and `Orderly`
says why it is there. What every move keeps, every run keeps.
-/

namespace LocalIpc.Unix

/-! ## Order -/

/-- The listeners whose lock an operation under way holds. -/
def Frame.locks : Frame → List Nat
  | working l t => if t.holdsLock then [l] else []
  | _ => []

def State.locks (s : State) : List Nat := s.tasks.flatMap Frame.locks

/-- Phase, slot and path of a listener go together. -/
structure Listener.Proper (x : Listener) : Prop where
  closed : x.phase = .closed ↔ x.slot.get = none
  unbound : x.phase = .unbound → x.path = none
  bound : x.phase = .bound → x.path.isSome = true

/-- A task fits the phase of its listener. -/
def Listener.Suits (x : Listener) : Task → Prop
  | .binding .. | .listening .. | .looking .. | .probing .. | .clearing .. => x.phase = .unbound
  | .accepting _ => x.phase ≠ .unbound
  | .refusing _ | .givingUp .. | .closing .. | .sweeping .. => x.phase = .closed
  | .shuttingDown .. => x.phase = .closed ∧ x.path.isSome = true

def State.Placed (s : State) : Frame → Prop
  | .working l t => ∃ x, s.listeners[l]? = some x ∧ x.Suits t
  | _ => True

/-- Every listener is in one of its phases, every task fits its listener, and no lock is held
twice. -/
structure Orderly (s : State) : Prop where
  proper : ∀ (l : Nat) (x : Listener), s.listeners[l]? = some x → x.Proper
  placed : ∀ f ∈ s.tasks, s.Placed f
  locks : s.locks.Nodup

/-! ## Moves -/

/-- The descriptor that a task will still close. -/
def Frame.owes : Frame → List Fd
  | working _ (.shuttingDown fd _) => [fd]
  | _ => []

/-- The call neither shuts a descriptor down nor closes one. -/
def Call.isPlain : Call → Bool
  | shutdown _ | close _ => false
  | _ => true

/-- The reply opens no descriptor. -/
def Reply.isPlain : Reply → Bool
  | opened (.ok _) => false
  | _ => true

/-- The last thing that happened is not a native shutdown. -/
def State.Settled (s : State) : Prop :=
  ∀ earlier fd, s.history ≠ earlier ++ [.called (.shutdown fd)]

def Listener.retired (x : Listener) : Listener := { x with phase := .closed, slot := x.slot.retire }

/-- What a step is made of. -/
inductive Move (s : State) : State → Prop
  | hosted (host : Host) : Move s { s with host }
  | began (op : Operation) : Move s (s.note (.began op))
  | finished (o : Outcome) (hs : s.Settled) : Move s (s.finish o)
  | dropped (l : Nat) (hl : l < s.listeners.length) : Move s { s with dropped := l :: s.dropped }
  /-- A connection is made that the socket layer does not know. -/
  | connected (c : Connection) :
      Move s { s with connections := s.connections ++ [some ⟨c, false⟩] }
  | forgotten (i : Nat) (c : Connection) (hc : s.connection? i = some ⟨c, false⟩) :
      Move s { s with connections := s.connections.set i none }
  -- tasks
  | pushed (f : Frame) (c : Call) (hs : s.Settled) (hc : c.isPlain = true) (hf : f.owes = [])
      (hp : s.Placed f) (hl : ∀ l ∈ f.locks, l ∉ s.locks) : Move s (s.push f c)
  /-- An operation waits before a call to the file system. -/
  | paused (l : Nat) (t : Task) (config : UnixConfig) (hs : s.Settled)
      (hc : t.call config = none) (hp : s.Placed (.working l t))
      (hl : ∀ k ∈ (Frame.working l t).locks, k ∉ s.locks) : Move s (s.wait l config t)
  | popped (f : Frame) (rest : List Frame) (r : Reply) (ht : s.tasks = f :: rest)
      (hf : f.owes = []) (hr : r.isPlain = true) :
      Move s ({ s with tasks := rest }.note (.replied r))
  -- the life of a listener
  | made (config : UnixConfig) (fd : Fd) (rest : List Frame)
      (ht : s.tasks = .creating config :: rest) (hfd : fd ≠ DescriptorSlot.invalid) :
      Move s ({ { s with tasks := rest }.note (.replied (.opened (.ok fd))) with
        listeners := s.listeners ++ [Listener.fresh config fd] }.finish
          (.created s.listeners.length))
  | bound (l : Nat) (x : Listener) (path : Path) (created : Option FileId)
      (hx : s.listeners[l]? = some x) (hp : x.phase = .unbound) (hl : l ∉ s.locks) :
      Move s (s.setListener l { x with phase := .bound, path := some path, created })
  | shutDown (l : Nat) (x : Listener) (fd : Fd) (quiet : Bool) (hs : s.Settled)
      (hx : s.listeners[l]? = some x) (hp : x.phase = .bound) (hfd : x.slot.get = some fd)
      (hl : l ∉ s.locks) :
      Move s ((s.setListener l x.retired).push (.working l (.shuttingDown fd quiet)) (.shutdown fd))
  | closed (l : Nat) (x : Listener) (fd : Fd) (t : Task) (hs : s.Settled)
      (hx : s.listeners[l]? = some x) (hp : x.phase = .unbound) (hfd : x.slot.get = some fd)
      (hl : l ∉ s.locks) (ht : (∃ quiet, t = .closing fd quiet) ∨
        ∃ path created cause, t = .givingUp fd path created cause) :
      Move s ((s.setListener l x.retired).push (.working l t) (.close fd))
  | shut (l : Nat) (fd : Fd) (quiet : Bool) (rest : List Frame) (r : Except IoError Unit)
      (ht : s.tasks = .working l (.shuttingDown fd quiet) :: rest) :
      Move s (({ s with tasks := rest }.note (.replied (.done r))).push
        (.working l (.closing fd quiet)) (.close fd))
  -- clients
  | accepted (l : Nat) (fd client : Fd) (rest : List Frame)
      (ht : s.tasks = .working l (.accepting fd) :: rest) :
      Move s (({ s with tasks := rest }.note (.replied (.opened (.ok client)))).addConnection
        (Connection.ofFd client) true)
  | refused (l : Nat) (x : Listener) (fd client : Fd) (rest : List Frame)
      (ht : s.tasks = .working l (.accepting fd) :: rest) (hx : s.listeners[l]? = some x)
      (hp : x.phase = .closed) :
      Move s (({ s with tasks := rest }.note (.replied (.opened (.ok client)))).push
        (.working l (.refusing client)) (.close client))
  | released (i : Nat) (c : Connection) (quiet : Bool) (hs : s.Settled)
      (hc : s.connection? i = some ⟨c, true⟩) :
      Move s ({ s with connections := s.connections.set i none }.push
        (.releasing c.handle.fd quiet) (.close c.handle.fd))

/-- Moves, one after another. -/
inductive Moves : State → State → Prop
  | refl (s : State) : Moves s s
  | step {s m s' : State} (h : Move s m) (ht : Moves m s') : Moves s s'

theorem Move.single {s s' : State} (h : Move s s') : Moves s s' := .step h (.refl s')

theorem Moves.trans {s m s' : State} (h : Moves s m) (h' : Moves m s') : Moves s s' := by
  induction h with
  | refl s => exact h'
  | step h ht ih => exact .step h (ih h')

/-! ## Order is kept -/

section Kept

variable {s : State} {l : Nat} {x y : Listener} {t : Task} {f : Frame} {rest : List Frame}

theorem State.history_wait {config : UnixConfig} (h : t.call config = none) :
    (s.wait l config t).history = s.history := by
  simp [State.wait, h]

theorem State.mem_locks : l ∈ s.locks ↔ ∃ t, .working l t ∈ s.tasks ∧ t.holdsLock = true := by
  simp only [State.locks, List.mem_flatMap]
  constructor
  · rintro ⟨f, hf, hl⟩
    cases f with
    | working k t =>
      by_cases ht : t.holdsLock = true
      · obtain rfl : l = k := by simpa [Frame.locks, ht] using hl
        exact ⟨t, hf, ht⟩
      · simp [Frame.locks, ht] at hl
    | _ => simp [Frame.locks] at hl
  · rintro ⟨t, hf, ht⟩
    exact ⟨_, hf, by simp [Frame.locks, ht]⟩

theorem Listener.proper_fresh {config : UnixConfig} {fd : Fd} (hfd : fd ≠ DescriptorSlot.invalid) :
    (Listener.fresh config fd).Proper := by
  refine ⟨?_, fun _ => rfl, by simp [Listener.fresh]⟩
  simp [Listener.fresh, DescriptorSlot.get, hfd]

theorem Listener.proper_retired (x : Listener) : x.retired.Proper := by
  refine ⟨?_, by simp [Listener.retired], by simp [Listener.retired]⟩
  simp [Listener.retired, DescriptorSlot.get, DescriptorSlot.retire]

theorem State.placed_set (hx : s.listeners[l]? = some x) (h : s.Placed f)
    (hs : ∀ t, f = .working l t → x.Suits t → y.Suits t) : (s.setListener l y).Placed f := by
  cases f with
  | working k t =>
    obtain ⟨z, hz, hzt⟩ := h
    obtain ⟨hlt, -⟩ := List.getElem?_eq_some_iff.mp hx
    by_cases hkl : k = l
    · subst hkl
      obtain rfl := Option.some.inj (hx.symm.trans hz)
      exact ⟨y, List.getElem?_set_self hlt, hs t rfl hzt⟩
    · exact ⟨z, (List.getElem?_set_ne (Ne.symm hkl)).trans hz, hzt⟩
  | _ => trivial

theorem State.proper_set (h : ∀ (k : Nat) (z : Listener), s.listeners[k]? = some z → z.Proper)
    (hy : y.Proper) :
    ∀ (k : Nat) (z : Listener), (s.setListener l y).listeners[k]? = some z → z.Proper := by
  intro k z hz
  by_cases hkl : l = k
  · subst hkl
    obtain ⟨hlt, -⟩ := List.getElem?_eq_some_iff.mp hz
    simp only [State.setListener, List.length_set] at hlt
    obtain rfl := Option.some.inj ((List.getElem?_set_self hlt).symm.trans hz)
    exact hy
  · exact h k z ((List.getElem?_set_ne hkl).symm.trans hz)

/-- A task that goes on without the lock suits the listener after its close too. -/
theorem Listener.Suits.retired (h : x.Suits t) (ht : t.holdsLock = false) : x.retired.Suits t := by
  cases t <;> simp_all [Listener.Suits, Listener.retired, Task.holdsLock]

theorem State.holdsLock_of_not_mem (hl : l ∉ s.locks) (hf : .working l t ∈ s.tasks) :
    t.holdsLock = false := by
  cases ht : t.holdsLock with
  | false => rfl
  | true => exact absurd (State.mem_locks.mpr ⟨t, hf, ht⟩) hl

theorem Frame.nodup_locks (f : Frame) : f.locks.Nodup := by
  cases f with
  | working l t => cases ht : t.holdsLock <;> simp [Frame.locks, ht]
  | _ => simp [Frame.locks]

theorem Frame.eq_of_mem_locks {k : Nat} (h : k ∈ (Frame.working l t).locks) : k = l := by
  cases ht : t.holdsLock <;> simp_all [Frame.locks]

theorem Orderly.enter (h : Orderly s) (hp : s.Placed f) (hl : ∀ l ∈ f.locks, l ∉ s.locks) :
    Orderly { s with tasks := f :: s.tasks } := by
  refine ⟨h.proper, fun g hg => ?_, ?_⟩
  · rcases List.mem_cons.mp hg with rfl | hg
    · exact hp
    · exact h.placed g hg
  · refine List.nodup_append.mpr ⟨f.nodup_locks, h.locks, fun l hlf k hk heq => ?_⟩
    exact hl l hlf (heq ▸ hk)

theorem Orderly.push (h : Orderly s) (c : Call) (hp : s.Placed f)
    (hl : ∀ l ∈ f.locks, l ∉ s.locks) : Orderly (s.push f c) :=
  have henter := h.enter hp hl
  ⟨henter.proper, henter.placed, henter.locks⟩

theorem Orderly.pop (h : Orderly s) (ht : s.tasks = f :: rest) (e : Entry) :
    Orderly ({ s with tasks := rest }.note e) := by
  refine ⟨h.proper, fun g hg => h.placed g (ht ▸ List.mem_cons_of_mem _ hg), ?_⟩
  have := h.locks
  rw [State.locks, ht, List.flatMap_cons] at this
  exact (List.nodup_append.mp this).2.1

/-- The lock that an operation held is free once the operation is over. -/
theorem Orderly.free (h : Orderly s) (ht : s.tasks = f :: rest) (hl : l ∈ f.locks) :
    l ∉ rest.flatMap Frame.locks := by
  have := h.locks
  rw [State.locks, ht, List.flatMap_cons] at this
  exact fun hmem => (List.nodup_append.mp this).2.2 l hl l hmem rfl

theorem Orderly.set (h : Orderly s) (hx : s.listeners[l]? = some x) (hy : y.Proper)
    (hs : ∀ t, .working l t ∈ s.tasks → x.Suits t → y.Suits t) : Orderly (s.setListener l y) := by
  refine ⟨State.proper_set h.proper hy, fun f hf => ?_, h.locks⟩
  exact State.placed_set hx (h.placed f hf) fun t heq => hs t (heq ▸ hf)

/-- A listener whose lock is free may be closed. -/
theorem Orderly.retire (h : Orderly s) (hx : s.listeners[l]? = some x) (hl : l ∉ s.locks) :
    Orderly (s.setListener l x.retired) :=
  h.set hx x.proper_retired fun _ ht hxt => hxt.retired (State.holdsLock_of_not_mem hl ht)

theorem State.get_setListener (hx : s.listeners[l]? = some x) (y : Listener) :
    (s.setListener l y).listeners[l]? = some y :=
  List.getElem?_set_self (List.getElem?_eq_some_iff.mp hx).1

/-- A listener is the one that was set, or it is another one and as it was. -/
theorem State.setListener_cases {k : Nat} {z : Listener} (hx : s.listeners[l]? = some x)
    (hz : (s.setListener l y).listeners[k]? = some z) :
    l = k ∧ y = z ∨ l ≠ k ∧ s.listeners[k]? = some z := by
  by_cases hkl : l = k
  · subst hkl
    exact .inl ⟨rfl, Option.some.inj ((State.get_setListener hx y).symm.trans hz)⟩
  · exact .inr ⟨hkl, (List.getElem?_set_ne hkl).symm.trans hz⟩

theorem Orderly.move {s' : State} (h : Orderly s) (hm : Move s s') : Orderly s' := by
  cases hm with
  | hosted host => exact ⟨h.proper, h.placed, h.locks⟩
  | began op => exact ⟨h.proper, h.placed, h.locks⟩
  | finished o hs => exact ⟨h.proper, h.placed, h.locks⟩
  | dropped l hl => exact ⟨h.proper, h.placed, h.locks⟩
  | connected c => exact ⟨h.proper, h.placed, h.locks⟩
  | forgotten i c hc => exact ⟨h.proper, h.placed, h.locks⟩
  | pushed f c hs hc hf hp hl => exact h.push c hp hl
  | paused l t config hs hc hp hl =>
    have henter := h.enter hp hl
    exact ⟨henter.proper, henter.placed, henter.locks⟩
  | popped f rest r ht hf hr => exact h.pop ht _
  | made config fd rest ht hfd =>
    -- the new listener comes last, so the others keep their places
    have hpop := h.pop ht (.replied (.opened (.ok fd)))
    refine ⟨fun l x hx => ?_, fun f hf => ?_, hpop.locks⟩
    · rcases List.mem_append.mp (List.mem_of_getElem? hx) with hmem | hmem
      · obtain ⟨k, hk⟩ := List.getElem?_of_mem hmem
        exact h.proper k x hk
      · obtain rfl := List.mem_singleton.mp hmem
        exact Listener.proper_fresh hfd
    · have hold := hpop.placed f hf
      cases f with
      | working l t =>
        obtain ⟨x, hx, hxt⟩ := hold
        exact ⟨x, (List.getElem?_append_left (List.getElem?_eq_some_iff.mp hx).1).trans hx, hxt⟩
      | _ => trivial
  | bound l x path created hx hp hl =>
    -- no task of a listener that binds is left but this one, which is over
    refine h.set hx ⟨?_, by simp, by simp⟩ fun t ht hxt => ?_
    · have := (h.proper l x hx).closed
      simpa [hp] using this
    · have := State.holdsLock_of_not_mem hl ht
      cases t <;> simp_all [Listener.Suits, Task.holdsLock]
  | shutDown l x fd quiet hs hx hp hfd hl =>
    refine (h.retire hx hl).push _ ⟨_, State.get_setListener hx _, rfl, ?_⟩ ?_
    · exact (h.proper l x hx).bound hp
    · intro k hk
      obtain rfl := Frame.eq_of_mem_locks hk
      exact hl
  | closed l x fd t hs hx hp hfd hl ht =>
    have hsuits : x.retired.Suits t := by
      rcases ht with ⟨quiet, rfl⟩ | ⟨path, created, cause, rfl⟩ <;> rfl
    refine (h.retire hx hl).push _ ⟨_, State.get_setListener hx _, hsuits⟩ fun k hk => ?_
    obtain rfl := Frame.eq_of_mem_locks hk
    exact hl
  | shut l fd quiet rest r ht =>
    obtain ⟨x, hx, hc, -⟩ := h.placed (.working l (.shuttingDown fd quiet)) (by simp [ht])
    refine (h.pop ht _).push _ ⟨x, hx, hc⟩ fun k hk => ?_
    exact h.free ht hk
  | accepted l fd client rest ht =>
    have hpop := h.pop ht (.replied (.opened (.ok client)))
    exact ⟨hpop.proper, hpop.placed, hpop.locks⟩
  | refused l x fd client rest ht hx hp =>
    refine (h.pop ht _).push _ ⟨x, hx, hp⟩ fun k hk => ?_
    simp [Frame.locks, Task.holdsLock] at hk
  | released i c quiet hs hc =>
    exact (show Orderly { s with connections := s.connections.set i none } from
      ⟨h.proper, h.placed, h.locks⟩).push _ trivial (by simp [Frame.locks])

end Kept

theorem Orderly.moves {s s' : State} (h : Orderly s) (hm : Moves s s') : Orderly s' := by
  induction hm with
  | refl s => exact h
  | step hm ht ih => exact ih (h.move hm)

end LocalIpc.Unix

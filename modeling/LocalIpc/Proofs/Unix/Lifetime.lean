import LocalIpc.Proofs.Unix.Accounting
/-!
# The life of a listener's descriptor

The descriptor of a listener is left alone until the listener is closed. Then it is shut down if the
listener was bound, and closed, and never touched again: a value that comes back is another
descriptor.
-/

namespace LocalIpc.Unix

/-! ## The end of a descriptor -/

/-- The calls that shut a descriptor down or close it. -/
def Entry.ends (fd : Fd) : Entry → List Call
  | .called (.shutdown k) => if k = fd then [.shutdown fd] else []
  | .called (.close k) => if k = fd then [.close fd] else []
  | _ => []

/-- The calls that end a descriptor, up to where its value comes back. -/
def endCalls (fd : Fd) : List Entry → List Call
  | [] => []
  | e :: es => if account.opens e = some fd then [] else e.ends fd ++ endCalls fd es

/-- The value of a descriptor was given to a new one. -/
def CameBack (fd : Fd) (es : List Entry) : Prop := ∃ e ∈ es, account.opens e = some fd

theorem cameBack_append {fd : Fd} {es fs : List Entry} :
    CameBack fd (es ++ fs) ↔ CameBack fd es ∨ CameBack fd fs := by
  simp only [CameBack, List.mem_append, or_and_right, exists_or]

theorem endCalls_append_of_cameBack {fd : Fd} {es : List Entry} (h : CameBack fd es)
    (fs : List Entry) : endCalls fd (es ++ fs) = endCalls fd es := by
  induction es with
  | nil => simp [CameBack] at h
  | cons e es ih =>
    by_cases he : account.opens e = some fd
    · simp [endCalls, he]
    · have : CameBack fd es := by simpa [CameBack, he] using h
      simp [endCalls, he, ih this]

theorem endCalls_append {fd : Fd} {es : List Entry} (h : ¬ CameBack fd es) (fs : List Entry) :
    endCalls fd (es ++ fs) = endCalls fd es ++ endCalls fd fs := by
  induction es with
  | nil => rfl
  | cons e es ih =>
    simp only [CameBack, List.mem_cons, exists_eq_or_imp, not_or] at h
    simp [endCalls, h.1, ih h.2]

/-! ## Stages -/

/-- How the descriptor of a listener ends: it is shut down first if the listener was bound. -/
def Listener.ending (x : Listener) (fd : Fd) : List Call :=
  if x.path.isSome then [.shutdown fd, .close fd] else [.close fd]

/-- The native shutdown of listener `l` is under way. -/
def State.ShutsDown (s : State) (l : Nat) (fd : Fd) : Prop :=
  ∃ quiet, .working l (.shuttingDown fd quiet) ∈ s.tasks

/-- How far the life of listener `l`, with descriptor `fd`, has come; `after` is what happened since
it was made. -/
inductive Stage (s : State) (l : Nat) (x : Listener) (fd : Fd) (after : List Entry) : Prop
  | inUse (hslot : x.slot.get = some fd) (hback : ¬ CameBack fd after)
      (hends : endCalls fd after = [])
  | shuttingDown (hp : x.phase = .closed) (hpath : x.path.isSome = true) (ht : s.ShutsDown l fd)
      (hback : ¬ CameBack fd after) (hends : endCalls fd after = [.shutdown fd])
  | ended (hp : x.phase = .closed) (ht : ∀ k, ¬ s.ShutsDown l k)
      (hends : endCalls fd after = x.ending fd) (hgone : CameBack fd after ∨ fd ∉ s.owed)

/-- Listener `l` was made with the descriptor, and `after` is what happened since then. -/
def MadeWith (es : List Entry) (l : Nat) (fd : Fd) (after : List Entry) : Prop :=
  ∃ before, es = before ++ .replied (.opened (.ok fd)) :: .finished (.created l) :: after

/-- Listener `l` was made with some descriptor, whose life is at one of its stages. -/
def State.Alive (s : State) (l : Nat) (x : Listener) : Prop :=
  ∃ fd after, MadeWith s.history l fd after ∧ Stage s l x fd after

/-- Every listener has a descriptor of its own. -/
def Lives (s : State) : Prop :=
  ∀ (l : Nat) (x : Listener), s.listeners[l]? = some x → s.Alive l x

/-! ## One owner for each descriptor -/

section Owners

variable {s s' : State} {l k : Nat} {x y : Listener} {fd : Fd}

theorem State.mem_owed_of_slot (hx : s.listeners[l]? = some x) (hfd : x.slot.get = some fd) :
    fd ∈ s.listeners.flatMap Listener.owes :=
  List.mem_flatMap.mpr ⟨x, List.mem_of_getElem? hx, by simp [Listener.owes, hfd]⟩

theorem State.mem_owed_of_shutsDown (h : s.ShutsDown l fd) : fd ∈ s.tasks.flatMap Frame.owes := by
  obtain ⟨quiet, ht⟩ := h
  exact List.mem_flatMap.mpr ⟨_, ht, List.mem_singleton_self fd⟩

theorem State.mem_owed_of_connection {i : Nat} {c : Connection}
    (hc : s.connection? i = some ⟨c, true⟩) : c.handle.fd ∈ s.heldFds := by
  exact (State.heldFds_letGo hc).mem_iff.mpr (List.mem_cons_self ..)

theorem Books.nodup_parts (h : Books s) :
    (s.tasks.flatMap Frame.owes).Nodup ∧ (s.listeners.flatMap Listener.owes).Nodup ∧
      (∀ k ∈ s.tasks.flatMap Frame.owes,
        k ∉ s.listeners.flatMap Listener.owes ∧ k ∉ s.heldFds) ∧
      ∀ k ∈ s.listeners.flatMap Listener.owes, k ∉ s.heldFds := by
  obtain ⟨ht, hrest, hd⟩ := List.nodup_append.mp h.nodup
  obtain ⟨hl, -, hd'⟩ := List.nodup_append.mp hrest
  refine ⟨ht, hl, fun k hk => ⟨fun hk' => ?_, fun hk' => ?_⟩, fun k hk hk' => hd' k hk k hk' rfl⟩
  · exact hd k hk k (List.mem_append_left _ hk') rfl
  · exact hd k hk k (List.mem_append_right _ hk') rfl

theorem Books.slot_unique (h : Books s) (hx : s.listeners[l]? = some x)
    (hy : s.listeners[k]? = some y) (hxfd : x.slot.get = some fd) (hyfd : y.slot.get = some fd) :
    l = k :=
  eq_of_mem_flatMap (f := Listener.owes) (c := fd) h.nodup_parts.2.1 hx hy
    (by simp [Listener.owes, hxfd]) (by simp [Listener.owes, hyfd])

theorem Books.shutsDown_unique (h : Books s) (hl : s.ShutsDown l fd) (hk : s.ShutsDown k fd) :
    l = k := by
  obtain ⟨q, hq⟩ := hl
  obtain ⟨r, hr⟩ := hk
  obtain ⟨i, hi⟩ := List.getElem?_of_mem hq
  obtain ⟨j, hj⟩ := List.getElem?_of_mem hr
  have hij : i = j := eq_of_mem_flatMap (f := Frame.owes) (c := fd) h.nodup_parts.1 hi hj
    (List.mem_singleton_self fd) (List.mem_singleton_self fd)
  subst hij
  rw [hi] at hj
  simp only [Option.some.injEq, Frame.working.injEq] at hj
  exact hj.1

end Owners

/-! ## A move that leaves a listener alone -/

section Carried

variable {s s' : State} {l : Nat} {x : Listener} {fd : Fd} {es after : List Entry}

/-- What is owed is not opened again. -/
theorem Books.not_cameBack (h : Books s) (hh : s'.history = s.history ++ es)
    (hf : account.OpensFresh s'.history) (hes : ∀ e ∈ es.tail, account.opens e = none)
    (ho : fd ∈ s.owed) : ¬ CameBack fd es := by
  rintro ⟨e, he, heo⟩
  rcases es with _ | ⟨e', es⟩
  · simp at he
  rcases List.mem_cons.mp he with rfl | he
  · rw [hh] at hf
    exact hf.at_split fd heo (h.isOpen_iff.mpr ho)
  · simp [hes e he] at heo

theorem timesOpened_append_of_not_cameBack (hback : ¬ CameBack fd es) :
    account.timesOpened (s.history ++ es) fd = account.timesOpened s.history fd := by
  have hnone : es.countP (fun e => account.opens e = some fd) = 0 := by
    rw [List.countP_eq_zero]
    exact fun e he heo => hback ⟨e, he, by simpa using heo⟩
  simp [Account.timesOpened, List.countP_append, hnone]

/-- What is not owed stays so until its value comes back. -/
theorem Books.not_owed (h : Books s) (h' : Books s') (hh : s'.history = s.history ++ es)
    (ho : fd ∉ s.owed) (hback : ¬ CameBack fd es) : fd ∉ s'.owed := by
  have hold := h.count fd
  have hnew := h'.count fd
  have hclosed : account.timesClosed s.history fd ≤ account.timesClosed s'.history fd := by
    rw [hh]
    simp [Account.timesClosed, List.countP_append]
  rw [hh, timesOpened_append_of_not_cameBack hback, ← hh, hold, List.count_eq_zero.mpr ho] at hnew
  exact List.count_eq_zero.mp (by omega)

/-- What was closed just now is owed by nobody. -/
theorem Books.not_owed_of_closed (h : Books s) (h' : Books s') (hh : s'.history = s.history ++ es)
    (hclose : .called (.close fd) ∈ es) (hback : ¬ CameBack fd es) : fd ∉ s'.owed := by
  have hold := h.count fd
  have hnew := h'.count fd
  have honce : s.owed.count fd ≤ 1 := List.nodup_iff_count.mp h.nodup fd
  have hclosed : account.timesClosed s.history fd < account.timesClosed s'.history fd := by
    have : 0 < es.countP fun e => account.closes e = some fd :=
      List.countP_pos_iff.mpr ⟨_, hclose, by simp [account]⟩
    rw [hh]
    simp only [Account.timesClosed, List.countP_append]
    omega
  rw [hh, timesOpened_append_of_not_cameBack hback, ← hh, hold] at hnew
  exact List.count_eq_zero.mp (by omega)

theorem MadeWith.append {l : Nat} (h : MadeWith es l fd after) (fs : List Entry) :
    MadeWith (es ++ fs) l fd (after ++ fs) := by
  obtain ⟨before, rfl⟩ := h
  exact ⟨before, by simp⟩

/-- A move that does not touch the listener, its shutdown or its descriptor. -/
theorem State.Alive.carry (h : s.Alive l x) (hx : s.listeners[l]? = some x) (hb : Books s)
    (hb' : Books s') (hh : s'.history = s.history ++ es) (hf : account.OpensFresh s'.history)
    (hes : ∀ e ∈ es.tail, account.opens e = none)
    (ht : ∀ k, s'.ShutsDown l k ↔ s.ShutsDown l k)
    (hends : ∀ fd after, Stage s l x fd after → CameBack fd after ∨ endCalls fd es = []) :
    s'.Alive l x := by
  obtain ⟨fd, after, hmade, hstage⟩ := h
  have hends := hends fd after hstage
  refine ⟨fd, after ++ es, hh ▸ hmade.append es, ?_⟩
  cases hstage with
  | inUse hslot hback hnone =>
    have ho : fd ∈ s.owed :=
      List.mem_append_right _ (List.mem_append_left _ (State.mem_owed_of_slot hx hslot))
    refine .inUse hslot ?_ ?_
    · rw [cameBack_append, not_or]
      exact ⟨hback, hb.not_cameBack hh hf hes ho⟩
    · rw [endCalls_append hback, hnone, hends.resolve_left hback]
      rfl
  | shuttingDown hp hpath hshut hback hshutdown =>
    have ho : fd ∈ s.owed := List.mem_append_left _ (State.mem_owed_of_shutsDown hshut)
    refine .shuttingDown hp hpath ((ht fd).mpr hshut) ?_ ?_
    · rw [cameBack_append, not_or]
      exact ⟨hback, hb.not_cameBack hh hf hes ho⟩
    · rw [endCalls_append hback, hshutdown, hends.resolve_left hback]
      rfl
  | ended hp hshut hall hgone =>
    -- what comes after the value has come back is about another descriptor
    refine .ended hp (fun k hk => hshut k ((ht k).mp hk)) ?_ ?_
    · by_cases hback : CameBack fd after
      · rw [endCalls_append_of_cameBack hback, hall]
      · rw [endCalls_append hback, hall, hends.resolve_left hback, List.append_nil]
    · rw [cameBack_append]
      by_cases hback : CameBack fd es
      · exact .inl (.inr hback)
      · exact hgone.imp .inl fun ho => hb.not_owed hb' hh ho hback

end Carried

/-! ## A move that leaves every listener alone -/

section Kept

variable {s s' : State} {es : List Entry}

/-- A move that touches no listener, no shutdown and no descriptor in use. -/
theorem Lives.quiet (h : Lives s) (hb : Books s) (hb' : Books s')
    (hh : s'.history = s.history ++ es) (hf : account.OpensFresh s'.history)
    (hes : ∀ e ∈ es.tail, account.opens e = none) (hl : s'.listeners = s.listeners)
    (ht : ∀ l k, s'.ShutsDown l k ↔ s.ShutsDown l k) (hends : ∀ fd, endCalls fd es = []) :
    Lives s' := by
  intro l x hx
  rw [hl] at hx
  exact (h l x hx).carry hx hb hb' hh hf hes (ht l) fun fd _ _ => .inr (hends fd)

/-- What another owner ends is not the descriptor of this listener. -/
theorem Stage.ne_of_owed {l : Nat} {x : Listener} {fd k : Fd} {after : List Entry}
    (h : Stage s l x fd after) (hk : k ∈ s.owed) (hslot : x.slot.get ≠ some k)
    (hshut : ¬ s.ShutsDown l k) : CameBack fd after ∨ k ≠ fd := by
  cases h with
  | inUse hfd => exact .inr fun heq => hslot (heq ▸ hfd)
  | shuttingDown hp hpath ht => exact .inr fun heq => hshut (heq ▸ ht)
  | ended hp ht hends hgone => exact hgone.imp_right fun ho heq => ho (heq ▸ hk)

/-- The task is a shutdown of another listener, or none at all. -/
def Frame.Spares (f : Frame) (l : Nat) : Prop := ∀ k quiet, f ≠ .working l (.shuttingDown k quiet)

theorem Frame.spares_of_owes {f : Frame} (h : f.owes = []) (l : Nat) : f.Spares l := by
  rintro k quiet rfl
  simp [Frame.owes] at h

theorem Frame.spares_of_ne {l k : Nat} (h : l ≠ k) (t : Task) : (Frame.working l t).Spares k := by
  intro fd quiet heq
  exact h (Frame.working.inj heq).1

theorem shutsDown_enter {f : Frame} {l : Nat} (hf : f.Spares l) (k : Fd) :
    ({ s with tasks := f :: s.tasks } : State).ShutsDown l k ↔ s.ShutsDown l k := by
  refine exists_congr fun quiet => ⟨fun h => ?_, fun h => List.mem_cons_of_mem _ h⟩
  rcases List.mem_cons.mp h with h | h
  · exact absurd h.symm (hf k quiet)
  · exact h

theorem shutsDown_push {f : Frame} {l : Nat} (hf : f.Spares l) (c : Call) (k : Fd) :
    (s.push f c).ShutsDown l k ↔ s.ShutsDown l k := shutsDown_enter hf k

theorem shutsDown_pop {f : Frame} {rest : List Frame} {l : Nat} (ht : s.tasks = f :: rest)
    (hf : f.Spares l) (e : Entry) (k : Fd) :
    ({ s with tasks := rest }.note e).ShutsDown l k ↔ s.ShutsDown l k := by
  refine exists_congr fun quiet => ⟨fun h => ht ▸ List.mem_cons_of_mem _ h, fun h => ?_⟩
  rcases List.mem_cons.mp (ht ▸ h) with h | h
  · exact absurd h.symm (hf k quiet)
  · exact h

/-- No shutdown of a listener is under way while its lock is free. -/
theorem State.not_shutsDown {l : Nat} (hl : l ∉ s.locks) (k : Fd) : ¬ s.ShutsDown l k := by
  rintro ⟨quiet, ht⟩
  exact hl (State.mem_locks.mpr ⟨_, ht, rfl⟩)

/-- The call that ends a descriptor ends no other one. -/
theorem endCalls_close {fd k : Fd} (h : k ≠ fd) : endCalls fd [.called (.close k)] = [] := by
  simp [endCalls, Entry.ends, account, h]

theorem endCalls_shutdown {fd k : Fd} (h : k ≠ fd) : endCalls fd [.called (.shutdown k)] = [] := by
  simp [endCalls, Entry.ends, account, h]

/-! ## One move of a listener's life -/

variable {l : Nat} {x : Listener} {fd : Fd} {rest : List Frame}

/-- A listener that is not closed is in use. -/
theorem State.Alive.inUse (h : s.Alive l x) (hp : x.phase ≠ .closed) :
    ∃ fd after, MadeWith s.history l fd after ∧ x.slot.get = some fd ∧ ¬ CameBack fd after ∧
      endCalls fd after = [] := by
  obtain ⟨fd, after, hmade, hstage⟩ := h
  cases hstage with
  | inUse hslot hback hends => exact ⟨fd, after, hmade, hslot, hback, hends⟩
  | shuttingDown hc | ended hc => exact absurd hc hp

/-- What a close of listener `l` ends is not the descriptor of another listener. -/
theorem Stage.ne_of_slot {k : Nat} {y : Listener} {fd' : Fd} {after : List Entry}
    (h : Stage s k y fd' after) (hb : Books s) (hx : s.listeners[l]? = some x)
    (hfd : x.slot.get = some fd) (hy : s.listeners[k]? = some y) (hkl : l ≠ k) :
    CameBack fd' after ∨ fd ≠ fd' := by
  have hmem := State.mem_owed_of_slot hx hfd
  refine h.ne_of_owed (List.mem_append_right _ (List.mem_append_left _ hmem)) ?_ ?_
  · exact fun hslot => hkl (hb.slot_unique hx hy hfd hslot)
  · exact fun hshut => (hb.nodup_parts.2.2.1 _ (State.mem_owed_of_shutsDown hshut)).1 hmem

/-- A new listener begins its life, and the others go on with theirs. -/
theorem Lives.made (h : Lives s) (hb : Books s) (config : UnixConfig)
    (ht : s.tasks = .creating config :: rest) (hfd : fd ≠ DescriptorSlot.invalid)
    (hs : { { s with tasks := rest }.note (.replied (.opened (.ok fd))) with
        listeners := s.listeners ++ [Listener.fresh config fd] }.finish
          (.created s.listeners.length) = s')
    (hb' : Books s') (hf : account.OpensFresh s'.history) : Lives s' := by
  subst hs
  have hh := List.append_assoc s.history [.replied (.opened (.ok fd))]
    [.finished (.created s.listeners.length)]
  intro l x hx
  by_cases hl : l < s.listeners.length
  · have hx : s.listeners[l]? = some x := (List.getElem?_append_left hl).symm.trans hx
    refine (h l x hx).carry hx hb hb' hh hf (by simp [account])
      (shutsDown_pop ht (Frame.spares_of_owes rfl l) (.replied (.opened (.ok fd))))
      fun k _ _ => .inr ?_
    simp [endCalls, Entry.ends]
  · have hlen : l = s.listeners.length := by
      obtain ⟨hlt, -⟩ := List.getElem?_eq_some_iff.mp hx
      have : l < s.listeners.length + 1 := by simpa [State.finish, State.note] using hlt
      omega
    subst hlen
    obtain rfl : Listener.fresh config fd = x := by
      simpa [State.finish, State.note] using hx
    refine ⟨fd, [], ⟨s.history, hh⟩, .inUse ?_ (by simp [CameBack]) rfl⟩
    simp [Listener.fresh, DescriptorSlot.get, hfd]

/-- The first half of the close of a bound listener. -/
theorem Lives.shutDown (h : Lives s) (ho : Orderly s) (hb : Books s)
    (hx : s.listeners[l]? = some x) (hp : x.phase = .bound) (hfd : x.slot.get = some fd)
    (quiet : Bool)
    (hs : (s.setListener l x.retired).push (.working l (.shuttingDown fd quiet))
      (.shutdown fd) = s')
    (hb' : Books s') (hf : account.OpensFresh s'.history) : Lives s' := by
  subst hs
  have howed : fd ∈ s.owed :=
    List.mem_append_right _ (List.mem_append_left _ (State.mem_owed_of_slot hx hfd))
  intro k y hy
  obtain ⟨rfl, rfl⟩ | ⟨hkl, hy⟩ := State.setListener_cases (y := x.retired) hx hy
  · obtain ⟨fd', after, hmade, hslot, hback, hends⟩ := (h l x hx).inUse (by simp [hp])
    obtain rfl := Option.some.inj (hfd.symm.trans hslot)
    refine ⟨fd, _, hmade.append [.called (.shutdown fd)], .shuttingDown rfl ?_ ?_ ?_ ?_⟩
    · exact (ho.proper l x hx).bound hp
    · exact ⟨quiet, List.mem_cons_self ..⟩
    · simpa [cameBack_append, hback] using hb.not_cameBack rfl hf (by simp) howed
    · rw [endCalls_append hback, hends]
      simp [endCalls, Entry.ends, account]
  · refine (h k y hy).carry hy hb hb' rfl hf (by simp)
      (shutsDown_push (s := s.setListener l x.retired) (Frame.spares_of_ne hkl _) _) ?_
    exact fun fd' after hstage =>
      (hstage.ne_of_slot hb hx hfd hy hkl).imp_right endCalls_shutdown

/-- The close of a listener that is not bound. -/
theorem Lives.closed (h : Lives s) (ho : Orderly s) (hb : Books s)
    (hx : s.listeners[l]? = some x) (hp : x.phase = .unbound) (hfd : x.slot.get = some fd)
    (hl : l ∉ s.locks) {t : Task} (ht : (Frame.working l t).owes = [])
    (hs : (s.setListener l x.retired).push (.working l t) (.close fd) = s')
    (hb' : Books s') (hf : account.OpensFresh s'.history) : Lives s' := by
  subst hs
  have hpush : ∀ k, _ := fun k =>
    shutsDown_push (s := s.setListener l x.retired) (Frame.spares_of_owes ht k) (.close fd)
  intro k y hy
  obtain ⟨rfl, rfl⟩ | ⟨hkl, hy⟩ := State.setListener_cases (y := x.retired) hx hy
  · obtain ⟨fd', after, hmade, hslot, hback, hends⟩ := (h l x hx).inUse (by simp [hp])
    obtain rfl := Option.some.inj (hfd.symm.trans hslot)
    refine ⟨fd, _, hmade.append [.called (.close fd)], .ended rfl ?_ ?_ (.inr ?_)⟩
    · exact fun j hj => State.not_shutsDown hl j ((hpush l j).mp hj)
    · rw [endCalls_append hback, hends]
      have := (ho.proper l x hx).unbound hp
      simp [endCalls, Entry.ends, account, Listener.ending, Listener.retired, this]
    · exact hb.not_owed_of_closed hb' rfl (List.mem_singleton_self _)
        (by simp [CameBack, account])
  · refine (h k y hy).carry hy hb hb' rfl hf (by simp) (hpush k) ?_
    exact fun fd' after hstage =>
      (hstage.ne_of_slot hb hx hfd hy hkl).imp_right endCalls_close

/-- The second half of the close of a bound listener. -/
theorem Lives.shut (h : Lives s) (ho : Orderly s) (hb : Books s) {quiet : Bool}
    (ht : s.tasks = .working l (.shuttingDown fd quiet) :: rest) (r : Except IoError Unit)
    (hs : ({ s with tasks := rest }.note (.replied (.done r))).push
      (.working l (.closing fd quiet)) (.close fd) = s')
    (hb' : Books s') (hf : account.OpensFresh s'.history) : Lives s' := by
  subst hs
  have hshut : s.ShutsDown l fd := ⟨quiet, ht ▸ List.mem_cons_self ..⟩
  have hmem := State.mem_owed_of_shutsDown hshut
  have hh := List.append_assoc s.history [.replied (.done r)] [.called (.close fd)]
  -- the lock of the listener was held, so no other shutdown of it is under way
  have hfree : ∀ j q, .working l (.shuttingDown j q) ∉ rest := by
    intro j q hmem
    have hlock : l ∈ (Frame.working l (.shuttingDown fd quiet)).locks := List.mem_singleton_self l
    exact ho.free ht hlock (List.mem_flatMap.mpr ⟨_, hmem, List.mem_singleton_self l⟩)
  intro k y hy
  by_cases hkl : l = k
  · subst hkl
    obtain ⟨fd', after, hmade, hstage⟩ := h l y hy
    cases hstage with
    | inUse hslot hback hends =>
      -- a listener that is being shut down has no descriptor in its slot
      obtain ⟨z, hz, hc, -⟩ := ho.placed (.working l (.shuttingDown fd quiet)) (by simp [ht])
      obtain rfl := Option.some.inj (hy.symm.trans hz)
      have := (ho.proper l y hy).closed.mp hc
      simp [hslot] at this
    | shuttingDown hp hpath hshut' hback hends =>
      obtain ⟨q, hq⟩ := hshut'
      obtain rfl : fd = fd' := by
        rcases List.mem_cons.mp (ht ▸ hq) with heq | hq
        · simp only [Frame.working.injEq, Task.shuttingDown.injEq] at heq
          exact heq.2.1.symm
        · exact absurd hq (hfree fd' q)
      refine ⟨fd, _, hh ▸ hmade.append _, .ended hp (fun j hj => ?_) ?_ (.inr ?_)⟩
      · obtain ⟨q', hq'⟩ := hj
        rcases List.mem_cons.mp hq' with heq | hq'
        · simp at heq
        · exact hfree j q' hq'
      · rw [endCalls_append hback, hends]
        simp [endCalls, Entry.ends, account, Listener.ending, hpath]
      · exact hb.not_owed_of_closed hb' hh (by simp) (by simp [CameBack, account])
    | ended hp hshut' hends hgone => exact absurd hshut (hshut' fd)
  · have hpop : ∀ j, _ ↔ s.ShutsDown k j := fun j =>
      shutsDown_pop ht (Frame.spares_of_ne hkl _) (.replied (.done r)) j
    refine (h k y hy).carry hy hb hb' hh hf (by simp [account])
      (fun j => (shutsDown_push (Frame.spares_of_ne hkl _) _ j).trans (hpop j)) ?_
    intro fd' after hstage
    refine (hstage.ne_of_owed (List.mem_append_left _ hmem) ?_ ?_).imp_right fun hne => ?_
    · exact fun hslot => (hb.nodup_parts.2.2.1 _ hmem).1 (State.mem_owed_of_slot hy hslot)
    · exact fun hshut' => hkl (hb.shutsDown_unique hshut hshut')
    · simp [endCalls, Entry.ends, account, hne]

/-- A connection closes its own descriptor. -/
theorem Lives.released (h : Lives s) (hb : Books s) {i : Nat} {c : Connection}
    (hc : s.connection? i = some ⟨c, true⟩) (quiet : Bool)
    (hs : { s with connections := s.connections.set i none }.push
      (.releasing c.handle.fd quiet) (.close c.handle.fd) = s')
    (hb' : Books s') (hf : account.OpensFresh s'.history) : Lives s' := by
  subst hs
  have hheld := State.mem_owed_of_connection hc
  intro l x hx
  refine (h l x hx).carry hx hb hb' rfl hf (by simp)
    (fun k => shutsDown_push (Frame.spares_of_owes rfl l) _ k) ?_
  intro fd after hstage
  refine (hstage.ne_of_owed ?_ ?_ ?_).imp_right endCalls_close
  · exact List.mem_append_right _ (List.mem_append_right _ hheld)
  · exact fun hslot => hb.nodup_parts.2.2.2 _ (State.mem_owed_of_slot hx hslot) hheld
  · exact fun hshut => (hb.nodup_parts.2.2.1 _ (State.mem_owed_of_shutsDown hshut)).2 hheld

/-! ## Every move keeps the lives -/

theorem Lives.move (h : Lives s) (ho : Orderly s) (hb : Books s) (hm : Move s s')
    (hf : account.OpensFresh s'.history) : Lives s' := by
  have hb' := hb.move hm hf
  cases hm with
  | hosted host | dropped l hl | connected c | forgotten i c hc =>
    exact h.quiet hb hb' (List.append_nil _).symm hf (by simp) rfl (fun _ _ => .rfl) (fun _ => rfl)
  | began op =>
    exact h.quiet hb hb' rfl hf (by simp) rfl (fun _ _ => .rfl) (fun _ => rfl)
  | finished o hs =>
    exact h.quiet hb hb' rfl hf (by simp) rfl (fun _ _ => .rfl) (fun _ => rfl)
  | pushed f c hs hc hfree hp hl =>
    refine h.quiet hb hb' rfl hf (by simp) rfl
      (fun l => shutsDown_push (Frame.spares_of_owes hfree l) c) fun fd => ?_
    cases c <;> simp_all [endCalls, Entry.ends, Call.isPlain]
  | paused l t config hs hc hp hl =>
    have hh : (s.wait l config t).history = s.history ++ [] := by simp [State.history_wait hc]
    refine h.quiet hb hb' hh hf (by simp) rfl (fun k fd => ?_) (fun _ => rfl)
    refine shutsDown_enter (fun fd quiet heq => ?_) fd
    obtain ⟨-, rfl⟩ := Frame.working.inj heq
    simp [Task.call] at hc
  | popped f rest r ht hfree hr =>
    refine h.quiet hb hb' rfl hf (by simp) rfl
      (fun l => shutsDown_pop ht (Frame.spares_of_owes hfree l) _) fun fd => ?_
    simp [endCalls, Entry.ends]
  | made config fd rest ht hfd => exact h.made hb config ht hfd rfl hb' hf
  | bound l x path created hx hp hl =>
    intro k y hy
    obtain ⟨rfl, rfl⟩ | ⟨-, hy⟩ := State.setListener_cases hx hy
    · obtain ⟨fd, after, hmade, hslot, hback, hends⟩ := (h l x hx).inUse (by simp [hp])
      exact ⟨fd, after, hmade, .inUse hslot hback hends⟩
    · exact (h k y hy).carry hy hb hb' (List.append_nil _).symm hf (by simp) (fun _ => .rfl)
        fun _ _ _ => .inr rfl
  | shutDown l x fd quiet hs hx hp hfd hl => exact h.shutDown ho hb hx hp hfd quiet rfl hb' hf
  | closed l x fd t hs hx hp hfd hl ht =>
    have hfree : (Frame.working l t).owes = [] := by
      rcases ht with ⟨quiet, rfl⟩ | ⟨path, created, cause, rfl⟩ <;> rfl
    exact h.closed ho hb hx hp hfd hl hfree rfl hb' hf
  | shut l fd quiet rest r ht => exact h.shut ho hb ht r rfl hb' hf
  | accepted l fd client rest ht =>
    refine h.quiet hb hb' (List.append_assoc s.history [_] [_]) hf (by simp [account]) rfl
      (fun i => shutsDown_pop ht (Frame.spares_of_owes rfl i) (.replied (.opened (.ok client))))
      fun k => ?_
    simp [endCalls, Entry.ends]
  | refused l x fd client rest ht hx hp =>
    refine h.quiet hb hb' (List.append_assoc s.history [_] [_]) hf (by simp [account]) rfl
      (fun i k => ?_) fun k => ?_
    · have hfree : ∀ t, Frame.owes (.working l t) = [] → Frame.Spares (.working l t) i :=
        fun t h => Frame.spares_of_owes h i
      exact (shutsDown_push (hfree _ rfl) _ k).trans
        (shutsDown_pop ht (hfree _ rfl) (.replied (.opened (.ok client))) k)
    · -- a client with the value of an old descriptor is another one
      by_cases hk : client = k <;> simp [endCalls, Entry.ends, account, hk]
  | released i c quiet hs hc => exact h.released hb hc quiet rfl hb' hf

theorem Lives.moves (h : Lives s) (ho : Orderly s) (hb : Books s) (hm : Moves s s')
    (hf : account.OpensFresh s'.history) : Lives s' := by
  induction hm with
  | refl s => exact h
  | step hm ht ih =>
    have hf' := hf.of_prefix ht.history
    exact ih (h.move ho hb hm hf') (ho.move hm) (hb.move hm hf') hf

end Kept

end LocalIpc.Unix

import LocalIpc.Proofs.Unix.Accounting
/-!
# A shutdown before the close

A native shutdown is the first half of a close: the native close comes as soon as the shutdown has
returned, and there is one shutdown for every bound listener that was closed.
-/

namespace LocalIpc.Unix

/-! ## From the shutdown to the close -/

/-- While a native shutdown is under way only another operation may begin. Once it has returned, the
close of the same descriptor comes next. -/
def ClosesNext (before : List Entry) (e : Entry) : Prop :=
  (∀ earlier fd, before = earlier ++ [.called (.shutdown fd)] →
    (∃ op, e = .began op) ∨ ∃ r, e = .replied (.done r)) ∧
  ∀ earlier fd r, before = earlier ++ [.called (.shutdown fd), .replied (.done r)] →
    e = .called (.close fd)

/-- A shutdown that is under way is what the innermost task waits in. -/
structure Halved (s : State) : Prop where
  points : AtEveryPoint ClosesNext s.history
  during : ∀ earlier fd, s.history = earlier ++ [.called (.shutdown fd)] →
    ∃ l quiet rest, s.tasks = .working l (.shuttingDown fd quiet) :: rest
  returned : ∀ earlier fd r, s.history ≠ earlier ++ [.called (.shutdown fd), .replied (.done r)]

theorem append_pair_eq_snoc {earlier es : List Entry} {a b e : Entry} :
    es ++ [e] = earlier ++ [a, b] ↔ es = earlier ++ [a] ∧ e = b := by
  have : earlier ++ [a, b] = (earlier ++ [a]) ++ [b] := by simp
  rw [this, List.append_singleton_inj]

section Kept

variable {s s' : State}

/-- One entry more, which is neither a native shutdown nor the return of one. -/
theorem Halved.note (h : Halved s) {e : Entry} (hh : s'.history = s.history ++ [e])
    (hs : s.Settled ∨ ∃ op, e = .began op) (he : ∀ fd, e ≠ .called (.shutdown fd)) : Halved s' := by
  refine ⟨?_, ?_, ?_⟩
  · rw [hh, atEveryPoint_snoc]
    refine ⟨h.points, fun earlier fd heq => ?_, fun earlier fd r heq => ?_⟩
    · exact .inl (hs.resolve_left fun hs => hs earlier fd heq)
    · exact absurd heq (h.returned earlier fd r)
  · intro earlier fd heq
    rw [hh] at heq
    exact absurd (List.append_singleton_inj.mp heq).2 (he fd)
  · intro earlier fd r heq
    rw [hh] at heq
    obtain ⟨hshut, rfl⟩ := append_pair_eq_snoc.mp heq
    rcases hs with hs | ⟨op, hop⟩
    · exact hs earlier fd hshut
    · simp at hop

/-- Where the innermost task is no shutdown, none is under way. -/
theorem Halved.settled (h : Halved s) {f : Frame} {rest : List Frame} (ht : s.tasks = f :: rest)
    (hf : f.owes = []) : s.Settled := by
  intro earlier fd heq
  obtain ⟨l, quiet, rest', ht'⟩ := h.during earlier fd heq
  obtain ⟨rfl, -⟩ := List.cons.inj (ht.symm.trans ht')
  simp [Frame.owes] at hf

/-- The same history, and the same innermost task. -/
theorem Halved.same (h : Halved s) (hh : s'.history = s.history) (ht : s'.tasks = s.tasks) :
    Halved s' :=
  ⟨hh ▸ h.points, fun earlier fd heq => ht ▸ h.during earlier fd (hh ▸ heq),
    fun earlier fd r heq => h.returned earlier fd r (hh ▸ heq)⟩

/-- A reply to another task than a shutdown, with the entry that follows from it. -/
theorem Halved.answered (h : Halved s) {f : Frame} {rest : List Frame} {r : Reply} {e : Entry}
    (ht : s.tasks = f :: rest) (hf : f.owes = [])
    (hh : s'.history = s.history ++ [.replied r] ++ [e]) (he : ∀ fd, e ≠ .called (.shutdown fd)) :
    Halved s' := by
  have hreplied : Halved (s.note (.replied r)) :=
    h.note rfl (.inl (h.settled ht hf)) (by simp)
  exact hreplied.note hh (.inl (State.settled_note _ _ (by simp))) he

theorem Halved.move (h : Halved s) (hm : Move s s') : Halved s' := by
  -- only `shutDown` and `shut` are about a shutdown, every other entry needs that none is under way
  cases hm with
  | hosted | dropped | connected | forgotten | bound => exact h.same rfl rfl
  | began op => exact h.note rfl (.inr ⟨op, rfl⟩) (by simp)
  | finished o hs => exact h.note rfl (.inl hs) (by simp)
  | pushed f c hs hc hf hp hl =>
    refine h.note rfl (.inl hs) fun fd heq => ?_
    obtain rfl := Entry.called.inj heq
    simp [Call.isPlain] at hc
  | paused l t config hs hc hp hl =>
    -- nothing is noted, and the last entry was no shutdown
    have hh := State.history_wait (s := s) (l := l) hc
    refine ⟨hh ▸ h.points, fun earlier fd heq => absurd (hh ▸ heq) (hs earlier fd),
      fun earlier fd r heq => h.returned earlier fd r (hh ▸ heq)⟩
  | popped f rest r ht hf hr => exact h.note rfl (.inl (h.settled ht hf)) (by simp)
  | closed l x fd t hs hx hp hfd hl ht => exact h.note rfl (.inl hs) (by simp)
  | released i c quiet hs hc => exact h.note rfl (.inl hs) (by simp)
  | made config fd rest ht hfd => exact h.answered ht rfl rfl (by simp)
  | accepted l fd client rest ht => exact h.answered ht rfl rfl (by simp)
  | refused l x fd client rest ht hx hp => exact h.answered ht rfl rfl (by simp)
  | shutDown l x fd quiet hs hx hp hfd hl =>
    refine ⟨(atEveryPoint_snoc _ _).mpr ⟨h.points, fun earlier k heq => ?_,
      fun earlier k r heq => ?_⟩, fun earlier k heq => ?_, fun earlier k r heq => ?_⟩
    · exact absurd heq (hs earlier k)
    · exact absurd heq (h.returned earlier k r)
    · obtain ⟨-, heq⟩ := List.append_singleton_inj.mp heq
      obtain rfl := Call.shutdown.inj (Entry.called.inj heq)
      exact ⟨l, quiet, s.tasks, rfl⟩
    · have := (append_pair_eq_snoc.mp heq).2
      simp at this
  | shut l fd quiet rest r ht =>
    -- the two entries come together: what stands before them ends with the shutdown of this task
    refine ⟨(atEveryPoint_snoc _ _).mpr ⟨(atEveryPoint_snoc _ _).mpr ⟨h.points, ?_, ?_⟩, ?_, ?_⟩,
      ?_, ?_⟩
    · exact fun _ _ _ => .inr ⟨r, rfl⟩
    · exact fun earlier k r' heq => absurd heq (h.returned earlier k r')
    · intro earlier k heq
      have := (List.append_singleton_inj.mp heq).2
      simp at this
    · intro earlier k r' heq
      obtain ⟨hshut, -⟩ := append_pair_eq_snoc.mp heq
      obtain ⟨l', quiet', rest', ht'⟩ := h.during earlier k hshut
      obtain ⟨heq', -⟩ := List.cons.inj (ht.symm.trans ht')
      simp only [Frame.working.injEq, Task.shuttingDown.injEq] at heq'
      rw [heq'.2.1]
    · intro earlier k heq
      have := (List.append_singleton_inj.mp heq).2
      simp at this
    · intro earlier k r' heq
      have := (append_pair_eq_snoc.mp heq).2
      simp at this

theorem Halved.moves (h : Halved s) (hm : Moves s s') : Halved s' := by
  induction hm with
  | refl s => exact h
  | step hm ht ih => exact ih (h.move hm)

end Kept

/-! ## One shutdown for each close of a bound listener -/

/-- How often the native shutdown was called. -/
def shutdowns (es : List Entry) : Nat :=
  es.countP fun e => match e with | .called (.shutdown _) => true | _ => false

/-- The listener was bound, and is closed. -/
def Listener.wasShutDown (x : Listener) : Bool := x.phase = .closed && x.path.isSome

/-- There was one shutdown for each listener that was bound and is closed. -/
def ShutOnce (s : State) : Prop := shutdowns s.history = s.listeners.countP Listener.wasShutDown

theorem shutdowns_append (es fs : List Entry) :
    shutdowns (es ++ fs) = shutdowns es + shutdowns fs := by
  simp [shutdowns, List.countP_append]

section Counted

variable {s s' : State}

theorem ShutOnce.note (h : ShutOnce s) {es : List Entry} (hh : s'.history = s.history ++ es)
    (hes : shutdowns es = 0)
    (hl : s'.listeners.countP Listener.wasShutDown = s.listeners.countP Listener.wasShutDown) :
    ShutOnce s' := by
  unfold ShutOnce
  rw [hh, shutdowns_append, hes, hl]
  exact h

theorem countP_setListener {l : Nat} {x : Listener} (hx : s.listeners[l]? = some x) (y : Listener)
    (hc : x.wasShutDown = false) :
    (s.setListener l y).listeners.countP Listener.wasShutDown =
      s.listeners.countP Listener.wasShutDown + if y.wasShutDown then 1 else 0 := by
  obtain ⟨hlt, rfl⟩ := List.getElem?_eq_some_iff.mp hx
  rw [State.setListener, List.countP_set hlt, hc]
  simp

theorem ShutOnce.move (h : ShutOnce s) (ho : Orderly s) (hm : Move s s') : ShutOnce s' := by
  cases hm with
  | hosted | dropped | connected | forgotten =>
    exact h.note (List.append_nil _).symm rfl rfl
  | began | finished | popped | released => exact h.note rfl rfl rfl
  | pushed f c hs hc hf hp hl =>
    refine h.note rfl ?_ rfl
    cases c <;> simp_all [shutdowns, Call.isPlain]
  | paused l t config hs hc hp hl =>
    have hhistory : (s.wait l config t).history = s.history ++ [] := by
      rw [State.history_wait hc, List.append_nil]
    exact h.note hhistory rfl rfl
  | made config fd rest ht hfd =>
    refine h.note (List.append_assoc s.history [_] [_]) rfl ?_
    simp [State.finish, State.note, List.countP_append, Listener.wasShutDown, Listener.fresh]
  | accepted l fd client rest ht => exact h.note (List.append_assoc s.history [_] [_]) rfl rfl
  | refused l x fd client rest ht hx hp =>
    exact h.note (List.append_assoc s.history [_] [_]) rfl rfl
  | shut l fd quiet rest r ht => exact h.note (List.append_assoc s.history [_] [_]) rfl rfl
  | bound l x path created hx hp hl =>
    refine h.note (List.append_nil _).symm rfl ?_
    rw [countP_setListener hx _ (by simp [Listener.wasShutDown, hp])]
    simp [Listener.wasShutDown]
  | shutDown l x fd quiet hs hx hp hfd hl =>
    have hpath := (ho.proper l x hx).bound hp
    have hcount := countP_setListener hx x.retired (by simp [Listener.wasShutDown, hp])
    have hretired : x.retired.wasShutDown = true := by
      simp [Listener.wasShutDown, Listener.retired, hpath]
    rw [hretired, if_pos rfl, ← h] at hcount
    exact (shutdowns_append s.history [.called (.shutdown fd)]).trans hcount.symm
  | closed l x fd t hs hx hp hfd hl ht =>
    -- a listener that was never bound has no path
    have hpath := (ho.proper l x hx).unbound hp
    refine h.note rfl rfl ?_
    refine (countP_setListener hx x.retired (by simp [Listener.wasShutDown, hp])).trans ?_
    simp [Listener.wasShutDown, Listener.retired, hpath]

theorem ShutOnce.moves (h : ShutOnce s) (ho : Orderly s) (hm : Moves s s') : ShutOnce s' := by
  induction hm with
  | refl s => exact h
  | step hm ht ih => exact ih (h.move ho hm) (ho.move hm)

end Counted

end LocalIpc.Unix

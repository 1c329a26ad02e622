import LocalIpc.Proofs.History
import LocalIpc.Proofs.Pipe.Order
/-!
# The handles of a pipe listener

Every handle that the pipe layer makes is given back once, by whoever owes it: the listener while it
tracks the handle, or the operation that has taken it out of the registry. The lock is owed by the
construction, then by the open listener, then by its close.
-/

namespace LocalIpc.Pipe

/-! ## Who owes a handle -/

/-- Handles are made by the replies to create calls, and given back by close calls. -/
def account : Account Entry Handle where
  opens
    | .replied (.created (.ok h)) => some h
    | _ => none
  closes
    | .called (.close h) => some h
    | _ => none

/-- What is still to be closed after a release. A close of the listener ends with the lock. -/
@[simp] def After.owes (lock : Option Handle) : After → List Handle
  | refuse _ | settle _ => []
  | clearWaiting rest _ _ | clearHandedOut rest _ _ => rest ++ lock.toList

/-- The handle that the call of a task closes. -/
@[simp] def Task.closing? : Task → Option Handle
  | givingUpLock lock _ => some lock
  | releasing .close h _ => some h
  | closingLock lock _ _ => some lock
  | _ => none

/-- What a task will still close after the call that it waits in. -/
@[simp] def Task.owes (lock : Option Handle) : Task → List Handle
  | resettingLock h => [h]
  | releasing .close _ next => next.owes lock
  | releasing _ h next => h :: next.owes lock
  | _ => []

/-- What a task owes when it comes to its call. -/
@[simp] def Task.brings (lock : Option Handle) (t : Task) : List Handle :=
  t.closing?.toList ++ t.owes lock

def Listener.owes (l : Listener) : List Handle :=
  (if l.closed then [] else [l.lock]) ++ (l.registry.waiting ++ l.registry.handedOut)

def State.lock? (s : State) : Option Handle := s.listener.map (·.lock)

def State.owed (s : State) : List Handle :=
  s.tasks.flatMap (Task.owes s.lock?) ++ (s.listener.map Listener.owes).getD []

/-- The handle that a reply brings. -/
@[simp] def Reply.brings : Reply → List Handle
  | .created (.ok h) => [h]
  | _ => []

/-! ## What every part owes -/

section Parts

variable {l l' : Listener} {old : Option Task} {r : Option Reply} {p : Progress} {next : After}

theorem After.owes_keeping (next : After) (r : Except IoError Unit) (lock : Option Handle) :
    (next.keeping r).owes lock = next.owes lock := by cases next <;> rfl

theorem Next.conserves (h : Next l next p l') :
    (p.task?.toList.flatMap (Task.brings (some l.lock)) ++ l'.owes).Perm
      (next.owes (some l.lock) ++ l.owes) := by
  rw [List.perm_iff_count]
  intro k
  cases h with
  | firstHandedOut h rest e quiet hr =>
    simp [Listener.owes, Registry.clearHandedOut, hr, List.count_cons]
    omega
  | noneHandedOut e quiet hr => simp [Listener.owes, Registry.clearHandedOut, hr]
  | _ => simp

/-- What the registry tracks is tracked once. -/
theorem Listener.nodup_tracked (hn : l.owes.Nodup) :
    l.registry.waiting.Nodup ∧ l.registry.handedOut.Nodup ∧
      ∀ k ∈ l.registry.waiting, k ∉ l.registry.handedOut := by
  obtain ⟨hw, ho, hd⟩ := List.nodup_append.mp (List.nodup_append.mp hn).2.1
  exact ⟨hw, ho, fun k hk hk' => hd k hk k hk' rfl⟩

/-- A part gives nothing away and takes nothing twice: what it leaves owed is what was owed before
it, with what the reply has brought. -/
theorem Part.conserves (h : Part l old r p l') (hn : l.owes.Nodup)
    (hf : ∀ k ∈ r.toList.flatMap Reply.brings, k ∉ l.owes) :
    (p.task?.toList.flatMap (Task.brings (some l.lock)) ++ l'.owes).Perm
      (r.toList.flatMap Reply.brings ++
        (old.toList.flatMap (Task.owes (some l.lock)) ++ l.owes)) := by
  obtain ⟨hw, ho, hd⟩ := Listener.nodup_tracked hn
  have hfresh : ∀ k, r = some (.created (.ok k)) →
      k ∉ l.registry.waiting ∧ k ∉ l.registry.handedOut := by
    intro k hk
    have := hf k (by simp [hk])
    simp only [Listener.owes, List.mem_append, not_or] at this
    exact this.2
  -- by how often each handle is owed on either side
  rw [List.perm_iff_count]
  intro j
  cases h with
  | close quiet p l' hc hn =>
    have := hn.conserves.count_eq j
    simp [Listener.owes, Registry.clearWaiting, hc, List.count_cons] at this ⊢
    omega
  | released k next r p l' hn =>
    have := hn.conserves.count_eq j
    rw [After.owes_keeping] at this
    simpa using this
  | created k hc =>
    -- what the reply has brought goes over to the registry
    obtain ⟨hkw, hko⟩ := hfresh k rfl
    have := (HandleSet.perm_insert hkw).count_eq j
    simp [Listener.owes, Registry.waiting_enroll hkw hko, hc, List.count_cons] at this ⊢
    omega
  | createdLate k hc hh =>
    -- it goes in and comes out again, to the release
    obtain ⟨hkw, hko⟩ := hfresh k rfl
    have hins := HandleSet.perm_insert hkw
    have hnodup := hins.nodup_iff.mpr (List.nodup_cons.mpr ⟨hkw, hw⟩)
    have := ((HandleSet.perm_remove hnodup (HandleSet.mem_insert.mpr (.inl rfl))).trans
      hins).count_eq j
    simp [Listener.owes, Registry.waiting_enroll hkw hko, hc, List.count_cons] at this ⊢
    omega
  | createdKnown k hc hh =>
    -- a handle that is not open is not tracked, so it does wait
    obtain ⟨hkw, hko⟩ := hfresh k rfl
    rw [Registry.waiting_enroll hkw hko] at hh
    exact absurd (HandleSet.mem_insert.mpr (.inl rfl)) hh
  | delivered t r k ha hh =>
    have hrem := (HandleSet.perm_remove hw hh).count_eq j
    have hins := (HandleSet.perm_insert (hd k hh)).count_eq j
    cases ha <;>
    · simp [Listener.owes, Registry.handOut, Registry.isWaiting, hh, List.count_cons] at hrem hins ⊢
      omega
  | missed t r k ha hh => cases ha <;> simp
  | waitFailed k e hh =>
    have := (HandleSet.perm_remove hw hh).count_eq j
    simp [Listener.owes, List.count_cons] at this ⊢
    omega
  | waitFailedLate k e hh =>
    simp [Listener.owes, HandleSet.remove_of_not_mem hh]
  | releaseHandedOut k quiet hh =>
    have := (HandleSet.perm_remove ho hh).count_eq j
    simp [Listener.owes, List.count_cons] at this ⊢
    omega
  | releaseWaiting k quiet hh =>
    have := (HandleSet.perm_remove hw hh).count_eq j
    simp [Listener.owes, List.count_cons] at this ⊢
    omega
  | calmed call k next r hcall =>
    rcases hcall with rfl | rfl <;> simp
  | closeClosed quiet hc => cases quiet <;> simp
  | unlocked lock e quiet r =>
    rw [Listener.task?_afterLock]
    simp
  | _ => simp

end Parts

/-! ## The books of a run -/

/-- What is owed is what is open. -/
def Books (s : State) : Prop := account.Balanced s.history s.owed

/-- A reply brings what it opens. -/
theorem balanced_replied {es : List Entry} {owed : List Handle} {r : Reply}
    (h : account.Balanced es owed) (hf : account.OpensFresh (es ++ [.replied r])) :
    account.Balanced (es ++ [.replied r]) (r.brings ++ owed) := by
  rcases r with (_ | k) | c | d
  · exact h.note rfl rfl
  · exact h.opened rfl rfl hf
  · exact h.note rfl rfl
  · exact h.note rfl rfl

theorem closes_called (t : Task) (path : String) (config : PipeConfig) :
    account.closes (.called (t.call path config)) = t.closing? := by
  cases t with
  | releasing call h next => cases call <;> rfl
  | _ => rfl

namespace State

variable {s : State} {l : Listener} {t : Task} {rest : List Task} {p : Progress}

theorem owed_of_listener (hl : s.listener = some l) :
    s.owed = s.tasks.flatMap (Task.owes (some l.lock)) ++ l.owes := by
  simp [owed, lock?, hl]

theorem owed_of_construction (hl : s.listener = none) :
    s.owed = s.tasks.flatMap (Task.owes none) := by
  simp [owed, lock?, hl]

/-- A call to close passes on what its task has brought. -/
theorem books_push (h : account.Balanced s.history (t.brings s.lock? ++ s.owed)) :
    Books (s.push t) := by
  have howed : (s.push t).owed = t.owes s.lock? ++ s.owed := by
    simp [owed, push, note, lock?]
  unfold Books
  rw [howed]
  have hcall := closes_called t s.path s.config
  rcases hc : t.closing? with _ | k
  · rw [hc] at hcall
    simp only [Task.brings, hc, Option.toList_none, List.nil_append] at h
    exact h.note rfl hcall
  · rw [hc] at hcall
    simp only [Task.brings, hc, Option.toList_some, List.cons_append] at h
    exact h.closed rfl hcall

theorem books_closeUnheld (h : Books s) : Books s.closeUnheld := by
  rcases s.closeUnheld_cases with ⟨heq, _⟩ | ⟨l, t, l', hl, -, hp, -, heq⟩ <;> rw [heq]
  · exact h
  · unfold Books at h
    rw [owed_of_listener hl] at h
    have hperm := hp.conserves (List.nodup_append.mp h.nodup).2.1 (by simp)
    simp only [Progress.task?, Option.toList_some, Option.toList_none, List.flatMap_cons,
      List.flatMap_nil, List.append_nil, List.nil_append] at hperm
    refine books_push (h.of_perm ?_)
    rw [owed_of_listener (l := l') rfl]
    simp only [lock?, Option.map_some, hp.lock_eq]
    exact (hperm.symm.append_left _).trans (List.perm_append_comm_assoc ..)

theorem books_of_listener (hl : s.listener = some l)
    (h : account.Balanced s.history (s.tasks.flatMap (Task.owes (some l.lock)) ++ l.owes)) :
    Books s := by
  unfold Books
  rwa [owed_of_listener hl]

theorem books_finish (hl : s.listener = some l)
    (h : account.Balanced s.history (s.tasks.flatMap (Task.owes (some l.lock)) ++ l.owes))
    (o : Outcome) : Books (s.finish o) :=
  books_closeUnheld (books_of_listener (s := s.note (.finished o)) hl (h.note rfl rfl))

theorem books_advance (hl : s.listener = some l)
    (h : account.Balanced s.history (p.task?.toList.flatMap (Task.brings (some l.lock)) ++
      (rest.flatMap (Task.owes (some l.lock)) ++ l.owes))) : Books (s.advance rest p) := by
  cases p with
  | waits t =>
    refine books_push (s := { s with tasks := rest }) ?_
    rw [owed_of_listener (s := { s with tasks := rest }) hl]
    simpa only [lock?, hl, Option.map_some, Progress.task?, Option.toList_some, List.flatMap_cons,
      List.flatMap_nil, List.append_nil] using h
  | accepted k =>
    exact books_finish (s := { s with tasks := rest, connections := s.connections ++ [some _] })
      hl h _
  | done => exact books_finish (s := { s with tasks := rest }) hl h _
  | failed e => exact books_finish (s := { s with tasks := rest }) hl h _
  | _ => exact books_of_listener (s := { s with tasks := rest }) hl h

end State

/-- A part of an operation leaves the books in order. -/
theorem Books.part {s : State} {l l' : Listener} {old : Option Task} {rest : List Task}
    {r : Option Reply} {p : Progress} {es : List Entry} {dropped : Bool}
    {connections : List (Option Connection)} (hl : s.listener = some l)
    (ht : s.tasks = old.toList ++ rest) (hp : Part l old r p l')
    (h : account.Balanced es (r.toList.flatMap Reply.brings ++ s.owed)) :
    Books ({ s with listener := some l', dropped, connections, history := es }.advance rest p) := by
  have hn := h.nodup
  rw [State.owed_of_listener hl, ht, List.flatMap_append] at h hn
  obtain ⟨-, hn, hd⟩ := List.nodup_append.mp hn
  have hperm := hp.conserves (List.nodup_append.mp hn).2.1 fun k hk hk' =>
    hd k hk k (List.mem_append_right _ hk') rfl
  refine State.books_advance rfl (h.of_perm ?_)
  rw [hp.lock_eq, List.perm_iff_count]
  intro k
  have := hperm.count_eq k
  simp only [List.count_append] at this ⊢
  omega

/-- The next call of a construction passes on what was owed and what the reply has brought. -/
theorem State.books_construction {s : State} {t : Task} {r : Reply} (hl : s.listener = none)
    (ht : (t.brings none).Perm (r.brings ++ s.owed))
    (h : account.Balanced (s.history ++ [.replied r]) (r.brings ++ s.owed)) :
    Books ((s.note (.replied r)).advance [] (.waits t)) := by
  refine State.books_push (s := { s.note (.replied r) with tasks := [] }) (h.of_perm ?_)
  rw [State.owed_of_construction (s := { s.note (.replied r) with tasks := [] }) hl]
  simpa only [lock?, note, hl, Option.map_none, List.flatMap_nil, List.append_nil] using ht.symm

/-- A construction that fails has given its lock back. -/
theorem State.books_failed_construction {s : State} (hl : s.listener = none)
    (h : account.Balanced s.history []) (e : ListenerError) : Books (s.advance [] (.failed e)) := by
  have howed : (s.advance [] (.failed e)).owed = [] := by
    rw [State.advance_failed_construction hl]
    exact State.owed_of_construction hl
  unfold Books
  rw [howed, State.advance_failed_construction hl]
  exact h.note rfl rfl

/-- What a reply brings was not open. -/
theorem Books.replied {s m : State} {r : Reply} {rest : List Task} {p : Progress} (h : Books s)
    (hm : m.history = s.history ++ [.replied r])
    (hf : account.OpensFresh (m.advance rest p).history) :
    account.Balanced (s.history ++ [.replied r]) (r.brings ++ s.owed) :=
  balanced_replied h (hf.of_prefix (hm ▸ m.history_advance rest p))

theorem Books.nodup_owes {s : State} {l : Listener} (hb : Books s) (hl : s.listener = some l) :
    (s.tasks.flatMap (Task.owes (some l.lock)) ++ l.owes).Nodup := by
  rw [← State.owed_of_listener hl]
  exact hb.nodup

/-- What a reply brings is not owed yet. -/
theorem Books.not_owed_of_brings {s m : State} {r : Reply} {rest : List Task} {p : Progress}
    (hb : Books s) (hm : m.history = s.history ++ [.replied r])
    (hf : account.OpensFresh (m.advance rest p).history) : ∀ k ∈ r.brings, k ∉ s.owed := by
  intro k hk hk'
  exact (List.nodup_append.mp (hb.replied hm hf).nodup).2.2 k hk k hk' rfl

/-- What a reply brings was not open, so the listener does not owe it. -/
theorem Books.not_owes_of_brings {s m : State} {l : Listener} {r : Reply} {rest : List Task}
    {p : Progress} (hb : Books s) (hl : s.listener = some l)
    (hm : m.history = s.history ++ [.replied r])
    (hf : account.OpensFresh (m.advance rest p).history) : ∀ k ∈ r.brings, k ∉ l.owes := by
  intro k hk hk'
  refine hb.not_owed_of_brings hm hf k hk ?_
  rw [State.owed_of_listener hl]
  exact List.mem_append_right _ hk'

/-- Every turn leaves the books in order, when the handles that are made are not open. -/
theorem Books.turn {s s' : State} {e : Event} (h : Books s) (ht : Turn s e s')
    (hf : account.OpensFresh s'.history) : Books s' := by
  have hreplied : ∀ {m : State} {rest : List Task} {p : Progress} {r : Reply},
      s' = m.advance rest p → m.history = s.history ++ [.replied r] →
      account.Balanced (s.history ++ [.replied r]) (r.brings ++ s.owed) :=
    fun heq hm => h.replied hm (heq ▸ hf)
  -- a construction owes what its only call owes
  have hbuilding : ∀ {m : State} {rest : List Task} {p : Progress} {r : Reply} {t : Task},
      s.listener = none → s.tasks = [t] → s' = m.advance rest p →
      m.history = s.history ++ [.replied r] →
      account.Balanced (s.history ++ [.replied r]) (r.brings ++ t.owes none) := by
    intro m rest p r t hl htasks heq hm
    have howed : s.owed = t.owes none := by simp [State.owed_of_construction hl, htasks]
    exact howed ▸ hreplied heq hm
  cases ht with
  | nothing r => exact h
  | gone op => exact (h.note rfl rfl).note rfl rfl
  | started op l l' p dropped hl hp hsame hdrop hkeep => exact Books.part hl rfl hp (h.note rfl rfl)
  | letGo op i c l quiet hl hc =>
    exact Books.part hl rfl (l.part_beginRelease _ _) (h.note rfl rfl)
  | resumed t r rest l l' p hl htasks hp =>
    refine Books.part (r := some r) hl (show s.tasks = (some t).toList ++ rest from htasks) hp ?_
    have := hreplied (r := r) rfl rfl
    rwa [← List.flatMap_singleton Reply.brings r] at this
  | lockMade k hl htasks =>
    refine State.books_construction hl ?_ (hreplied rfl rfl)
    simp [State.owed_of_construction hl, htasks]
  | notMade e hl htasks =>
    exact State.books_failed_construction (s := s.note _) hl (hbuilding hl htasks rfl rfl) _
  | made k u hl htasks => exact State.books_advance rfl (hbuilding hl htasks rfl rfl)
  | notReset k e hl htasks =>
    refine State.books_construction hl ?_ (hreplied rfl rfl)
    simp [State.owed_of_construction hl, htasks]
  | givenUp k e r hl htasks =>
    exact State.books_failed_construction (s := s.note _) hl (hbuilding hl htasks rfl rfl) _

theorem books_construct (name : String) (config : PipeConfig) :
    Books (State.construct name config) :=
  State.books_push (Account.balanced_nil)

/-- What every turn keeps that makes only handles that are not open, such a run keeps. -/
theorem Orderly.fresh_run_keeps {s : State} (ho : Orderly s) {P : State → Prop} (h : P s)
    (hturn : ∀ {m m' : State} {e : Event}, Orderly m → P m → Turn m e m' →
      account.OpensFresh m'.history → P m')
    (es : List Event) (hf : account.OpensFresh (s.run es).history) : P (s.run es) := by
  induction es generalizing s with
  | nil => exact h
  | cons e es ih =>
    have ht := ho.turn_step e
    have hstep := hturn ho h ht (hf.of_prefix ((ho.turn ht).history_run es))
    exact ih (ho.turn ht) hstep hf

theorem Books.run {s : State} (h : Books s) (ho : Orderly s) (es : List Event)
    (hf : account.OpensFresh (s.run es).history) : Books (s.run es) :=
  ho.fresh_run_keeps h (fun _ hm ht hfresh => hm.turn ht hfresh) es hf

/-! ## Every handle is given back -/

/-- The listener was closed, or its owner has let it go, or it was never made. -/
def State.isOver (s : State) : Prop :=
  s.dropped = true ∨ ∀ l, s.listener = some l → l.closed = true

/-- Nothing is owed by a listener that is closed or let go when no operation is under way. -/
theorem Orderly.owed_eq_nil {s : State} (h : Orderly s) (ht : s.tasks = []) (hs : s.isOver) :
    s.owed = [] := by
  rcases hl : s.listener with _ | l
  · simp [State.owed_of_construction hl, ht]
  have hc : l.closed = true := by
    rcases hs with hdrop | hc
    · simpa [ht] using h.letGo l hl hdrop
    · exact hc l hl
  obtain ⟨hw, ho⟩ := h.drained l hl hc
  have ho : l.registry.handedOut = [] := by simpa [ht] using ho
  simp [State.owed_of_listener hl, ht, Listener.owes, hc, hw, ho]

/-- No handle is closed that is not open, in any order of operations. Once the listener is closed
or let go and nothing is under way, every handle was closed as often as it was made. -/
theorem handles_closed_once_per_creation (name : String) (config : PipeConfig) (es : List Event)
    (hf : account.OpensFresh ((State.construct name config).run es).history) :
    let s := (State.construct name config).run es
    account.ClosesOpen s.history ∧
      (s.tasks = [] → s.isOver →
        ∀ h, account.timesClosed s.history h = account.timesOpened s.history h) := by
  intro s
  have ho : Orderly s := (orderly_construct name config).run es
  have hb : Books s := (books_construct name config).run (orderly_construct name config) es hf
  refine ⟨hb.closesOpen, fun ht hs h => ?_⟩
  unfold Books at hb
  rw [ho.owed_eq_nil ht hs] at hb
  exact hb.settled h

/-- The listener is closed from inside the connect of its second accept, which has got the handle of
the first instance again. -/
def closedDuringConnect : State :=
  (State.construct "p" .default).run
    [.reply (.created (.ok ⟨1⟩)), .reply (.done (.ok ())),
      .start .accept, .reply (.created (.ok ⟨2⟩)), .reply (.connect .connected),
      .start (.closeConnection 0), .reply (.done (.ok ())), .reply (.done (.ok ())),
      .reply (.done (.ok ())),
      .start .accept, .reply (.created (.ok ⟨2⟩)),
      .start .close, .reply (.done (.ok ())), .reply (.done (.error .badDescriptor)),
      .reply (.done (.ok ())),
      .reply (.connect .connected)]

theorem reused_handle_is_closed_twice :
    account.OpensFresh closedDuringConnect.history ∧
      account.timesClosed closedDuringConnect.history ⟨2⟩ = 2 := by
  have hf : account.OpensFresh closedDuringConnect.history := by decide
  refine ⟨hf, ?_⟩
  have hover : closedDuringConnect.isOver := .inr fun l hl => by cases hl; rfl
  exact (handles_closed_once_per_creation "p" .default _ hf).2 rfl hover ⟨2⟩

end LocalIpc.Pipe

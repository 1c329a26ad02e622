import LocalIpc.Proofs.Unix.Move
/-!
# Every step is made of moves

An operation begins with an entry in the history and goes on with what it comes to. A reply ends the
innermost task, and what follows is a task that begins, or an end that may let a listener go.
-/

namespace LocalIpc.Unix

/-! ## What an operation begins with -/

theorem State.settled_note (s : State) (e : Entry) (he : ∀ fd, e ≠ .called (.shutdown fd)) :
    (s.note e).Settled := by
  intro earlier fd h
  exact he fd (List.append_singleton_inj.mp h).2

/-- Where a close begins, by the phase of the listener. -/
theorem Listener.beginClose_cases {x : Listener} (h : x.Proper) (host : Host) (quiet : Bool) :
    (x.phase = .closed ∧ x.beginClose host quiet =
        (if quiet then .over else .failed .alreadyClosed, x, host)) ∨
      (∃ fd, x.phase = .bound ∧ x.slot.get = some fd ∧ x.beginClose host quiet =
        (.waits (.shuttingDown fd quiet), x.retired, host)) ∨
      ∃ fd, x.phase = .unbound ∧ x.slot.get = some fd ∧ x.beginClose host quiet =
        (.waits (.closing fd quiet), x.retired, host) := by
  -- a listener that is not closed has its descriptor
  by_cases hc : x.phase = .closed
  · exact .inl ⟨hc, by simp [beginClose, hc]⟩
  obtain ⟨fd, hfd⟩ : ∃ fd, x.slot.get = some fd :=
    Option.ne_none_iff_exists'.mp fun hn => hc (h.closed.mpr hn)
  right
  by_cases hb : x.phase = .bound
  · exact .inl ⟨fd, hb, hfd, by simp [beginClose, hb, hfd, retired]⟩
  · have hu : x.phase = .unbound := by cases hp : x.phase <;> simp_all
    exact .inr ⟨fd, hu, hfd, by simp [beginClose, hu, hfd, retired]⟩

theorem Listener.beginBind_cases (x : Listener) (host : Host) (path : Path) :
    (∃ e, (x.beginBind host path).1 = .failed e) ∨
      ∃ fd address, (x.beginBind host path).1 = .waits (.binding fd path address) ∧
        x.phase = .unbound := by
  unfold Listener.beginBind
  split
  · exact .inl ⟨_, rfl⟩
  · rename_i fd address hcheck
    have hu : x.phase = .unbound := by
      unfold Listener.checkBind at hcheck
      split at hcheck <;> simp_all
    split
    · exact .inr ⟨fd, address, rfl, hu⟩
    · exact .inl ⟨_, rfl⟩

theorem Listener.beginBindSlowly_cases (x : Listener) (path : Path) :
    (∃ e, x.beginBindSlowly path = .failed e) ∨
      ∃ fd address, x.beginBindSlowly path = .waits (.looking fd path address) ∧
        x.phase = .unbound := by
  unfold beginBindSlowly
  split
  · exact .inl ⟨_, rfl⟩
  · rename_i fd address hcheck
    refine .inr ⟨fd, address, rfl, ?_⟩
    unfold checkBind at hcheck
    split at hcheck <;> simp_all

/-! ## What an operation at the file system comes to -/

theorem Listener.afterLook_cases (host : Host) (fd : Fd) (path : Path) (address : AddressRecord) :
    (∃ e, afterLook host fd path address = .failed (.native .bind e)) ∨
      afterLook host fd path address = .waits (.binding fd path address) ∨
      afterLook host fd path address = .waits (.probing fd path address) := by
  unfold afterLook
  split
  · exact .inl ⟨_, rfl⟩
  · exact .inr (.inl rfl)
  · exact .inr (.inr rfl)

theorem Listener.afterProbe_cases (host : Host) (fd : Fd) (path : Path) (address : AddressRecord) :
    (∃ e, (afterProbe host fd path address).1 = .failed (.native .bind e)) ∨
      (afterProbe host fd path address).1 = .waits (.binding fd path address) ∨
      (afterProbe host fd path address).1 = .waits (.clearing fd path address) := by
  unfold afterProbe
  split
  · exact .inl ⟨_, rfl⟩
  · exact .inr (.inl rfl)
  · exact .inr (.inr rfl)

theorem Listener.afterClear_cases (host : Host) (fd : Fd) (path : Path) (address : AddressRecord) :
    (∃ e, (afterClear host fd path address).1 = .failed (.native .bind e)) ∨
      (afterClear host fd path address).1 = .waits (.binding fd path address) := by
  unfold afterClear
  split
  · exact .inr rfl
  · exact .inl ⟨_, rfl⟩

theorem Listener.told_cases (quiet : Bool) (result : Except ListenerError Unit) :
    (∃ e, told quiet result = .failed e ∧ result = .error e) ∨ told quiet result = .done ∨
      told quiet result = .over := by
  rcases result with e | u <;> cases quiet
  · exact .inl ⟨e, rfl, rfl⟩
  · exact .inr (.inr rfl)
  · exact .inr (.inl rfl)
  · exact .inr (.inr rfl)

theorem Listener.finishEndSlowly_cases (host : Host) (own : Option (Path × FileId)) (quiet : Bool)
    (result : Except ListenerError Unit) :
    (∃ path f, own = some (path, f) ∧ isOwn host path f = true ∧
      finishEndSlowly host own quiet result = .waits (.sweeping path f quiet result)) ∨
      finishEndSlowly host own quiet result = told quiet result := by
  unfold finishEndSlowly
  split
  · split
    · exact .inl ⟨_, _, rfl, ‹_›, rfl⟩
    · exact .inr rfl
  · exact .inr rfl

theorem Listener.beginAccept_cases (x : Listener) :
    (∃ e, x.beginAccept = .failed e) ∨ ∃ fd, x.beginAccept = .waits (.accepting fd) ∧
      x.phase = .bound ∧ x.slot.get = some fd := by
  unfold Listener.beginAccept
  split
  · exact .inl ⟨_, rfl⟩
  · exact .inl ⟨_, rfl⟩
  · split
    · exact .inr ⟨_, rfl, ‹_›, ‹_›⟩
    · exact .inl ⟨_, rfl⟩

namespace State

variable {s : State} {l : Nat} {x : Listener}

theorem setListener_self (hx : s.listeners[l]? = some x) : s.setListener l x = s := by
  obtain ⟨hlt, rfl⟩ := List.getElem?_eq_some_iff.mp hx
  simp [setListener]

theorem isUnheld_iff : s.isUnheld l = true ↔ l ∈ s.dropped ∧ ∀ t, .working l t ∉ s.tasks := by
  simp only [isUnheld, Bool.and_eq_true, List.contains_eq_mem, decide_eq_true_eq,
    Bool.not_eq_true', List.any_eq_false]
  refine and_congr_right fun _ => ⟨fun h t ht => ?_, fun h f hf => ?_⟩
  · simpa using h _ ht
  · cases f with
    | working k t =>
      simp only [beq_iff_eq]
      rintro rfl
      exact h t hf
    | _ => simp

theorem not_mem_locks_of_isUnheld (h : s.isUnheld l = true) : l ∉ s.locks := by
  intro hl
  obtain ⟨t, ht, -⟩ := mem_locks.mp hl
  exact (isUnheld_iff.mp h).2 t ht

theorem isLocked_iff : s.isLocked l = true ↔ l ∈ s.locks := by
  rw [mem_locks, isLocked, List.any_eq_true]
  constructor
  · rintro ⟨f, hf, hlock⟩
    cases f with
    | working k t =>
      obtain ⟨hk, ht⟩ := Bool.and_eq_true_iff.mp hlock
      obtain rfl := beq_iff_eq.mp hk
      exact ⟨t, hf, ht⟩
    | creating | releasing => simp at hlock
  · rintro ⟨t, hf, ht⟩
    exact ⟨_, hf, by simp [ht]⟩

theorem not_mem_locks_of_isLocked (h : s.isLocked l = false) : l ∉ s.locks := by
  rw [← isLocked_iff, h]
  exact Bool.false_ne_true

/-- Letting go of a listener that is in use or closed does nothing. Otherwise its close begins. -/
theorem moves_closeUnheld (h : Orderly s) (hs : s.Settled) (l : Nat) :
    Moves s (s.closeUnheld l) := by
  unfold closeUnheld
  split
  · rename_i x hx
    split
    · rename_i hu
      have hl := not_mem_locks_of_isUnheld hu
      rcases Listener.beginClose_cases (h.proper l x hx) s.host true with
        ⟨-, heq⟩ | ⟨fd, hp, hfd, heq⟩ | ⟨fd, hp, hfd, heq⟩
      · rw [heq]
        simp only [if_true, setListener_self hx]
        exact .refl s
      · rw [heq]
        exact (Move.shutDown l x fd true hs hx hp hfd hl).single
      · rw [heq]
        exact (Move.closed l x fd _ hs hx hp hfd hl (.inl ⟨true, rfl⟩)).single
    · exact .refl s
  · exact .refl s

theorem moves_finish (h : Orderly s) (hs : s.Settled) (o : Outcome) (l : Nat) :
    Moves s ((s.finish o).closeUnheld l) := by
  have hm := Move.finished o hs
  exact .step hm (moves_closeUnheld (h.move hm) (s.settled_note _ (by simp)) l)

/-- An operation that comes to nothing but an end. -/
theorem moves_advance (h : Orderly s) (hs : s.Settled) (l : Nat) (config : UnixConfig)
    {p : Progress} (hp : (∃ e, p = .failed e) ∨ p = .done ∨ p = .over) :
    Moves s (s.advance l config p) := by
  rcases hp with ⟨e, rfl⟩ | rfl | rfl
  · exact moves_finish h hs _ l
  · exact moves_finish h hs _ l
  · exact .refl s

theorem listener?_eq_some (hx : s.listener? l = some x) :
    l ∉ s.dropped ∧ s.listeners[l]? = some x := by
  unfold listener? at hx
  split at hx
  · simp at hx
  · exact ⟨‹_›, hx⟩

theorem listener?_of_get (hl : l ∉ s.dropped) (hx : s.listeners[l]? = some x) :
    s.listener? l = some x := by
  rw [listener?, if_neg hl]
  exact hx

theorem moves_letGo (hs : s.Settled) (i : Nat) (quiet : Bool) : Moves s (s.letGo i quiet) := by
  unfold letGo
  split
  · exact (Move.finished _ hs).single
  · rename_i held hc
    rcases held with ⟨c, _ | _⟩
    · -- the socket layer knows nothing of this connection
      refine .step (.forgotten i c hc) (.step (.hosted _) (Move.single (.finished _ ?_)))
      exact hs
    · exact (Move.released i c quiet hs hc).single

/-- An operation of a listener that nobody has any more only ends. -/
theorem moves_withListener (hs : s.Settled) {f : Listener → State}
    (hf : ∀ x, s.listeners[l]? = some x → Moves s (f x)) : Moves s (s.withListener l f) := by
  unfold withListener
  split
  · exact hf _ (listener?_eq_some ‹_›).2
  · exact (Move.finished _ hs).single

/-- An operation that goes on to wait, and gives nothing up. -/
theorem moves_wait {t : Task} (hs : s.Settled) (hx : s.listeners[l]? = some x) (ht : x.Suits t)
    (hl : ∀ k ∈ (Frame.working l t).locks, k ∉ s.locks) (config : UnixConfig)
    (hplain : ∀ c, t.call config = some c → c.isPlain = true)
    (howes : (Frame.working l t).owes = []) : Moves s (s.wait l config t) := by
  cases hc : t.call config with
  | some c =>
    have heq : s.wait l config t = s.push (.working l t) c := by simp [wait, push, note, hc]
    rw [heq]
    exact (Move.pushed _ c hs (hplain c hc) howes ⟨x, hx, ht⟩ hl).single
  | none => exact (Move.paused l t config hs hc ⟨x, hx, ht⟩ hl).single

theorem moves_begin (h : Orderly s) (hs : s.Settled) (op : Operation)
    (hl : ∀ l ∈ lockOf op, l ∉ s.locks) : Moves s (s.begin op) := by
  cases op with
  | create config =>
    exact (Move.pushed (.creating config) .socket hs rfl rfl trivial (by simp [Frame.locks])).single
  | bind l path =>
    refine moves_withListener hs fun x hx => ?_
    have hhost := Move.hosted (s := s) (x.beginBind s.host path).2
    apply Moves.step hhost
    show Moves _ ({ s with host := (x.beginBind s.host path).2 }.advance l x.config
      (x.beginBind s.host path).1)
    rcases Listener.beginBind_cases x s.host path with ⟨e, heq⟩ | ⟨fd, address, heq, hu⟩
    · exact moves_advance (h.move hhost) hs l _ (.inl ⟨e, heq⟩)
    · rw [heq]
      refine Move.single (.pushed _ _ hs rfl rfl ⟨x, hx, hu⟩ fun k hk => ?_)
      obtain rfl := Frame.eq_of_mem_locks hk
      exact hl k rfl
  | bindSlowly l path =>
    refine moves_withListener hs fun x hx => ?_
    rcases Listener.beginBindSlowly_cases x path with ⟨e, heq⟩ | ⟨fd, address, heq, hu⟩ <;> rw [heq]
    · exact moves_advance h hs l _ (.inl ⟨e, rfl⟩)
    · refine Move.single (.paused l _ x.config hs rfl ⟨x, hx, hu⟩ fun k hk => ?_)
      obtain rfl := Frame.eq_of_mem_locks hk
      exact hl k rfl
  | accept l =>
    refine moves_withListener hs fun x hx => ?_
    rcases Listener.beginAccept_cases x with ⟨e, heq⟩ | ⟨fd, heq, hb, -⟩
    · exact moves_advance h hs l _ (.inl ⟨e, heq⟩)
    · rw [heq]
      refine Move.single (.pushed _ _ hs rfl rfl ⟨x, hx, ?_⟩ ?_)
      · simp [Listener.Suits, hb]
      · simp [Frame.locks, Task.holdsLock]
  | close l =>
    refine moves_withListener hs fun x hx => ?_
    have hl : l ∉ s.locks := hl l rfl
    unfold advanceWith
    rcases Listener.beginClose_cases (h.proper l x hx) s.host false with
      ⟨-, heq⟩ | ⟨fd, hp, hfd, heq⟩ | ⟨fd, hp, hfd, heq⟩ <;> rw [heq]
    · simp only [setListener_self hx]
      exact moves_finish h hs _ l
    · exact (Move.shutDown l x fd false hs hx hp hfd hl).single
    · exact (Move.closed l x fd _ hs hx hp hfd hl (.inl ⟨false, rfl⟩)).single
  | drop l =>
    refine moves_withListener hs fun x hx => ?_
    have hm := Move.dropped l (List.getElem?_eq_some_iff.mp hx).1
    exact .step hm (moves_finish (h.move hm) hs _ l)
  | connect path =>
    simp only [begin]
    split
    · refine .step (.hosted _) (.step (.connected _) (Move.single (.finished _ ?_)))
      exact hs
    · refine .step (.hosted _) (Move.single (.finished _ ?_))
      exact hs
  | closeConnection i => exact moves_letGo hs i false
  | dropConnection i => exact moves_letGo hs i true

theorem moves_perform (h : Orderly s) (op : Operation) : Moves s (s.perform op) := by
  unfold perform
  split
  · exact .refl s
  · rename_i hlock
    -- the entry comes before the operation looks at anything
    have hm := Move.began (s := s) op
    refine .step hm (moves_begin (h.move hm) (s.settled_note _ (by simp)) op fun l hl => ?_)
    refine not_mem_locks_of_isLocked (s := s) ?_
    simpa [Option.mem_def.mp hl] using hlock

/-! ## What a reply comes to -/

variable {f : Frame} {rest : List Frame} {r : Reply}

/-- The state in which the innermost task is over. -/
theorem popped (h : Orderly s) (ht : s.tasks = f :: rest) (hf : f.owes = [])
    (hr : r.isPlain = true) :
    let m := { s with tasks := rest }.note (.replied r)
    Move s m ∧ Orderly m ∧ m.Settled := by
  have hm := Move.popped f rest r ht hf hr
  exact ⟨hm, h.move hm, settled_note _ _ (by simp)⟩

theorem moves_giveUp (h : Orderly s) (hs : s.Settled) (hx : s.listeners[l]? = some x)
    (hu : x.phase = .unbound) (hl : l ∉ s.locks) (path : Path) (created : Option FileId)
    (cause : ListenerError) :
    Moves s (s.advanceWith l (x.giveUp s.host path created cause)) := by
  obtain ⟨fd, hfd⟩ : ∃ fd, x.slot.get = some fd := by
    refine Option.ne_none_iff_exists'.mp fun hn => ?_
    have := (h.proper l x hx).closed.mpr hn
    simp [hu] at this
  have heq : x.giveUp s.host path created cause =
      (.waits (.givingUp fd path created cause), x.retired, s.host) := by
    simp [Listener.giveUp, hfd, Listener.retired]
  rw [heq]
  exact (Move.closed l x fd _ hs hx hu hfd hl (.inr ⟨path, created, cause, rfl⟩)).single

theorem moves_afterListen (h : Orderly s) (hs : s.Settled) (hx : s.listeners[l]? = some x)
    (hu : x.phase = .unbound) (hl : l ∉ s.locks) (path : Path) (created : Option FileId)
    (r : Except IoError Unit) :
    Moves s (s.advanceWith l (x.afterListen s.host path created r)) := by
  unfold Listener.afterListen
  split
  · exact moves_giveUp h hs hx hu hl path created _
  · split
    · exact moves_giveUp h hs hx hu hl path created _
    · rename_i host _
      have hhost := Move.hosted (s := s) host
      have hbound := Move.bound (s := { s with host }) l x path created hx hu hl
      have h' := (h.move hhost).move hbound
      exact .step hhost (.step hbound (moves_finish h' hs _ l))

/-- An operation at its end, with whatever it has done to the host. -/
theorem moves_told (h : Orderly s) (hs : s.Settled) (host : Host) (l : Nat) (config : UnixConfig)
    (quiet : Bool) (result : Except ListenerError Unit) :
    Moves s ({ s with host }.advance l config (Listener.told quiet result)) := by
  have hm := Move.hosted (s := s) host
  refine .step hm (moves_advance (h.move hm) hs l config ?_)
  rcases Listener.told_cases quiet result with ⟨e, heq, -⟩ | heq
  · exact .inl ⟨e, heq⟩
  · exact .inr heq

theorem moves_finishEndSlowly (h : Orderly s) (hs : s.Settled) (hx : s.listeners[l]? = some x)
    (hc : x.phase = .closed) (hl : l ∉ s.locks) (config : UnixConfig)
    (own : Option (Path × FileId)) (quiet : Bool) (result : Except ListenerError Unit) :
    Moves s (s.advance l config (Listener.finishEndSlowly s.host own quiet result)) := by
  rcases Listener.finishEndSlowly_cases s.host own quiet result with ⟨path, f, -, -, heq⟩ | heq <;>
    rw [heq]
  · refine Move.single (.paused l _ config hs rfl ⟨x, hx, hc⟩ fun k hk => ?_)
    obtain rfl := Frame.eq_of_mem_locks hk
    exact hl
  · exact moves_told h hs s.host l config quiet result

/-- A bind that goes on from the file system to its next task, or fails. -/
theorem moves_bindGoesOn (h : Orderly s) (hs : s.Settled) (hx : s.listeners[l]? = some x)
    (hl : l ∉ s.locks) (config : UnixConfig) (host : Host) {p : Progress}
    (hp : (∃ e, p = .failed e) ∨ ∃ t, p = .waits t ∧ t.holdsLock = true ∧ x.Suits t ∧
      (∀ c, t.call config = some c → c.isPlain = true) ∧ (Frame.working l t).owes = []) :
    Moves s ({ s with host }.advance l config p) := by
  have hm := Move.hosted (s := s) host
  refine .step hm ?_
  rcases hp with ⟨e, rfl⟩ | ⟨t, rfl, -, hsuits, hplain, howes⟩
  · exact moves_advance (h.move hm) hs l config (.inl ⟨e, rfl⟩)
  · refine moves_wait (s := { s with host }) hs hx hsuits (fun k hk => ?_) config hplain howes
    obtain rfl := Frame.eq_of_mem_locks hk
    exact hl

end State

/-- Which replies a task goes on with. -/
inductive Task.Meets : Task → Reply → Prop
  | binding (fd : Fd) (path : Path) (address : AddressRecord) (r : Except IoError Unit) :
      Meets (.binding fd path address) (.done r)
  | listening (fd : Fd) (path : Path) (created : Option FileId) (r : Except IoError Unit) :
      Meets (.listening fd path created) (.done r)
  | givingUp (fd : Fd) (path : Path) (created : Option FileId) (cause : ListenerError)
      (r : Except IoError Unit) : Meets (.givingUp fd path created cause) (.done r)
  | accepting (fd : Fd) (r : Except IoError Fd) : Meets (.accepting fd) (.opened r)
  | refusing (client : Fd) (r : Except IoError Unit) : Meets (.refusing client) (.done r)
  | shuttingDown (fd : Fd) (quiet : Bool) (r : Except IoError Unit) :
      Meets (.shuttingDown fd quiet) (.done r)
  | closing (fd : Fd) (quiet : Bool) (r : Except IoError Unit) :
      Meets (.closing fd quiet) (.done r)
  -- others may come in between
  | givingUpSlowly (fd : Fd) (path : Path) (created : Option FileId) (cause : ListenerError)
      (r : Except IoError Unit) : Meets (.givingUp fd path created cause) (.doneSlowly r)
  | closingSlowly (fd : Fd) (quiet : Bool) (r : Except IoError Unit) :
      Meets (.closing fd quiet) (.doneSlowly r)
  | looking (fd : Fd) (path : Path) (address : AddressRecord) :
      Meets (.looking fd path address) .files
  | probing (fd : Fd) (path : Path) (address : AddressRecord) :
      Meets (.probing fd path address) .files
  | clearing (fd : Fd) (path : Path) (address : AddressRecord) :
      Meets (.clearing fd path address) .files
  | sweeping (path : Path) (f : FileId) (quiet : Bool) (result : Except ListenerError Unit) :
      Meets (.sweeping path f quiet result) .files

theorem Task.meets_of_takes {t : Task} {r : Reply} (h : t.takes r = true) : t.Meets r := by
  unfold takes at h
  split at h
  all_goals first | constructor | cases h

namespace State

variable {s : State} {l : Nat} {x : Listener} {f : Frame} {rest : List Frame} {r : Reply}

/-- An operation goes on at the file system. -/
theorem moves_files {t : Task} (h : Orderly s) (ht : s.tasks = .working l t :: rest)
    (hx : s.listeners[l]? = some x) (hsuits : x.Suits t) (hl : l ∉ rest.flatMap Frame.locks)
    (hmeets : t.Meets .files) :
    Moves s (({ s with tasks := rest }.note (.replied .files)).resume l x t .files) := by
  have howes : (Frame.working l t).owes = [] := by cases hmeets <;> rfl
  obtain ⟨hm, h', hs⟩ := popped (r := .files) h ht howes rfl
  apply Moves.step hm
  cases hmeets with
  | looking fd path address =>
    refine moves_bindGoesOn h' hs hx hl x.config s.host ?_
    rcases Listener.afterLook_cases s.host fd path address with ⟨e, heq⟩ | heq | heq
    · exact .inl ⟨_, heq⟩
    · exact .inr ⟨_, heq, rfl, hsuits, by rintro c ⟨⟩; rfl, rfl⟩
    · exact .inr ⟨_, heq, rfl, hsuits, by rintro c ⟨⟩, rfl⟩
  | probing fd path address =>
    refine moves_bindGoesOn h' hs hx hl x.config _ ?_
    rcases Listener.afterProbe_cases s.host fd path address with ⟨e, heq⟩ | heq | heq
    · exact .inl ⟨_, heq⟩
    · exact .inr ⟨_, heq, rfl, hsuits, by rintro c ⟨⟩; rfl, rfl⟩
    · exact .inr ⟨_, heq, rfl, hsuits, by rintro c ⟨⟩, rfl⟩
  | clearing fd path address =>
    refine moves_bindGoesOn h' hs hx hl x.config _ ?_
    rcases Listener.afterClear_cases s.host fd path address with ⟨e, heq⟩ | heq
    · exact .inl ⟨_, heq⟩
    · exact .inr ⟨_, heq, rfl, hsuits, by rintro c ⟨⟩; rfl, rfl⟩
  | sweeping path f quiet result => exact moves_told h' hs _ l x.config quiet result

theorem moves_working {t : Task} (h : Orderly s) (ht : s.tasks = .working l t :: rest)
    (hr : Frame.takes (.working l t) r = true) :
    Moves s (({ s with tasks := rest }.note (.replied r)).resumeFrame (.working l t) r) := by
  obtain ⟨x, hx, hsuits⟩ := h.placed (.working l t) (by simp [ht])
  have hfree : ∀ k ∈ (Frame.working l t).locks, k ∉ rest.flatMap Frame.locks :=
    fun k hk => h.free ht hk
  have hresume : ({ s with tasks := rest }.note (.replied r)).resumeFrame (.working l t) r =
      ({ s with tasks := rest }.note (.replied r)).resume l x t r := by
    have hx' : ({ s with tasks := rest }.note (.replied r)).listeners[l]? = some x := hx
    simp only [resumeFrame, hx']
  rw [hresume]
  have hl : t.holdsLock = true → l ∉ rest.flatMap Frame.locks :=
    fun hlock => hfree l (by simp [Frame.locks, hlock])
  -- an accept may open a descriptor, all others are over with their reply
  cases Task.meets_of_takes hr with
  | accepting fd r =>
    rcases r with e | client
    · obtain ⟨hm, h', hs⟩ := popped (r := .opened (.error e)) h ht rfl rfl
      exact .step hm (moves_advance h' hs l x.config (.inl ⟨_, rfl⟩))
    · -- the slot of the listener says whether a close came in the meantime
      have hproper := h.proper l x hx
      rcases hslot : x.slot.get with _ | k
      · have hm := Move.refused l x fd client rest ht hx (hproper.closed.mpr hslot)
        simp only [resume, Listener.afterAccept, hslot]
        exact hm.single
      · have hm := Move.accepted l fd client rest ht
        simp only [resume, Listener.afterAccept, hslot, advance]
        exact .step hm (moves_closeUnheld (h.move hm) (settled_note _ _ (by simp)) l)
  | binding fd path address r =>
    obtain ⟨hm, h', hs⟩ := popped (r := .done r) h ht rfl rfl
    refine .step hm ?_
    rcases r with e | u
    · exact moves_advance h' hs l x.config (.inl ⟨_, rfl⟩)
    · refine Move.single (.pushed _ _ hs rfl rfl ⟨x, hx, hsuits⟩ fun k hk => ?_)
      exact hfree k hk
  | listening fd path created r =>
    obtain ⟨hm, h', hs⟩ := popped (r := .done r) h ht rfl rfl
    exact .step hm (moves_afterListen h' hs hx hsuits (hl rfl) path created r)
  | givingUp fd path created cause r =>
    obtain ⟨hm, h', hs⟩ := popped (r := .done r) h ht rfl rfl
    exact .step hm (moves_told h' hs (Listener.finishGiveUp s.host path created cause).2 l x.config
      false (.error cause))
  | refusing client r =>
    obtain ⟨hm, h', hs⟩ := popped (r := .done r) h ht rfl rfl
    exact .step hm (moves_advance h' hs l x.config (.inl ⟨_, rfl⟩))
  | shuttingDown fd quiet r => exact (Move.shut l fd quiet rest r ht).single
  | closing fd quiet r =>
    obtain ⟨hm, h', hs⟩ := popped (r := .done r) h ht rfl rfl
    exact .step hm (moves_told h' hs _ l x.config quiet _)
  | givingUpSlowly fd path created cause r =>
    obtain ⟨hm, h', hs⟩ := popped (r := .doneSlowly r) h ht rfl rfl
    exact .step hm (moves_finishEndSlowly h' hs hx hsuits (hl rfl) x.config _ false _)
  | closingSlowly fd quiet r =>
    obtain ⟨hm, h', hs⟩ := popped (r := .doneSlowly r) h ht rfl rfl
    exact .step hm (moves_finishEndSlowly h' hs hx hsuits (hl rfl) x.config _ quiet _)
  | looking | probing | clearing | sweeping =>
    exact moves_files h ht hx hsuits (hl rfl) (by constructor)

/-- A connection that gives its descriptor back waits for its native close alone. -/
theorem takes_releasing {fd : Fd} {quiet : Bool}
    (h : Frame.takes (.releasing fd quiet) r = true) : ∃ r', r = .done r' := by
  cases r with
  | done r => exact ⟨r, rfl⟩
  | _ => simp [Frame.takes] at h

/-- However the close of a connection goes, the operation is over, and tells of no misuse. -/
theorem resumeFrame_releasing (s : State) (fd : Fd) (quiet : Bool) (r : Except IoError Unit) :
    ∃ o, (∀ err, o = .failed err → err.isMisuse = false) ∧
      s.resumeFrame (.releasing fd quiet) (.done r) = s.finish o := by
  cases quiet with
  | true => exact ⟨.done, by simp, rfl⟩
  | false =>
    cases r with
    | error e =>
      refine ⟨.failed (.native .close e), fun err herr => ?_, rfl⟩
      obtain rfl := Outcome.failed.inj herr
      rfl
    | ok u => exact ⟨.done, by simp, rfl⟩

theorem moves_reply (h : Orderly s) (r : Reply)
    (hv : ∀ fd, r = .opened (.ok fd) → fd ≠ DescriptorSlot.invalid) : Moves s (s.reply r) := by
  unfold reply
  split
  · exact .refl s
  rename_i f rest ht
  split
  rotate_left
  · exact .refl s
  rename_i htakes
  cases f with
  | creating config =>
    rcases r with (e | fd) | r | r | _
    · obtain ⟨hm, h', hs⟩ := popped (r := .opened (.error e)) h ht rfl rfl
      exact .step hm (Move.single (.finished _ hs))
    · exact (Move.made config fd rest ht (hv fd rfl)).single
    all_goals simp [Frame.takes] at htakes
  | working l t => exact moves_working h ht htakes
  | releasing fd quiet =>
    obtain ⟨r, rfl⟩ := takes_releasing htakes
    obtain ⟨hm, h', hs⟩ := popped (r := .done r) h ht rfl rfl
    obtain ⟨o, -, heq⟩ := resumeFrame_releasing
      ({ s with tasks := rest }.note (.replied (.done r))) fd quiet r
    rw [heq]
    exact .step hm (Move.finished o hs).single

end State

/-! ## Steps and runs -/

/-- No reply opens the descriptor that stands for none. -/
def OpensValid (es : List Event) : Prop :=
  ∀ fd, .reply (.opened (.ok fd)) ∈ es → fd ≠ DescriptorSlot.invalid

theorem OpensValid.of_cons {e : Event} {es : List Event} (h : OpensValid (e :: es)) :
    OpensValid [e] ∧ OpensValid es := by
  refine ⟨fun fd hfd => h fd ?_, fun fd hfd => h fd (List.mem_cons_of_mem _ hfd)⟩
  rw [List.mem_singleton.mp hfd]
  exact List.mem_cons_self ..

namespace State

variable {s : State}

theorem moves_step (h : Orderly s) {e : Event} (hv : OpensValid [e]) : Moves s (s.step e) := by
  cases e with
  | start op => exact moves_perform h op
  | reply r =>
    refine moves_reply h r fun fd hfd => hv fd ?_
    rw [hfd]
    exact List.mem_singleton_self _
  | world host => exact (Move.hosted host).single

theorem moves_run (h : Orderly s) {es : List Event} (hv : OpensValid es) : Moves s (s.run es) := by
  induction es generalizing s with
  | nil => exact .refl s
  | cons e es ih =>
    obtain ⟨hve, hves⟩ := hv.of_cons
    have hstep := moves_step h hve
    exact hstep.trans (ih (h.moves hstep) hves)

end State

theorem Orderly.start (host : Host) : Orderly (State.start host) :=
  ⟨by simp [State.start], by simp [State.start], List.nodup_nil⟩

theorem Orderly.run {s : State} (h : Orderly s) {es : List Event} (hv : OpensValid es) :
    Orderly (s.run es) :=
  h.moves (State.moves_run h hv)

end LocalIpc.Unix

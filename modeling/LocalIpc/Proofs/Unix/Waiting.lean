import LocalIpc.Proofs.Unix.Attendance
/-!
# An accept that waits

An accept of a bound listener waits below whatever else happens, and while it is the only one of its
listener, it is the one that takes the next from the queue. What it hands out stays in use until
somebody closes it.
-/

namespace LocalIpc.Unix

/-! ## The operations under way -/

/-- No accept of the listener is under way. -/
def State.Idle (s : State) (l : Nat) : Prop := ∀ fd, .working l (.accepting fd) ∉ s.tasks

section Tasks

variable {s m : State} {l : Nat} {fd : Fd} {e : Happening} {es : List Happening}

/-- What begins comes on top, and an accept only where a listener is asked for one. -/
theorem State.Parts.tasks {p : State → Nat → Trigger → Prop} (h : Parts p s m) :
    ∃ new, m.tasks = new ++ s.tasks ∧
      ∀ k f, .working k (.accepting f) ∈ new → ∃ m', p m' k .accept := by
  induction h with
  | same ht _ => exact ⟨[], ht, by simp⟩
  | made x ht _ => exact ⟨[], ht, by simp⟩
  | called f c _ hf ih =>
    obtain ⟨new, ht, hnew⟩ := ih
    refine ⟨f :: new, congrArg (f :: ·) ht, fun k f' hmem => ?_⟩
    exact hnew k f' ((List.mem_cons.mp hmem).resolve_left (hf k _ ·.symm))
  | @reacted m' k x g host _ hx hp ih =>
    obtain ⟨new, ht, hnew⟩ := ih
    refine ⟨(x.react host g).1.frames k ++ new, by rw [State.tasks_take, ht, List.append_assoc],
      fun j f hmem => ?_⟩
    rcases List.mem_append.mp hmem with hmem | hmem
    · cases hr : (x.react host g).1 with
      | waits t =>
        rw [hr] at hmem
        obtain ⟨rfl, rfl⟩ := Frame.working.inj (List.mem_singleton.mp hmem)
        cases Listener.react_waits hr with
        | accepting => exact ⟨m', hp⟩
        | led _ _ h => cases h
      | _ => simp [hr, Progress.frames] at hmem
    · exact hnew j f hmem

/-- No accept of a listener begins but where it is asked for. -/
theorem State.tasks_step (s : State) (e : Event) (he : e ≠ .start (.accept l)) :
    ∃ new, (s.step e).tasks = new ++ s.under e ∧ ∀ f, .working l (.accepting f) ∉ new := by
  obtain ⟨m, ht, -, hparts⟩ := s.parts_step e
  obtain ⟨new, hnew, haccepts⟩ := hparts.tasks
  refine ⟨new, ht ▸ hnew, fun f hmem => ?_⟩
  obtain ⟨m', hlets⟩ := haccepts l f hmem
  cases hlets with
  | asked op _ _ _ hop =>
    cases op with
    | accept k =>
      obtain ⟨rfl, -⟩ : k = l ∧ True := by simpa [Operation.asks?] using hop
      exact he rfl
    | _ => simp [Operation.asks?] at hop

/-- What happens goes on with the innermost operation, or leaves all of them to wait. -/
theorem tasks_happen (s : State) (he : e ≠ .start (.accept l)) :
    ∃ new under, (s.happen e).tasks = new ++ under ∧ (∀ f, .working l (.accepting f) ∉ new) ∧
      (under = s.tasks ∨ e = .answer ∧ ∃ f, s.tasks = f :: under) := by
  cases e with
  | start op =>
    obtain ⟨new, ht, hnew⟩ := s.tasks_step (.start op) (l := l) (by simpa using he)
    exact ⟨new, _, ht, hnew, .inl rfl⟩
  | answer =>
    unfold State.happen
    rcases s.answer? with _ | ⟨r, host⟩
    · exact ⟨[], s.tasks, rfl, by simp, .inl rfl⟩
    · obtain ⟨new, ht, hnew⟩ := (s.step (.world host)).tasks_step (.reply r) (l := l) (by simp)
      refine ⟨new, _, ht, hnew, ?_⟩
      unfold State.under
      rcases htasks : s.tasks with _ | ⟨f, rest⟩
      · exact .inl (by simp [State.step, htasks])
      · simp only [State.step, htasks]
        split
        · exact .inr ⟨trivial, f, rfl⟩
        · exact .inl rfl
  | _ => exact ⟨[], s.tasks, rfl, by simp, .inl rfl⟩

theorem State.Idle.happen (h : s.Idle l) (he : e ≠ .start (.accept l)) : (s.happen e).Idle l := by
  obtain ⟨new, under, ht, hnew, hunder⟩ := tasks_happen s he
  intro f hmem
  rcases List.mem_append.mp (ht ▸ hmem) with hmem | hmem
  · exact hnew f hmem
  · rcases hunder with rfl | ⟨-, f', hf'⟩
    · exact h f hmem
    · exact h f (hf' ▸ List.mem_cons_of_mem _ hmem)

end Tasks

/-! ## From the beginning of an accept to its end -/

/-- The one accept of the listener that is under way waits above these operations. -/
structure State.Waits (s : State) (l : Nat) (fd : Fd) (below : List Frame) : Prop where
  above : ∃ above, s.tasks = above ++ .working l (.accepting fd) :: below ∧
    ∀ f, .working l (.accepting f) ∉ above
  idle : ∀ f, .working l (.accepting f) ∉ below

/-- An accept of the listener waits, with another operation under way inside it or with nobody in
the queue. -/
def State.WaitsInVain (s : State) (l : Nat) (fd : Fd) : Prop :=
  ∃ above below, s.tasks = above ++ .working l (.accepting fd) :: below ∧
    (above = [] → s.host.queue fd = [])

/-- The accept of the listener that waited in `s` is over in `s'`: it has handed out the connection
for stream `n` under the descriptor `c`. -/
structure State.Over (s s' : State) (l : Nat) (below : List Frame) (n : Nat) (c : Fd) : Prop where
  hands : s.HandsOut l .answer s.connections.length c
  tasks : s'.tasks = below
  outcome : s'.lastOutcome = .opened s.connections.length (Connection.ofFd c)
  inUse : s'.connection? s.connections.length = some ⟨Connection.ofFd c, true⟩
  opened : s'.host.descriptor? c = some (.stream n .far)

section Waiting

variable {s : State} {l : Nat} {fd : Fd} {path : Path} {e : Happening} {below : List Frame}

/-- A listener whose lock is free begins to wait. -/
theorem State.Answers.begins (hs : s.Answers l fd path) (hfree : s.isLocked l = false)
    (hidle : s.Idle l) :
    (s.happen (.start (.accept l))).Waits l fd s.tasks ∧
      s.admits? fd (.start (.accept l)) = none := by
  obtain ⟨x, hx, hphase, -, hslot⟩ := hs.bound
  obtain ⟨hd, hget⟩ := State.listener?_eq_some hx
  have hbegin : x.beginAccept = .waits (.accepting fd) := by
    simp [Listener.beginAccept, hphase, hslot]
  have hstep : s.happen (.start (.accept l)) =
      (s.note (.began (.accept l))).push (.working l (.accepting fd)) (.accept fd .empty) := by
    simp [State.happen, State.step, State.perform, State.lockOf, hfree, State.begin,
      State.withListener, State.listener?, State.note, hd, hget, hbegin, State.advance, State.wait,
      State.push, Task.call]
  rw [hstep]
  exact ⟨⟨⟨[], rfl, by simp⟩, hidle⟩, rfl⟩

/-- Nobody is taken from the queue while no accept of the listener is under way. -/
theorem State.Idle.admits? (h : s.Idle l) (hs : s.Answers l fd path) (ha : s.Apart) :
    s.admits? fd e = none := by
  rcases hadmits : s.admits? fd e with _ | ⟨n, j⟩
  · rfl
  · obtain ⟨-, -, rest, ht, -⟩ := admits_cases hs ha hadmits
    exact absurd (ht ▸ List.mem_cons_self) (h fd)

/-- What is taken from the queue while the accept waits ends it. -/
theorem State.Waits.over (h : s.Waits l fd below) (hs : s.Answers l fd path) (ha : s.Apart)
    {n j : Nat} (hadmits : s.admits? fd e = some (n, j)) :
    e = .answer ∧ j = s.connections.length ∧ ∃ c, s.Over (s.happen e) l below n c := by
  obtain ⟨x, hx, -, -, hslot⟩ := hs.bound
  obtain ⟨rfl, rfl, rest, ht, hn⟩ := admits_cases hs ha hadmits
  obtain rfl : rest = below := by
    obtain ⟨above, htasks, hnone⟩ := h.above
    rw [ht] at htasks
    rcases above with _ | ⟨f, above⟩
    · exact (List.cons.inj htasks).2
    · obtain ⟨rfl, -⟩ := List.cons.inj htasks
      exact absurd List.mem_cons_self (hnone fd)
  have hnext := State.happen_accepting ht hx (by simp [hslot]) hn
  refine ⟨rfl, rfl, s.host.nextFd, ?_⟩
  rw [hnext]
  exact
    { hands := ⟨rfl, ⟨fd, rest, ht⟩, rfl, by rw [hnext]; rfl⟩
      tasks := rfl
      outcome := by simp [State.addConnection, State.finish, State.note, State.lastOutcome]
      inUse := by simp [State.addConnection, State.finish, State.note, State.connection?]
      opened := (Host.accept_of_head hn).2 }

/-- When the accept is innermost and its call does not return, nobody is in the queue. -/
theorem State.Answers.queue_eq_nil (hs : s.Answers l fd path) {rest : List Frame}
    (ht : s.tasks = .working l (.accepting fd) :: rest) (hadmits : s.admits? fd .answer = none) :
    s.host.queue fd = [] := by
  obtain ⟨x, hx, -⟩ := hs.listener
  rw [← List.head?_eq_none_iff]
  simpa [State.admits?, State.deal, ht, State.dealOf, hx, Task.deal, Task.call, Call.deal,
    Host.admits?] using hadmits

theorem State.Waits.inVain (h : s.Waits l fd below) (hs : s.Answers l fd path)
    (hadmits : s.admits? fd .answer = none) : s.WaitsInVain l fd := by
  obtain ⟨above, ht, -⟩ := h.above
  refine ⟨above, below, ht, ?_⟩
  rintro rfl
  exact hs.queue_eq_nil ht hadmits

/-- Whatever else happens, the accept waits on. -/
theorem State.Waits.happen (h : s.Waits l fd below) (hs : s.Answers l fd path)
    (he : e ≠ .start (.accept l)) (hadmits : s.admits? fd e = none) :
    (s.happen e).Waits l fd below := by
  obtain ⟨above, ht, habove⟩ := h.above
  obtain ⟨new, under, htasks, hnew, rfl | ⟨rfl, f, hf⟩⟩ := tasks_happen s he
  · refine ⟨⟨new ++ above, by rw [htasks, ht, List.append_assoc], fun f hmem => ?_⟩, h.idle⟩
    exact (List.mem_append.mp hmem).elim (hnew f) (habove f)
  rcases above with _ | ⟨f', above⟩
  · -- the call of the accept itself does not return, for nobody is in the queue
    obtain ⟨x, hx, -⟩ := hs.listener
    have hqueue := hs.queue_eq_nil ht hadmits
    rw [State.happen_accepting_none ht hx hs.isListening hqueue]
    exact h
  · obtain ⟨rfl, rfl⟩ := List.cons.inj (ht.symm.trans hf)
    refine ⟨⟨new ++ above, htasks.trans (List.append_assoc ..).symm, fun f hmem => ?_⟩, h.idle⟩
    exact (List.mem_append.mp hmem).elim (hnew f) fun hmem => habove f (List.mem_cons_of_mem _ hmem)

/-- An accept that waits is above the others. -/
theorem State.Waits.length_ne (h : s.Waits l fd below) : s.tasks.length ≠ below.length := by
  obtain ⟨above, ht, -⟩ := h.above
  simp only [ht, List.length_append, List.length_cons]
  omega

end Waiting

/-! ## Connections in use -/

section Connections

variable {s m : State} {l : Nat} {e : Happening} {j : Nat} {held : Held}

theorem connections_take (s : State) (l : Nat) (p : Progress × Listener × Host) :
    s.connections <+: (s.take l p).connections := by
  rcases p with ⟨_ | _ | _ | _ | _, y, host⟩
  · exact List.prefix_refl _
  · exact List.prefix_append _ _
  · exact List.prefix_refl _
  · exact List.prefix_refl _
  · exact List.prefix_refl _

theorem connections_advanceWith (s : State) (l : Nat) (p : Progress × Listener × Host) :
    s.connections <+: (s.advanceWith l p).connections := by
  have htake := connections_take s l p
  rcases s.advanceWith_cases l p with heq | heq <;> rw [heq]
  · exact htake
  · rwa [State.connections_closeUnheld]

theorem connection?_of_prefix (h : s.connections <+: m.connections)
    (hj : s.connection? j = some held) : m.connection? j = some held := by
  obtain ⟨new, hnew⟩ := h
  have hget : s.connections[j]? = some (some held) := by
    simpa [State.connection?, Option.join_eq_some_iff] using hj
  have hlt := (List.getElem?_eq_some_iff.mp hget).1
  simp [State.connection?, ← hnew, List.getElem?_append_left hlt, hget]

/-- What lets go of another connection. -/
theorem Operation.letsGo?_ne {op : Operation} {i : Nat} {quiet : Bool}
    (hop : op.letsGo? = some (i, quiet)) (hclose : op ≠ .closeConnection j)
    (hdrop : op ≠ .dropConnection j) : i ≠ j := by
  rintro rfl
  cases op <;> simp_all [Operation.letsGo?]

/-- A connection stays in use until it is closed or dropped. -/
theorem connection?_step {e : Event} (hj : s.connection? j = some held)
    (hclose : e ≠ .start (.closeConnection j)) (hdrop : e ≠ .start (.dropConnection j)) :
    (s.step e).connection? j = some held := by
  have heffect := s.effect_step e
  generalize s.step e = s' at heffect ⊢
  cases heffect with
  | asks op l x g =>
    exact connection?_of_prefix (connections_advanceWith (s.note (.began op)) l _) hj
  | answered l x t r rest =>
    exact connection?_of_prefix
      (connections_advanceWith ({ s with tasks := rest }.note (.replied r)) l _) hj
  | drops l x hx =>
    rw [State.connection?, State.connections_closeUnheld]
    exact hj
  | connects path fd host => exact connection?_of_prefix (List.prefix_append _ _) hj
  | releases op i quiet c hop | forgets op i quiet c hop =>
    have hij : i ≠ j := Operation.letsGo?_ne hop (fun heq => hclose (congrArg _ heq))
      fun heq => hdrop (congrArg _ heq)
    refine Eq.trans ?_ hj
    simp [State.connection?, State.finish, State.push, State.note, List.getElem?_set_ne hij]
  | _ => exact hj

theorem connection?_happen (hj : s.connection? j = some held)
    (hclose : e ≠ .start (.closeConnection j)) (hdrop : e ≠ .start (.dropConnection j)) :
    (s.happen e).connection? j = some held := by
  cases e with
  | start op =>
    exact connection?_step hj (fun heq => hclose (congrArg _ (Event.start.inj heq)))
      fun heq => hdrop (congrArg _ (Event.start.inj heq))
  | answer =>
    unfold State.happen
    rcases s.answer? with _ | ⟨r, host⟩
    · exact hj
    · exact connection?_step (s := s.step (.world host)) hj (by simp) (by simp)
  | _ => exact hj

end Connections

/-! ## Runs -/

section Runs

variable {s : State} {l : Nat} {fd : Fd} {path : Path} {es fs : List Happening}

theorem arrivals_append (s : State) (fd : Fd) (es fs : List Happening) :
    s.arrivals fd (es ++ fs) = s.arrivals fd es ++ (s.live es).arrivals fd fs := by
  induction es generalizing s with
  | nil => rfl
  | cons e es ih =>
    rw [List.cons_append, State.arrivals, State.arrivals, ih, List.append_assoc]
    rfl

theorem admissions_append (s : State) (fd : Fd) (es fs : List Happening) :
    s.admissions fd (es ++ fs) = s.admissions fd es ++ (s.live es).admissions fd fs := by
  induction es generalizing s with
  | nil => rfl
  | cons e es ih =>
    rw [List.cons_append, State.admissions, State.admissions, ih, List.append_assoc]
    rfl

theorem admissions_singleton (s : State) (fd : Fd) (e : Happening) :
    s.admissions fd [e] = (s.admits? fd e).toList := List.append_nil _

theorem State.Idle.live (h : s.Idle l) (hno : .start (.accept l) ∉ es) : (s.live es).Idle l := by
  induction es generalizing s with
  | nil => exact h
  | cons e es ih =>
    have he : e ≠ .start (.accept l) := fun heq => hno (heq ▸ List.mem_cons_self)
    exact ih (h.happen he) fun hmem => hno (List.mem_cons_of_mem _ hmem)

/-- Nobody is accepted while the listener is not asked for it. -/
theorem State.Idle.admissions (h : s.Idle l) (hno : .start (.accept l) ∉ es)
    (hs : s.Stands l fd path es) : s.admissions fd es = [] := by
  induction es generalizing s with
  | nil => rfl
  | cons e es ih =>
    have he : e ≠ .start (.accept l) := fun heq => hno (heq ▸ List.mem_cons_self)
    rw [State.admissions, h.admits? hs.now hs.apart, ih (h.happen he)
      (fun hmem => hno (List.mem_cons_of_mem _ hmem)) hs.next]
    rfl

/-- A connection that nobody closes is in use all the time, and its descriptor stands for its
stream. -/
theorem State.Apart.stream {j n : Nat} {held : Held} (h : s.Apart) (hopens : s.OpensUnused es)
    (hj : s.connection? j = some held)
    (hd : s.host.descriptor? held.connection.handle.fd = some (.stream n .far))
    (hno : .start (.closeConnection j) ∉ es ∧ .start (.dropConnection j) ∉ es) :
    (s.live es).connection? j = some held ∧
      (s.live es).host.descriptor? held.connection.handle.fd = some (.stream n .far) := by
  induction es generalizing s with
  | nil => exact ⟨hj, hd⟩
  | cons e es ih =>
    have hj' := connection?_happen hj (fun heq => hno.1 (heq ▸ List.mem_cons_self))
      (fun heq => hno.2 (heq ▸ List.mem_cons_self))
    have hstays := h.stays hopens.1 (mem_holds_of_connection hj) (mem_holds_of_connection hj')
    refine ih (h.happen hopens.1) hopens.2 hj' (hstays.stream n .far hd)
      ⟨fun hmem => ?_, fun hmem => ?_⟩
    · exact hno.1 (List.mem_cons_of_mem _ hmem)
    · exact hno.2 (List.mem_cons_of_mem _ hmem)

/-- Whoever comes waits with a new stream. -/
theorem le_of_mem_arrivals {n : Nat} {who : Caller} (h : (n, who) ∈ s.arrivals fd es) :
    s.host.streams.length ≤ n := by
  induction es generalizing s with
  | nil => simp [State.arrivals] at h
  | cons e es ih =>
    rcases List.mem_append.mp h with hfirst | hlater
    · exact Nat.le_of_eq (joins_cases (Option.mem_toList.mp hfirst)).1.symm
    · have hlength := Host.length_streams_deal s.host (s.deal e)
      rw [← (sameSockets_happen s e).streams] at hlength
      exact Nat.le_trans hlength (ih hlater)

/-- Whoever waits in the queue has come before. -/
theorem mem_arrivals_of_queue {n : Nat} {who : Caller} (htidy : (s.live es).host.Tidy)
    (hn : n ∈ (s.live es).host.queue fd) (h : (n, who) ∈ s.arrivals fd (es ++ fs)) :
    (n, who) ∈ s.arrivals fd es := by
  rw [arrivals_append] at h
  refine (List.mem_append.mp h).resolve_right fun hlater => ?_
  have hold : n < (s.live es).host.streams.length := by
    unfold Host.queue at hn
    split at hn
    · rename_i file waiting hd
      exact htidy.sound _ (Host.mem_of_descriptor? hd) n hn
    · simp at hn
  exact absurd (le_of_mem_arrivals hlater) (Nat.not_le.mpr hold)

end Runs

end LocalIpc.Unix

import LocalIpc.Proofs.Pipe.Misuse
/-!
# The end of the lock

A close gives back the instances of its listener before the lock. So the lock passes from the open
listener to the tasks of its close, and from there to the native close, which is called once. That
holds of every run, whatever handles the replies bring.
-/

namespace LocalIpc.Pipe

/-! ## What a step adds -/

/-- The operations that go on waiting when the event happens. -/
def State.under (s : State) : Event → List Task
  | .reply r => match s.tasks with
    | t :: rest => if t.takes r then rest else t :: rest
    | [] => []
  | .start _ => s.tasks

/-- The operations that wait in a new call when the event has happened. -/
def State.added (s : State) (e : Event) : List Task :=
  (s.step e).tasks.take ((s.step e).tasks.length - (s.under e).length)

/-- The handle that a task closes as the lock of its listener. -/
def Task.unlocks? : Task → Option Handle
  | closingLock lock _ _ => some lock
  | _ => none

/-- The task belongs to a close that has yet to come to the lock. -/
def Task.comesToLock : Task → Bool
  | releasing _ _ next => next.isClose
  | _ => false

/-- The handles that the native close was called for as the lock of the listener. -/
def State.lockCloses : State → List Event → List Handle
  | _, [] => []
  | s, e :: es => (s.added e).filterMap Task.unlocks? ++ (s.step e).lockCloses es

/-- The lock, once for everybody who is still to close it: a listener that is open, and a close that
has yet to come to it. -/
def Listener.due (l : Listener) (tasks : List Task) : List Handle :=
  (if l.closed then [] else [l.lock]) ++ (tasks.filter Task.comesToLock).map fun _ => l.lock

/-! ## Parts -/

section Parts

variable {l l' : Listener} {old : Option Task} {r : Option Reply} {p : Progress} {next : After}
  {t : Task} {rest : List Task}

theorem Listener.due_cons (ht : t.comesToLock = true) :
    (l.due (t :: rest)).Perm (l.lock :: l.due rest) := by
  rw [due, due, List.filter_cons_of_pos ht, List.map_cons]
  exact List.perm_middle

theorem Listener.due_cons_of_not (ht : t.comesToLock = false) : l.due (t :: rest) = l.due rest := by
  rw [due, due, List.filter_cons_of_neg (by simp [ht])]

/-- A close that goes on comes to the lock, or is yet to come to it. -/
theorem Next.pays (h : Next l next p l') (hn : next.isClose = true) (rest : List Task) :
    (l.lock :: l.due rest).Perm
      (p.task?.toList.filterMap Task.unlocks? ++ l'.due (p.task?.toList ++ rest)) := by
  cases h with
  | refuse | settle => simp [After.isClose] at hn
  | noneHandedOut | lock => exact .refl _
  | waiting | firstHandedOut | handedOut =>
    apply List.Perm.symm
    exact Listener.due_cons rfl

/-- A part closes the lock, or it leaves it to be closed by somebody else. -/
theorem Part.pays (h : Part l old r p l') (rest : List Task) :
    (l.due (old.toList ++ rest)).Perm
      (p.task?.toList.filterMap Task.unlocks? ++ l'.due (p.task?.toList ++ rest)) := by
  cases h with
  | close quiet p l' hc hn =>
    have hdue : l.due rest = l.lock ::
        { l with closed := true, registry := l.registry.clearWaiting.2 }.due rest := by
      simp [Listener.due, hc]
    exact hdue ▸ hn.pays rfl rest
  | released k next r p l' hn =>
    cases hclose : next.isClose with
    | true =>
      apply (Listener.due_cons (show (Task.releasing .close k next).comesToLock = true from
        hclose)).trans
      apply hn.pays _ rest
      rwa [After.isClose_keeping]
    | false =>
      -- it was not a close of the listener, so nothing follows
      have hnext : (next.keeping r).isClose = false := by rwa [After.isClose_keeping]
      obtain ⟨rfl, hp, -⟩ := hn.of_not_isClose hnext
      rw [hp]
      exact .of_eq (Listener.due_cons_of_not (t := .releasing .close k next) hclose)
  | closeClosed quiet hc => cases quiet <;> simp
  | unlocked lock e quiet r =>
    rw [Listener.task?_afterLock]
    simp [Listener.due, Task.comesToLock]
  | quiesced k next r | calmed call k next r hcall =>
    -- the same release goes on with another call
    cases hclose : next.isClose <;>
      simp [Listener.due, Task.comesToLock, hclose, List.filterMap_cons, Task.unlocks?]
  | delivered t r k ha hk | missed t r k ha hk =>
    cases ha <;> simp [Listener.due, Task.comesToLock]
  | _ =>
    simp [Listener.due, Task.comesToLock, After.isClose, List.filterMap_cons, Task.unlocks?]

end Parts

/-! ## One step -/

/-- Tasks come on top of `under`, and what was due is closed by one of them, or is due still. -/
def State.Pays (due : List Handle) (under : List Task) (s' : State) : Prop :=
  ∃ new l', s'.tasks = new ++ under ∧ s'.listener = some l' ∧
    due.Perm (new.filterMap Task.unlocks? ++ l'.due s'.tasks)

namespace State

variable {s s' : State} {l l' : Listener} {due : List Handle} {under rest : List Task}
  {r : Reply}

theorem Pays.same (hl : s'.listener = some l) : s'.Pays (l.due s'.tasks) s'.tasks :=
  ⟨[], l, rfl, hl, .refl _⟩

theorem pays_closeUnheld (hl : s.listener = some l) :
    s.closeUnheld.Pays (l.due s.tasks) s.tasks := by
  rcases s.closeUnheld_cases with ⟨heq, -⟩ | ⟨k, t, l', hk, -, hp, -, heq⟩ <;> rw [heq]
  · exact .same hl
  · obtain rfl := Option.some.inj (hl.symm.trans hk)
    exact ⟨[t], l', rfl, rfl, hp.pays s.tasks⟩

/-- An operation goes on with the task that a part has left, or it ends. -/
theorem pays_advance (hl : s.listener = some l) (rest : List Task) (p : Progress)
    (h : due.Perm (p.task?.toList.filterMap Task.unlocks? ++ l.due (p.task?.toList ++ rest))) :
    (s.advance rest p).Pays due rest := by
  have hend : ∀ {m : State}, m.listener = some l → m.tasks = rest → due.Perm (l.due rest) →
      m.closeUnheld.Pays due rest := by
    intro m hm ht hdue
    obtain ⟨new, l', htasks, hl', hp⟩ := pays_closeUnheld hm
    rw [ht] at htasks hp
    exact ⟨new, l', htasks, hl', hdue.trans hp⟩
  cases p with
  | waits t => exact ⟨[t], l, rfl, hl, h⟩
  | accepted k => exact hend hl rfl h
  | done => exact hend hl rfl h
  | failed e => exact hend hl rfl h
  | _ => exact ⟨[], l, rfl, hl, h⟩

theorem pays_start (hl : s.listener = some l) (op : Operation) :
    (s.start op).Pays (l.due s.tasks) s.tasks := by
  have hturn := s.turn_start op
  generalize s.start op = s' at hturn
  cases hturn with
  | gone op => exact ⟨[], l, rfl, hl, .refl _⟩
  | started op k l' p dropped hk hp hsame hdrop hkeep =>
    obtain rfl := Option.some.inj (hl.symm.trans hk)
    apply pays_advance rfl
    exact hp.pays s.tasks
  | letGo op i c k quiet hk hc =>
    obtain rfl := Option.some.inj (hl.symm.trans hk)
    apply pays_advance rfl
    exact (l.part_beginRelease c.handle quiet).pays s.tasks

theorem pays_reply (h : Orderly s) (hl : s.listener = some l) (r : Reply) :
    (s.reply r).Pays (l.due s.tasks) (s.under (.reply r)) := by
  unfold reply under
  rcases ht : s.tasks with _ | ⟨t, rest⟩
  · simp only
    rw [← ht]
    exact .same hl
  simp only [hl]
  by_cases htakes : t.takes r = true
  · rw [if_pos htakes, if_pos htakes]
    have hbuilds : t.builds = false := h.built (by simp [hl]) t (by simp [ht])
    obtain ⟨p, l', hp, heq⟩ := resume_part (s.note (.replied r)) hl hbuilds htakes rest
    rw [heq]
    apply pays_advance rfl
    exact hp.pays rest
  · rw [if_neg htakes, if_neg htakes, ← ht]
    exact .same hl

/-- The lock is closed once, in the step that calls the native close for it. -/
theorem pays_step (h : Orderly s) (hl : s.listener = some l) (e : Event) :
    ∃ l', (s.step e).listener = some l' ∧
      (l.due s.tasks).Perm ((s.added e).filterMap Task.unlocks? ++ l'.due (s.step e).tasks) := by
  have hpays : (s.step e).Pays (l.due s.tasks) (s.under e) := by
    cases e with
    | start op => exact pays_start hl op
    | reply r => exact pays_reply h hl r
  obtain ⟨new, l', hnew, hl', hp⟩ := hpays
  have hadded : s.added e = new := by simp [added, hnew]
  rw [hadded]
  exact ⟨l', hl', hp⟩

end State

/-! ## Owners -/

namespace State

variable {s : State} {es : List Event}

theorem dropped_closeUnheld (s : State) : s.closeUnheld.dropped = s.dropped := by
  rcases s.closeUnheld_cases with ⟨heq, -⟩ | ⟨k, t, l', -, -, -, -, heq⟩ <;> rw [heq]
  rfl

theorem dropped_advance (s : State) (rest : List Task) (p : Progress) :
    (s.advance rest p).dropped = s.dropped := by
  cases p with
  | waits t => rfl
  | accepted k => exact dropped_closeUnheld _
  | done => exact dropped_closeUnheld _
  | failed e => exact dropped_closeUnheld _
  | _ => rfl

/-- Only its owner lets the listener go. -/
theorem dropped_step (h : Orderly s) (e : Event) (he : e ≠ .start .drop) :
    (s.step e).dropped = s.dropped := by
  cases e with
  | start op =>
    simp only [step, start]
    split
    · unfold letGo
      split
      · exact dropped_advance ..
      · rfl
    · unfold letGo
      split
      · exact dropped_advance ..
      · rfl
    split
    · split
      · rfl
      cases op with
      | drop => exact absurd rfl he
      | accept => exact dropped_advance ..
      | close => exact dropped_advance ..
      | bind => exact dropped_advance ..
      | _ => rfl
    · rfl
  | reply r =>
    have hturn := h.turn_step (.reply r)
    generalize s.step (.reply r) = s' at hturn
    cases hturn with
    | nothing r => rfl
    | _ => exact dropped_advance ..

theorem dropped_run (h : Orderly s) (hd : .start .drop ∉ es) : (s.run es).dropped = s.dropped := by
  induction es generalizing s with
  | nil => rfl
  | cons e es ih =>
    rw [List.mem_cons, not_or] at hd
    apply (ih (h.turn (h.turn_step e)) hd.2).trans
    exact dropped_step h e (Ne.symm hd.1)

end State

/-! ## Runs -/

section Runs

variable {s : State} {l : Listener} {es : List Event}

/-- What is due is closed once, or it is due still. -/
theorem Orderly.pays_run (h : Orderly s) (hl : s.listener = some l) (es : List Event) :
    ∃ l', (s.run es).listener = some l' ∧
      (l.due s.tasks).Perm (s.lockCloses es ++ l'.due (s.run es).tasks) := by
  induction es generalizing s l with
  | nil => exact ⟨l, hl, .refl _⟩
  | cons e es ih =>
    obtain ⟨m, hm, hstep⟩ := State.pays_step h hl e
    obtain ⟨l', hl', hrun⟩ := ih (h.turn (h.turn_step e)) hm
    refine ⟨l', hl', ?_⟩
    rw [State.lockCloses, List.append_assoc]
    exact hstep.trans (hrun.append_left _)

theorem Task.isClose_of_comesToLock {t : Task} (h : t.comesToLock = true) : t.isClose = true := by
  cases t <;> simp_all [comesToLock, isClose]

/-- What is due of an open listener is its lock. -/
theorem Orderly.due_of_open (h : Orderly s) (hl : s.listener = some l) (hc : l.closed = false) :
    l.due s.tasks = [l.lock] := by
  have hnone : s.tasks.filter Task.comesToLock = [] := by
    rw [List.filter_eq_nil_iff]
    intro t ht hcomes
    -- the task would belong to a close
    have hclosed := h.closing l hl t ht (Task.isClose_of_comesToLock hcomes)
    simp [hc] at hclosed
  simp [Listener.due, hc, hnone]

/-- Nothing is due of a closed listener once no close of it is under way any more. -/
theorem Listener.due_of_over {tasks : List Task} (hc : l.closed = true)
    (h : ∀ t ∈ tasks, t.isClose = false) : l.due tasks = [] := by
  have hnone : tasks.filter Task.comesToLock = [] := by
    rw [List.filter_eq_nil_iff]
    intro t ht hcomes
    exact absurd (Task.isClose_of_comesToLock hcomes) (by simp [h t ht])
  simp [Listener.due, hc, hnone]

/-- A close that begins closes the listener, and it is never opened again. -/
theorem Orderly.isClosed_of_close_mem (h : Orderly s) (hl : s.listener = some l)
    (hdrop : s.dropped = false) (hc : .start .close ∈ es) (hd : .start .drop ∉ es) :
    (s.run es).IsClosed := by
  induction es generalizing s l with
  | nil => simp at hc
  | cons e es ih =>
    rw [List.mem_cons, not_or] at hd
    have hstep := h.turn (h.turn_step e)
    rcases List.mem_cons.mp hc with rfl | hc
    · exact hstep.isClosed_run (State.isClosed_start_close hl hdrop) es
    · obtain ⟨l', hl', -⟩ := State.pays_step h hl e
      have hdropped := State.dropped_step h e (Ne.symm hd.1)
      exact ih hstep hl' (hdropped.trans hdrop) hc hd.2

end Runs

end LocalIpc.Pipe

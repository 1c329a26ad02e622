import LocalIpc.Proofs.Pipe.Reconciling
/-!
# The calls of a close

A close of the listener gives back every instance that is tracked, and the lock at last, whatever
the calls before have come to. It tells of the first handle that could not be closed.
-/

namespace LocalIpc.Pipe

/-! ## The calls of a close -/

/-- The calls that a close of the listener makes, in order. -/
def Listener.clearing (l : Listener) : List Call :=
  l.registry.waiting.flatMap (fun h => [.cancel h, .close h]) ++
    (l.registry.handedOut.flatMap (fun h => [.disconnect h, .close h]) ++ [.close l.lock])

/-- Calls, each with the reply to it. -/
def answered (calls : List Call) (rs : List (Except IoError Unit)) : List Entry :=
  (calls.zip rs).flatMap fun x => [.called x.1, .replied (.done x.2)]

/-- The failure of a call counts when the call closes a handle. -/
def Call.counts (r : Except IoError Unit) : Call → Option IoError
  | close _ => failure? r
  | _ => none

/-- The first failure that counts. -/
def firstFailure (calls : List Call) (rs : List (Except IoError Unit)) : Option IoError :=
  (calls.zip rs).findSome? fun x => x.1.counts x.2

section Calls

variable {calls : List Call} {rs : List (Except IoError Unit)} {r r' : Except IoError Unit}

@[simp] theorem answered_cons (c : Call) :
    answered (c :: calls) (r :: rs) = .called c :: .replied (.done r) :: answered calls rs := rfl

@[simp] theorem answered_nil : answered [] rs = [] := rfl

@[simp] theorem firstFailure_nil : firstFailure [] rs = none := rfl

theorem firstFailure_cons (c : Call) :
    firstFailure (c :: calls) (r :: rs) = (c.counts r <|> firstFailure calls rs) := by
  unfold firstFailure
  rw [List.zip_cons_cons, List.findSome?_cons]
  cases c.counts r <;> rfl

theorem Call.counts_eq_some_iff {c : Call} {e : IoError} :
    c.counts r = some e ↔ ∃ h, c = .close h ∧ r = .error e := by
  cases c with
  | close h => cases r <;> simp [counts, failure?]
  | _ => simp [counts]

theorem Call.counts_eq_none_iff {c : Call} :
    c.counts r = none ↔ ∀ h, c = .close h → r = .ok () := by
  cases c with
  | close h => cases r <;> simp [counts, failure?]
  | _ => simp [counts]

/-- Nothing fails that counts when every handle can be closed. -/
theorem firstFailure_eq_none_iff :
    firstFailure calls rs = none ↔ ∀ h r, (.close h, r) ∈ calls.zip rs → r = .ok () := by
  unfold firstFailure
  rw [List.findSome?_eq_none_iff]
  constructor
  · intro hall h r hmem
    exact Call.counts_eq_none_iff.mp (hall _ hmem) h rfl
  · rintro hall ⟨c, r⟩ hmem
    exact Call.counts_eq_none_iff.mpr fun h hc => hall h r (hc ▸ hmem)

/-- What counts is the failure of the first handle that cannot be closed. -/
theorem firstFailure_eq_some_iff {e : IoError} : firstFailure calls rs = some e ↔
    ∃ before h after, calls.zip rs = before ++ (.close h, .error e) :: after ∧
      ∀ k r, (.close k, r) ∈ before → r = .ok () := by
  unfold firstFailure
  rw [List.findSome?_eq_some_iff]
  constructor
  · rintro ⟨before, ⟨c, r⟩, after, heq, hsome, hnone⟩
    obtain ⟨h, rfl, rfl⟩ := Call.counts_eq_some_iff.mp hsome
    refine ⟨before, h, after, heq, fun k r hmem => ?_⟩
    exact Call.counts_eq_none_iff.mp (hnone _ hmem) k rfl
  · rintro ⟨before, h, after, heq, hall⟩
    refine ⟨before, _, after, heq, rfl, ?_⟩
    rintro ⟨c, r⟩ hmem
    exact Call.counts_eq_none_iff.mpr fun k hc => hall k r (hc ▸ hmem)

end Calls

/-! ## A close that nothing comes between -/

/-- The close of an open listener goes through the instances that wait first. -/
theorem Listener.beginClose_open {l : Listener} (hopen : l.closed = false) (quiet : Bool) :
    l.beginClose quiet =
      { l with closed := true, registry := l.registry.clearWaiting.2 }.proceed
        (.clearWaiting l.registry.waiting none quiet) := by
  unfold beginClose
  rw [if_neg (by simp [hopen])]
  rfl

/-- The failure to close the lock counts as that of any other handle. -/
theorem Listener.afterLock_eq (lock : Handle) (e : Option IoError) (quiet : Bool)
    (r : Except IoError Unit) : Listener.afterLock e quiet r =
      Listener.afterLock (e <|> firstFailure [.close lock] [r]) quiet (.ok ()) := by
  cases r <;> cases e <;> rfl

/-- Calls return one after the other, with these results. -/
def Reply.dones (rs : List (Except IoError Unit)) : List Event := rs.map fun r => .reply (.done r)

namespace State

variable {l : Listener} {ts : List Task} {quiet : Bool}

theorem advanceWith_tasks (m : State) (old rest : List Task) (k : Option Listener)
    (x : Progress × Listener) :
    ({ m with tasks := old, listener := k } : State).advanceWith rest x =
      m.advanceWith rest x := by
  obtain ⟨p, l⟩ := x
  cases p <;> rfl

/-- A reply to the call that a release waits in. -/
theorem step_releasing (m : State) {call : ReleaseCall} {h : Handle} {next : After}
    (r : Except IoError Unit) :
    (m.advanceWith ts (.waits (.releasing call h next), l)).step (.reply (.done r)) =
      { m with history := m.history ++ [Entry.called
          ((Task.releasing call h next).call m.path m.config), .replied (.done r)]
      }.advanceWith ts (l.afterRelease call h next r) := by
  rw [← advanceWith_tasks _ (.releasing call h next :: ts) ts (some l)]
  change (State.note { m with
    listener := some l
    tasks := .releasing call h next :: ts
    history := m.history ++ [Entry.called ((Task.releasing call h next).call m.path m.config)] }
    (.replied (.done r))).advanceWith ts _ = _
  rw [note, List.append_assoc]
  rfl

/-- An instance is given back with two calls. What the first comes to is not looked at. -/
theorem run_release (m : State) {call : ReleaseCall} {next : After} (h : Handle)
    (hcall : call = .cancel ∨ call = .disconnect) (hnext : next.isClose = true)
    (r r' : Except IoError Unit) :
    (m.advanceWith ts (.waits (.releasing call h next), l)).run (Reply.dones [r, r']) =
      { m with history := m.history ++
        answered [(Task.releasing call h next).call m.path m.config, .close h] [r, r']
      }.advanceWith ts (l.proceed (next.keeping r')) := by
  have hfirst : l.afterRelease call h next r = (.waits (.releasing .close h next), l) := by
    rcases hcall with rfl | rfl <;> rfl
  have hsecond : l.afterRelease .close h next r' = l.proceed (next.keeping r') := by
    cases next <;> first | rfl | simp [After.isClose] at hnext
  change ((m.advanceWith ts _).step (.reply (.done r))).step (.reply (.done r')) = _
  rw [step_releasing, hfirst, step_releasing, hsecond, List.append_assoc]
  rfl

/-- From `next`, where a failure may have been kept, a close goes on with these calls, whatever
comes of them, and then it ends. -/
def Clears (l l' : Listener) (ts : List Task) (quiet : Bool) (next : Option IoError → After)
    (calls : List Call) : Prop :=
  ∀ (m : State) (e : Option IoError) (rs : List (Except IoError Unit)), rs.length = calls.length →
    (m.advanceWith ts (l.proceed (next e))).run (Reply.dones rs) =
      { m with history := m.history ++ answered calls rs }.advanceWith ts
        (Listener.afterLock (e <|> firstFailure calls rs) quiet (.ok ()), l')

variable {l' : Listener}

/-- The close ends with the lock. -/
theorem clears_lock : Clears l l ts quiet (.clearHandedOut [] · quiet) [.close l.lock] := by
  intro m e rs hrs
  obtain ⟨r, rfl⟩ := List.length_eq_one_iff.mp hrs
  rw [← Listener.afterLock_eq,
    ← advanceWith_tasks _ (.closingLock l.lock e quiet :: ts) ts (some l)]
  change (State.note { m with
    listener := some l
    tasks := .closingLock l.lock e quiet :: ts
    history := m.history ++ [Entry.called (.close l.lock)] }
    (.replied (.done r))).advance ts _ = _
  rw [note, List.append_assoc]
  rfl

/-- One instance more is given back before the others. -/
theorem Clears.cons {next next' : Option IoError → After} {calls : List Call}
    (hclears : Clears l l' ts quiet next calls) (call : ReleaseCall) (h : Handle)
    (hcall : call = .cancel ∨ call = .disconnect)
    (hnext : ∀ e, l.proceed (next' e) = (.waits (.releasing call h (next e)), l))
    (hclose : ∀ e, (next e).isClose = true)
    (hkeep : ∀ e r, (next e).keeping r = next (e <|> failure? r)) (path : String)
    (config : PipeConfig) : Clears l l' ts quiet next'
      ((Task.releasing call h (next none)).call path config :: .close h :: calls) := by
  intro m e rs hrs
  rcases rs with _ | ⟨r, _ | ⟨r', rs⟩⟩
  · simp at hrs
  · simp at hrs
  have hfirst : (Task.releasing call h (next none)).call path config =
      (Task.releasing call h (next e)).call m.path m.config := by
    rcases hcall with rfl | rfl <;> rfl
  have hcounts : ((Task.releasing call h (next e)).call m.path m.config).counts r = none := by
    rcases hcall with rfl | rfl <;> rfl
  have hsplit : Reply.dones (r :: r' :: rs) = Reply.dones [r, r'] ++ Reply.dones rs := rfl
  rw [hfirst, hnext, hsplit, run, List.foldl_append]
  change State.run (State.run _ _) _ = _
  have hrest : rs.length = calls.length := by simpa using hrs
  rw [run_release m h hcall (hclose e), hkeep, hclears _ (e <|> failure? r') rs hrest,
    firstFailure_cons, hcounts, firstFailure_cons]
  simp only [answered_cons, answered_nil, List.append_assoc, List.cons_append, List.nil_append]
  cases e <;> rfl

theorem clears_handedOut (hs : List Handle) : Clears l l ts quiet (.clearHandedOut hs · quiet)
    (hs.flatMap (fun h => [.disconnect h, .close h]) ++ [.close l.lock]) := by
  induction hs with
  | nil => exact clears_lock
  | cons h hs ih =>
    exact ih.cons .disconnect h (.inr rfl) (fun _ => rfl) (fun _ => rfl)
      (fun _ _ => rfl) l.path l.config

/-- What was handed out is taken out of the registry when no instance waits any more. -/
theorem clears_waiting (hs : List Handle) :
    Clears l { l with registry := l.registry.clearHandedOut.2 } ts quiet (.clearWaiting hs · quiet)
      (hs.flatMap (fun h => [.cancel h, .close h]) ++
        (l.registry.handedOut.flatMap (fun h => [.disconnect h, .close h]) ++
          [.close l.lock])) := by
  induction hs with
  | nil =>
    intro m e rs hrs
    have hproceed : l.proceed (.clearWaiting [] e quiet) =
        { l with registry := l.registry.clearHandedOut.2 }.proceed
          (.clearHandedOut l.registry.handedOut e quiet) := by
      unfold Listener.proceed
      cases hr : l.registry.handedOut <;> simp [Registry.clearHandedOut, hr]
    rw [hproceed]
    exact clears_handedOut (l := { l with registry := l.registry.clearHandedOut.2 })
      l.registry.handedOut m e rs hrs
  | cons h hs ih =>
    exact ih.cons .cancel h (.inl rfl) (fun _ => rfl) (fun _ => rfl)
      (fun _ _ => rfl) l.path l.config

/-- What a close tells, by the first failure that counts. -/
def closeOutcome (failure : Option IoError) : Outcome :=
  failure.elim .done fun e => .failed (.native .close e)

/-- The whole close of an open listener, when nothing comes between its calls. -/
theorem run_close {s : State} (hl : s.listener = some l) (hopen : l.closed = false)
    (hkept : s.dropped = false) (rs : List (Except IoError Unit))
    (hrs : rs.length = l.clearing.length) :
    s.run (.start .close :: Reply.dones rs) =
      { s with
        listener := some { l with closed := true, registry := .empty }
        history := s.history ++ .began .close :: (answered l.clearing rs ++
          [.finished (closeOutcome (firstFailure l.clearing rs))]) } := by
  have hbegin : s.step (.start .close) = (s.note (.began .close)).advanceWith s.tasks
      ({ l with closed := true, registry := l.registry.clearWaiting.2 }.proceed
        (.clearWaiting l.registry.waiting none false)) := by
    rw [← Listener.beginClose_open hopen]
    simp only [step, start, note, hl, hkept, startOn]
    rfl
  have hclears : Clears { l with closed := true, registry := l.registry.clearWaiting.2 } _ s.tasks
      false (.clearWaiting l.registry.waiting · false) l.clearing := clears_waiting _
  change (s.step (.start .close)).run _ = _
  rw [hbegin]
  refine (hclears (s.note (.began .close)) none rs hrs).trans ?_
  have hnone : ((none : Option IoError) <|> firstFailure l.clearing rs) =
    firstFailure l.clearing rs := by cases firstFailure l.clearing rs <;> rfl
  have hend : ∀ o, (State.finish { s.note (.began .close) with
      listener := some { l with closed := true, registry := .empty }
      history := s.history ++ [.began .close] ++ answered l.clearing rs } o) =
      { s with
        listener := some { l with closed := true, registry := .empty }
        history := s.history ++ .began .close :: (answered l.clearing rs ++ [.finished o]) } := by
    intro o
    rw [finish, closeUnheld_closed rfl rfl]
    simp [note]
  change State.advanceWith _ _
    (Listener.afterLock (none <|> firstFailure l.clearing rs) false _, _) = _
  rw [hnone]
  cases hf : firstFailure l.clearing rs with
  | none => exact hend .done
  | some e => exact hend (.failed (.native .close e))

end State

/-! ## What a close tells -/

/-- What a close of `l` tells, from the replies to its calls: only what comes of closing a handle
counts, and of that the first failure. -/
structure Listener.Tells (l : Listener) (rs : List (Except IoError Unit)) (o : Outcome) : Prop where
  done : o = .done ↔ ∀ h r, (.close h, r) ∈ l.clearing.zip rs → r = .ok ()
  failed : ∀ e, o = .failed (.native .close e) ↔
    ∃ before h after, l.clearing.zip rs = before ++ (.close h, .error e) :: after ∧
      ∀ k r, (.close k, r) ∈ before → r = .ok ()

theorem Listener.tells_closeOutcome (l : Listener) (rs : List (Except IoError Unit)) :
    l.Tells rs (State.closeOutcome (firstFailure l.clearing rs)) := by
  constructor
  · rw [← firstFailure_eq_none_iff]
    cases firstFailure l.clearing rs <;> simp [State.closeOutcome]
  · intro e
    rw [← firstFailure_eq_some_iff]
    cases firstFailure l.clearing rs <;> simp [State.closeOutcome]

end LocalIpc.Pipe

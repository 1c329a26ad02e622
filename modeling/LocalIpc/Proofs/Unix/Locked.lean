import LocalIpc.Proofs.Unix.Ending
/-!
# While a lock is held

Anything may happen while an operation that holds the lock of its listener waits in a native call,
but no other operation of the listener begins. So the listener stays as it is, and no call is made
for it.
-/

namespace LocalIpc.Unix

/-- The events happen inside the call that the innermost task waits in, and all that they began is
over when it returns. -/
structure State.Within (s : State) (es : List Event) : Prop where
  inside : s.RunsInside s.tasks.length es
  back : (s.run es).tasks.length = s.tasks.length

/-- The events happen inside the call that the innermost task waits in, all that they began is over
when it returns, and listener `l` keeps its owner. -/
structure State.During (s : State) (l : Nat) (es : List Event) : Prop where
  inside : s.RunsInside s.tasks.length es
  back : (s.run es).tasks.length = s.tasks.length
  kept : .start (.drop l) ∉ es

/-! ## Passing a listener by -/

/-- Tasks of others come on top of those of `s`, and listener `l` is as it was. -/
structure State.Passes (l : Nat) (s s' : State) : Prop where
  tasks : ∃ new, s'.tasks = new ++ s.tasks ∧ new.filterMap (Frame.task? l) = []
  listener : s'.listeners[l]? = s.listeners[l]?

section Passed

variable {s s' m : State} {l k : Nat} {x : Listener} {t : Task}

theorem State.Passes.same (ht : s'.tasks = s.tasks) (hl : s'.listeners[l]? = s.listeners[l]?) :
    State.Passes l s s' :=
  ⟨⟨[], ht, rfl⟩, hl⟩

theorem State.Passes.trans (h : State.Passes l s m) (h' : State.Passes l m s') :
    State.Passes l s s' := by
  obtain ⟨new, ht, hnew⟩ := h.tasks
  obtain ⟨new', ht', hnew'⟩ := h'.tasks
  refine ⟨⟨new' ++ new, by rw [ht', ht, List.append_assoc], ?_⟩, h'.listener.trans h.listener⟩
  rw [List.filterMap_append, hnew, hnew']
  rfl

theorem State.Busy.of_passes (h : s.Busy l) (hp : State.Passes l s s') : s'.Busy l := by
  obtain ⟨t, ht⟩ := h
  obtain ⟨new, htasks, -⟩ := hp.tasks
  exact ⟨t, htasks ▸ List.mem_append_right new ht⟩

theorem Progress.task?_frames_ne (h : k ≠ l) (p : Progress) :
    (p.frames k).filterMap (Frame.task? l) = [] := by
  cases p <;> simp [frames, Frame.task?, h]

/-- A listener that an operation is under way of is passed by, where it is not let react. -/
theorem State.Parts.passes {p : State → Nat → Trigger → Prop} (h : Parts p s s')
    (hx : s.listeners[l]? = some x) (hbusy : s.Busy l)
    (hp : ∀ m g, p m l g → m.isUnheld l = true) : State.Passes l s s' := by
  induction h with
  | same ht hl => exact .same ht (by rw [hl])
  | made y ht hl =>
    apply State.Passes.same ht
    rw [hl]
    exact List.getElem?_append_left (List.getElem?_eq_some_iff.mp hx).1
  | called f c h hf ih =>
    apply ih.trans
    refine ⟨⟨[f], rfl, ?_⟩, rfl⟩
    cases f with
    | working k t => exact absurd rfl (hf k t)
    | _ => rfl
  | @reacted m k y g host h hy hallowed ih =>
    apply ih.trans
    by_cases hkl : k = l
    · -- nobody lets a listener go that an operation is under way of
      subst hkl
      have hheld := (hbusy.of_passes ih).not_isUnheld
      rw [hp m g hallowed] at hheld
      contradiction
    · refine ⟨⟨_, tasks_take, Progress.task?_frames_ne hkl _⟩, ?_⟩
      exact get_take_ne (Ne.symm hkl)

end Passed

/-! ## Above a held lock -/

/-- No operation of listener `l` is under way above those that wait, and the listener is `x`. -/
structure State.Rests (s : State) (l : Nat) (waiting : List Frame) (x : Listener) : Prop where
  above : ∃ above, s.tasks = above ++ waiting ∧ above.filterMap (Frame.task? l) = []
  listener : s.listeners[l]? = some x

section Rested

variable {s : State} {l : Nat} {x : Listener} {t : Task} {waiting rest : List Frame} {e : Event}
  {es : List Event}

/-- The operation that goes on is none of listener `l`. -/
theorem State.Rests.under (h : s.Rests l waiting x) (hin : s.Inside waiting.length e) :
    ∃ above, s.under e = above ++ waiting ∧ above.filterMap (Frame.task? l) = [] := by
  obtain ⟨above, ht, habove⟩ := h.above
  cases e with
  | start | world => exact ⟨above, ht, habove⟩
  | reply r =>
    rcases above with _ | ⟨f, above⟩
    · have hdeep : waiting.length < s.tasks.length := hin
      simp [ht] at hdeep
    rw [State.under, ht]
    simp only [List.cons_append]
    split
    · refine ⟨above, rfl, ?_⟩
      rw [← List.singleton_append, List.filterMap_append, List.append_eq_nil_iff] at habove
      exact habove.2
    · exact ⟨f :: above, rfl, habove⟩

/-- Above a lock that is held, no step lets the listener react. -/
theorem State.Rests.not_lets (h : s.Rests l waiting x) (hw : .working l t ∈ waiting)
    (hlock : t.holdsLock = true) (hin : s.Inside waiting.length e) {m : State} {g : Trigger}
    (hlets : s.Lets e m l g) : m.isUnheld l = true := by
  obtain ⟨above, ht, habove⟩ := h.above
  cases hlets with
  | letGo _ _ _ hu => exact hu
  | asked op _ _ _ hop hfree =>
    have hmem : .working l t ∈ s.tasks := ht ▸ List.mem_append_right above hw
    have hheld := State.isLocked_iff.mpr (State.mem_locks.mpr ⟨t, hmem, hlock⟩)
    rw [hfree] at hheld
    contradiction
  | answered _ _ u rest r htasks htakes =>
    rcases above with _ | ⟨f, above⟩
    · have hdeep : waiting.length < s.tasks.length := hin
      simp [ht] at hdeep
    · obtain ⟨rfl, -⟩ := List.cons.inj (ht.symm.trans htasks)
      simp [Frame.task?] at habove

theorem State.Rests.step (h : s.Rests l waiting x) (hw : .working l t ∈ waiting)
    (hlock : t.holdsLock = true) (hin : s.Inside waiting.length e) :
    (s.step e).Rests l waiting x ∧ (s.added e).filterMap (Frame.task? l) = [] := by
  obtain ⟨above, hunder, habove⟩ := h.under hin
  obtain ⟨m, htm, hlm, hparts⟩ := s.parts_step e
  have hbusy : m.Busy l := ⟨t, htm ▸ hunder ▸ List.mem_append_right above hw⟩
  have hpasses : State.Passes l m (s.step e) :=
    hparts.passes (by rw [hlm]; exact h.listener) hbusy fun m g hlets =>
      h.not_lets hw hlock hin hlets
  obtain ⟨new, hnew, hothers⟩ := hpasses.tasks
  rw [htm] at hnew
  have hadded : s.added e = new := by simp [added, hnew]
  rw [hadded]
  -- what is new is above the lock as well, and is none of the listener's
  refine ⟨⟨⟨new ++ above, ?_, ?_⟩, ?_⟩, hothers⟩
  · rw [hnew, hunder, List.append_assoc]
  · rw [List.filterMap_append, hothers, habove]
    rfl
  · rw [hpasses.listener, hlm]
    exact h.listener

theorem State.Rests.run (h : s.Rests l waiting x) (hw : .working l t ∈ waiting)
    (hlock : t.holdsLock = true) (hin : s.RunsInside waiting.length es) :
    (s.run es).Rests l waiting x ∧ s.tasksOf l es = [] := by
  induction es generalizing s with
  | nil => exact ⟨h, rfl⟩
  | cons e es ih =>
    obtain ⟨hstep, hadded⟩ := h.step hw hlock hin.1
    obtain ⟨hrun, htasks⟩ := ih hstep hin.2
    refine ⟨hrun, ?_⟩
    rw [tasksOf_cons, hadded, htasks]
    rfl

/-- When the call of an operation that holds the lock of its listener returns, the operation goes on
with the listener as it was, and nothing was called for the listener meanwhile. -/
theorem State.Within.rests (h : s.Within es) (ht : s.tasks = .working l t :: rest)
    (hlock : t.holdsLock = true) (hx : s.listeners[l]? = some x) :
    (s.run es).tasks = s.tasks ∧ (s.run es).listeners[l]? = some x ∧ s.tasksOf l es = [] := by
  have hstart : s.Rests l s.tasks x := ⟨⟨[], rfl, rfl⟩, hx⟩
  obtain ⟨hrests, hnone⟩ := hstart.run (ht ▸ List.mem_cons_self ..) hlock h.inside
  obtain ⟨above, htasks, -⟩ := hrests.above
  have hempty : above = [] := by
    have hback := h.back
    rw [htasks, List.length_append] at hback
    exact List.length_eq_zero_iff.mp (by omega)
  subst hempty
  exact ⟨htasks, hrests.listener, hnone⟩

/-- The owner of the listener, too, is the same. -/
theorem State.During.rests (h : s.During l es) (ht : s.tasks = .working l t :: rest)
    (hlock : t.holdsLock = true) (hx : s.listener? l = some x) :
    (s.run es).tasks = s.tasks ∧ (s.run es).listener? l = some x ∧ s.tasksOf l es = [] := by
  obtain ⟨hdropped, hget⟩ := State.listener?_eq_some hx
  have hwithin : s.Within es := ⟨h.inside, h.back⟩
  obtain ⟨htasks, hget', hnone⟩ := hwithin.rests ht hlock hget
  exact ⟨htasks, State.listener?_of_get (s.dropped_run hdropped h.kept) hget', hnone⟩

end Rested

end LocalIpc.Unix

import LocalIpc.Proofs.Unix.Accounting
import LocalIpc.Proofs.Unix.Turn
/-!
# Accepts and the close

An accept waits for its client without the lock, so anything may happen inside its native call, more
accepts included. Only a close changes the listener meanwhile, and when the call returns, the accept
sees whether there was one.
-/

namespace LocalIpc.Unix

/-! ## Inside a native call -/

/-- The event leaves the outermost `depth` tasks to wait. -/
def State.Inside (s : State) (depth : Nat) : Event → Prop
  | .reply _ => depth < s.tasks.length
  | _ => True

def State.RunsInside (s : State) (depth : Nat) : List Event → Prop
  | [] => True
  | e :: es => s.Inside depth e ∧ (s.step e).RunsInside depth es

/-- The events happen inside the call that the innermost task waits in, and all that they began is
over when it returns. -/
structure State.Nests (s : State) (es : List Event) : Prop where
  inside : s.RunsInside s.tasks.length es
  back : (s.run es).tasks.length = s.tasks.length
  valid : OpensValid es

/-- The event is a close of listener `l`, which has an owner, and whose lock is free. -/
def State.Closes (s : State) (l : Nat) (e : Event) : Prop :=
  e = .start (.close l) ∧ l ∉ s.dropped ∧ s.isLocked l = false

/-- A close of listener `l` runs among the events. -/
def State.ClosesIn (s : State) (l : Nat) : List Event → Prop
  | [] => False
  | e :: es => s.Closes l e ∨ (s.step e).ClosesIn l es

/-! ## What leaves a listener alone -/

/-- Tasks come on top of those of `s`, and listener `l` is as it was. -/
structure State.Above (s s' : State) (l : Nat) : Prop where
  tasks : s.tasks <:+ s'.tasks
  listener : s'.listeners[l]? = s.listeners[l]?

/-- An operation of listener `l` is under way. -/
def State.Busy (s : State) (l : Nat) : Prop := ∃ t, .working l t ∈ s.tasks

section Alone

variable {s s' m : State} {k l : Nat} {x y : Listener} {t : Task}

theorem State.Above.trans (h : s.Above m l) (h' : m.Above s' l) : s.Above s' l :=
  ⟨h.tasks.trans h'.tasks, h'.listener.trans h.listener⟩

/-- The tasks and the listeners are the same. -/
theorem State.Above.same (ht : s'.tasks = s.tasks) (hl : s'.listeners = s.listeners) :
    s.Above s' l :=
  ⟨ht ▸ List.suffix_refl _, by rw [hl]⟩

/-- What a reaction comes to leaves the other listeners alone, and its own one if that stays as it
was. -/
theorem State.above_take {p : Progress × Listener × Host}
    (h : k = l → s.listeners[l]? = some p.2.1) : s.Above (s.take k p) l := by
  constructor
  · rcases p with ⟨_ | _ | _ | _ | _, y, host⟩
    · exact List.suffix_cons _ s.tasks
    all_goals exact List.suffix_refl _
  · by_cases hkl : k = l
    · subst hkl
      exact (get_take (h rfl)).trans (h rfl).symm
    · exact get_take_ne (Ne.symm hkl)

theorem State.Busy.not_isUnheld (h : s.Busy l) : s.isUnheld l = false := by
  obtain ⟨t, ht⟩ := h
  simp only [isUnheld, Bool.and_eq_false_iff, Bool.not_eq_false']
  exact .inr (List.any_eq_true.mpr ⟨_, ht, beq_self_eq_true l⟩)

theorem State.closeUnheld_of_held (h : s.isUnheld l = false) : s.closeUnheld l = s := by
  unfold closeUnheld
  split
  · rw [h]
    rfl
  · rfl

/-- A listener that is closed has nothing more to do when it is let go. -/
theorem State.closeUnheld_closed (hx : s.listeners[l]? = some x) (hp : x.phase = .closed) :
    s.closeUnheld l = s := by
  have hbegin : x.beginClose s.host true = (.over, x, s.host) := by simp [Listener.beginClose, hp]
  unfold closeUnheld
  split
  · rename_i y hy
    obtain rfl := Option.some.inj (hx.symm.trans hy)
    split
    · rw [hbegin]
      simp only [setListener_self hx]
    · rfl
  · rfl

/-- A listener that is busy is not let go, and a close of another one leaves it alone. -/
theorem State.above_closeUnheld (h : s.Busy l) (k : Nat) : s.Above (s.closeUnheld k) l := by
  by_cases hkl : k = l
  · subst hkl
    rw [closeUnheld_of_held h.not_isUnheld]
    exact .same rfl rfl
  · rcases s.closeUnheld_cases k with heq | ⟨x, -, heq⟩ <;> rw [heq]
    · exact .same rfl rfl
    · exact above_take fun heq => absurd heq hkl

theorem State.Above.busy (h : s.Above m l) (hb : s.Busy l) : m.Busy l := by
  obtain ⟨t, ht⟩ := hb
  exact ⟨t, h.tasks.subset ht⟩

theorem State.above_advanceWith (hb : s.Busy l) {p : Progress × Listener × Host}
    (h : k = l → s.listeners[l]? = some p.2.1) : s.Above (s.advanceWith k p) l := by
  have htake : s.Above (s.take k p) l := above_take h
  rcases s.advanceWith_cases k p with heq | heq <;> rw [heq]
  · exact htake
  · exact htake.trans (above_closeUnheld (htake.busy hb) k)

/-- An operation that begins leaves a busy listener alone, unless it closes it. -/
theorem State.above_start (h : s.Busy l) (op : Operation) (hop : ¬ s.Closes l (.start op)) :
    s.Above (s.step (.start op)) l := by
  have heffect := s.effect_step (.start op)
  generalize s.step (.start op) = s' at heffect ⊢
  cases heffect with
  | creates config => exact ⟨List.suffix_cons _ s.tasks, rfl⟩
  | asks op k y g hask hy hfree =>
    obtain ⟨hd, hget⟩ := listener?_eq_some hy
    have hnoted : s.Above (s.note (.began op)) l := .same rfl rfl
    refine hnoted.trans (above_advanceWith (hnoted.busy h) fun hkl => ?_)
    subst hkl
    cases op with
    | bind | bindSlowly | accept =>
      obtain ⟨-, rfl⟩ := Prod.mk.inj (Option.some.inj hask)
      exact hget
    | close j =>
      obtain ⟨rfl, -⟩ := Prod.mk.inj (Option.some.inj hask)
      exact absurd ⟨rfl, hd, hfree⟩ hop
    | _ => simp [Operation.asks?] at hask
  | drops k x hx =>
    have hended : s.Above
        ({ s.note (.began (.drop k)) with dropped := k :: s.dropped }.finish .done) l :=
      .same rfl rfl
    exact hended.trans (above_closeUnheld (hended.busy h) k)
  | releases op i quiet c => exact ⟨List.suffix_cons _ s.tasks, rfl⟩
  | _ => exact .same rfl rfl

/-- A task that goes on changes no listener but one that it binds. -/
theorem State.above_reply {r : Reply} {f : Frame} {rest : List Frame} (ht : s.tasks = f :: rest)
    (htakes : Frame.takes f r = true) (hplaced : s.Placed f) (hx : s.listeners[l]? = some x)
    (hp : x.phase ≠ .unbound) (h : ({ s with tasks := rest } : State).Busy l) :
    ({ s with tasks := rest } : State).Above (s.step (.reply r)) l := by
  have heffect := s.effect_step (.reply r)
  generalize s.step (.reply r) = s' at heffect ⊢
  cases heffect with
  | ignored r hno => simp [hno f rest ht] at htakes
  | notMade config e rest' ht' | lost k t r rest' ht' | released fd quiet r rest' o ht' =>
    obtain ⟨rfl, rfl⟩ := List.cons.inj (ht.symm.trans ht')
    exact .same rfl rfl
  | made config fd rest' ht' =>
    obtain ⟨rfl, rfl⟩ := List.cons.inj (ht.symm.trans ht')
    exact ⟨List.suffix_refl _, List.getElem?_append_left (List.getElem?_eq_some_iff.mp hx).1⟩
  | answered k y t r rest' ht' htakes' hy =>
    obtain ⟨rfl, rfl⟩ := List.cons.inj (ht.symm.trans ht')
    obtain ⟨z, hz, hsuits⟩ := hplaced
    obtain rfl := Option.some.inj (hy.symm.trans hz)
    have hnoted : State.Above { s with tasks := rest }
        ({ s with tasks := rest }.note (.replied r)) l := .same rfl rfl
    refine hnoted.trans (above_advanceWith (hnoted.busy h) fun hkl => ?_)
    subst hkl
    obtain rfl := Option.some.inj (hx.symm.trans hy)
    have hbecomes := x.react_becomes s.host (.reply t r)
    generalize (x.react s.host (.reply t r)).2.1 = z at hbecomes ⊢
    -- a listener that is about to be bound is not bound or closed already
    cases hbecomes with
    | same => exact hx
    | givenUp | bound => exact absurd hsuits hp

/-! ## What happens inside the call of an accept -/

theorem Listener.retired_of_closed (h : x.Proper) (hp : x.phase = .closed) : x.retired = x := by
  have hslot := h.closed.mp hp
  obtain ⟨config, ⟨fd⟩, phase, path, created⟩ := x
  simp only [DescriptorSlot.get, ite_eq_left_iff, reduceCtorEq, imp_false,
    Decidable.not_not] at hslot
  simp only at hp
  subst hslot hp
  rfl

/-- A close that runs retires the listener, whether it was closed before or not. -/
theorem State.perform_close (ho : Orderly s) (hx : s.listeners[l]? = some x)
    (hp : x.phase ≠ .unbound) (h : s.Busy l) (hc : s.Closes l (.start (.close l))) :
    s.tasks <:+ (s.perform (.close l)).tasks ∧
      (s.perform (.close l)).listeners[l]? = some x.retired := by
  obtain ⟨-, hd, hlock⟩ := hc
  have hbegin : s.perform (.close l) =
      (s.note (.began (.close l))).advanceWith l (x.beginClose s.host false) := by
    simp [perform, lockOf, hlock, begin, withListener, listener?, note, hd, hx]
  rw [hbegin]
  rcases Listener.beginClose_cases (ho.proper l x hx) s.host false with
    ⟨hclosed, heq⟩ | ⟨fd, hb, hfd, heq⟩ | ⟨fd, hu, hfd, heq⟩
  · -- the call of `l` that is under way keeps the end of a failed close from letting `l` go
    have habove := above_advanceWith (k := l) (s := s.note (.began (.close l))) h
      (p := x.beginClose s.host false) fun _ => by rw [heq]; exact hx
    rw [Listener.retired_of_closed (ho.proper l x hx) hclosed]
    exact ⟨habove.tasks, habove.listener.trans hx⟩
  · rw [heq]
    exact ⟨List.suffix_cons _ s.tasks, State.get_setListener hx _⟩
  · exact absurd hu hp

variable {e : Event} {es : List Event} {waiting : List Frame}

/-- What happens inside a call of listener `l` leaves the tasks under it to wait, and the listener
as it is, unless it is a close. -/
theorem State.step_inside (ho : Orderly s) (hx : s.listeners[l]? = some x) (hp : x.phase ≠ .unbound)
    (hw : waiting <:+ s.tasks) (ht : .working l t ∈ waiting) (hin : s.Inside waiting.length e) :
    waiting <:+ (s.step e).tasks ∧
      (s.Closes l e → (s.step e).listeners[l]? = some x.retired) ∧
      (¬ s.Closes l e → (s.step e).listeners[l]? = some x) := by
  have hbusy : s.Busy l := ⟨t, hw.subset ht⟩
  by_cases hc : s.Closes l e
  · obtain ⟨rfl, -⟩ := id hc
    obtain ⟨htasks, hl⟩ := perform_close ho hx hp hbusy hc
    exact ⟨hw.trans htasks, fun _ => hl, fun h => absurd hc h⟩
  have hleft : ∀ {m : State}, waiting <:+ m.tasks → m.listeners[l]? = some x →
      m.Above (s.step e) l → waiting <:+ (s.step e).tasks ∧
        (s.Closes l e → (s.step e).listeners[l]? = some x.retired) ∧
        (¬ s.Closes l e → (s.step e).listeners[l]? = some x) := fun hw hx habove =>
    ⟨hw.trans habove.tasks, fun h => absurd h hc, fun _ => habove.listener.trans hx⟩
  cases e with
  | world host => exact hleft hw hx (.same rfl rfl)
  | start op => exact hleft hw hx (above_start hbusy op hc)
  | reply r =>
    -- the task that ends is none of those that wait
    obtain ⟨f, rest, hs⟩ : ∃ f rest, s.tasks = f :: rest :=
      List.exists_cons_of_length_pos (Nat.lt_of_le_of_lt (Nat.zero_le _) hin)
    have hrest : waiting <:+ rest := by
      rw [hs] at hw
      refine (List.suffix_cons_iff.mp hw).resolve_left fun heq => ?_
      have : waiting.length < s.tasks.length := hin
      simp [heq, hs] at this
    by_cases htakes : Frame.takes f r = true
    · exact hleft (m := { s with tasks := rest }) hrest hx
        (above_reply hs htakes (ho.placed f (by simp [hs])) hx hp ⟨t, hrest.subset ht⟩)
    · have hsame : s.step (.reply r) = s := by simp [step, reply, hs, htakes]
      exact hleft hw hx (by rw [hsame]; exact .same rfl rfl)

theorem State.run_inside (ho : Orderly s) (hx : s.listeners[l]? = some x) (hp : x.phase ≠ .unbound)
    (hw : waiting <:+ s.tasks) (ht : .working l t ∈ waiting)
    (hin : s.RunsInside waiting.length es) (hv : OpensValid es) :
    waiting <:+ (s.run es).tasks ∧
      (s.ClosesIn l es → (s.run es).listeners[l]? = some x.retired) ∧
      (¬ s.ClosesIn l es → (s.run es).listeners[l]? = some x) := by
  induction es generalizing s x with
  | nil => exact ⟨hw, False.elim, fun _ => hx⟩
  | cons e es ih =>
    obtain ⟨hve, hves⟩ := hv.of_cons
    obtain ⟨hine, hines⟩ := hin
    obtain ⟨hw', hclosed, hleft⟩ := step_inside ho hx hp hw ht hine
    have ho' : Orderly (s.step e) := ho.moves (moves_step ho hve)
    by_cases hc : s.Closes l e
    · -- a second close finds the listener retired
      obtain ⟨hend, hagain, hretired⟩ :=
        ih ho' (hclosed hc) (by simp [Listener.retired]) hw' hines hves
      refine ⟨hend, fun _ => ?_, fun h => absurd (.inl hc) h⟩
      by_cases hc' : (s.step e).ClosesIn l es
      · exact hagain hc'
      · exact hretired hc'
    · obtain ⟨hend, hretired, hsame⟩ := ih ho' (hleft hc) hp hw' hines hves
      exact ⟨hend, fun h => hretired (h.resolve_left hc), fun h => hsame fun h' => h (.inr h')⟩

/-- When a call of listener `l` returns, its task goes on, and only a close has changed the
listener. -/
theorem State.Nests.run (h : s.Nests es) (ho : Orderly s) (hx : s.listeners[l]? = some x)
    (hp : x.phase ≠ .unbound) (ht : .working l t ∈ s.tasks) :
    (s.run es).tasks = s.tasks ∧
      (s.ClosesIn l es → (s.run es).listeners[l]? = some x.retired) ∧
      (¬ s.ClosesIn l es → (s.run es).listeners[l]? = some x) := by
  obtain ⟨hw, hlisteners⟩ := run_inside ho hx hp (List.suffix_refl _) ht h.inside h.valid
  exact ⟨(hw.eq_of_length h.back.symm).symm, hlisteners⟩

/-- A listener that is closed stays as it is. -/
theorem State.Nests.closed (h : s.Nests es) (ho : Orderly s) (hx : s.listeners[l]? = some x)
    (hp : x.phase = .closed) (ht : .working l t ∈ s.tasks) :
    (s.run es).tasks = s.tasks ∧ (s.run es).listeners[l]? = some x := by
  obtain ⟨htasks, hretired, hsame⟩ := h.run ho hx (by simp [hp]) ht
  rw [Listener.retired_of_closed (ho.proper l x hx) hp] at hretired
  refine ⟨htasks, ?_⟩
  by_cases hc : s.ClosesIn l es
  · exact hretired hc
  · exact hsame hc

end Alone

/-! ## What an accept comes to -/

/-- The call of the innermost task has returned, its operation is over, and nothing else has
happened. -/
structure State.Finishes (s s' : State) (rest : List Frame) (r : Reply) (o : Outcome) : Prop where
  history : s'.history = s.history ++ [.replied r, .finished o]
  tasks : s'.tasks = rest

/-- What an accept gives when no close came; `i` is the place of its connection. -/
def acceptOutcome (i : Nat) : Except IoError Fd → Outcome
  | .ok client => .opened i (Connection.ofFd client)
  | .error e => .failed (.native .accept e)

/-- The accept that waits in `s` fails. A client that comes after all is closed, and however that
goes, the accept says that the listener is closed. -/
structure State.Refuses (s : State) (rest : List Frame) : Prop where
  failed : ∀ e, s.Finishes (s.step (.reply (.opened (.error e)))) rest (.opened (.error e))
    (.failed (.native .accept e))
  refused : ∀ client, (s.step (.reply (.opened (.ok client)))).history =
    s.history ++ [.replied (.opened (.ok client)), .called (.close client)]
  told : ∀ client inside, (s.step (.reply (.opened (.ok client)))).Nests inside → ∀ r,
    let m := (s.step (.reply (.opened (.ok client)))).run inside
    m.Finishes (m.step (.reply (.done r))) rest (.done r) (.failed .alreadyClosed)

/-- The accept that waits in `s` gives what its native call gives, and listener `l` stays as it is
for as long as it has an owner. -/
structure State.Accepts (s : State) (l : Nat) (x : Listener) (rest : List Frame) : Prop where
  gives : ∀ r, s.history ++
      [.replied (.opened r), .finished (acceptOutcome s.connections.length r)] <+:
    (s.step (.reply (.opened r))).history
  held : ∀ client, (s.step (.reply (.opened (.ok client)))).connection? s.connections.length =
    some ⟨Connection.ofFd client, true⟩ ∧ (Connection.ofFd client).handle.fd = client
  unchanged : s.listeners[l]? = some x
  usable : l ∉ s.dropped → ∀ r, s.Finishes (s.step (.reply (.opened r))) rest (.opened r)
      (acceptOutcome s.connections.length r) ∧
    (s.step (.reply (.opened r))).listeners[l]? = some x

section Outcome

variable {s : State} {l : Nat} {x : Listener} {fd : Fd} {rest : List Frame}

theorem State.reply_accepting (ht : s.tasks = .working l (.accepting fd) :: rest)
    (hx : s.listeners[l]? = some x) (r : Except IoError Fd) :
    s.step (.reply (.opened r)) =
      ({ s with tasks := rest }.note (.replied (.opened r))).advance l x.config
        (x.afterAccept r) := by
  have hx' : ({ s with tasks := rest }.note (.replied (.opened r))).listeners[l]? = some x := hx
  simp only [step, reply, ht, Frame.takes, Task.takes, if_true, resumeFrame, hx', resume]

theorem State.reply_refusing {client : Fd} (ht : s.tasks = .working l (.refusing client) :: rest)
    (hx : s.listeners[l]? = some x) (r : Except IoError Unit) :
    s.step (.reply (.done r)) = (({ s with tasks := rest }.note (.replied (.done r))).finish
      (.failed .alreadyClosed)).closeUnheld l := by
  have hx' : ({ s with tasks := rest }.note (.replied (.done r))).listeners[l]? = some x := hx
  simp only [step, reply, ht, Frame.takes, Task.takes, if_true, resumeFrame, hx', resume, advance]

/-- The end of an operation of a listener that is closed. -/
theorem State.finishes_closed (hx : s.listeners[l]? = some x) (hp : x.phase = .closed) (r : Reply)
    (o : Outcome) :
    s.Finishes ((({ s with tasks := rest }.note (.replied r)).finish o).closeUnheld l) rest r
      o := by
  have heq : (({ s with tasks := rest }.note (.replied r)).finish o).closeUnheld l =
      ({ s with tasks := rest }.note (.replied r)).finish o := closeUnheld_closed hx hp
  rw [heq]
  exact ⟨List.append_assoc s.history [_] [_], rfl⟩

/-- A listener that is closed refuses the client of an accept under way. -/
theorem State.refuses (ho : Orderly s) (ht : s.tasks = .working l (.accepting fd) :: rest)
    (hx : s.listeners[l]? = some x) (hp : x.phase = .closed) : s.Refuses rest := by
  have hslot := (ho.proper l x hx).closed.mp hp
  have hrefused : ∀ client, s.step (.reply (.opened (.ok client))) =
      ({ s with tasks := rest }.note (.replied (.opened (.ok client)))).push
        (.working l (.refusing client)) (.close client) := by
    intro client
    rw [reply_accepting ht hx]
    simp only [Listener.afterAccept, hslot, advance]
    rfl
  refine ⟨fun e => ?_, fun client => ?_, fun client inside hin r => ?_⟩
  · rw [reply_accepting ht hx]
    exact finishes_closed hx hp _ _
  · rw [hrefused]
    exact List.append_assoc s.history [_] [_]
  · rw [hrefused] at hin ⊢
    intro m
    -- the listener is still closed when the close of the client returns
    obtain ⟨htasks, hx'⟩ := hin.closed (ho.move (Move.refused l x fd client rest ht hx hp)) hx hp
      (List.mem_cons_self ..)
    rw [reply_refusing htasks hx']
    exact finishes_closed hx' hp _ _

theorem State.connections_closeUnheld (s : State) (l : Nat) :
    (s.closeUnheld l).connections = s.connections := by
  unfold closeUnheld
  split
  · rename_i x hx
    split
    · generalize x.beginClose s.host true = begun
      obtain ⟨p, y, host⟩ := begun
      cases p <;> rfl
    · rfl
  · rfl

/-- A listener that is open hands out the client of an accept under way. -/
theorem State.accepts (ho : Orderly s) (ht : s.tasks = .working l (.accepting fd) :: rest)
    (hx : s.listeners[l]? = some x) (hp : x.phase ≠ .closed) : s.Accepts l x rest := by
  obtain ⟨k, hslot⟩ : ∃ k, x.slot.get = some k :=
    Option.ne_none_iff_exists'.mp fun hn => hp ((ho.proper l x hx).closed.mpr hn)
  -- the state in which the accept is over
  have hover : ∀ r, ∃ m, s.step (.reply (.opened r)) = m.closeUnheld l ∧ Moves s m ∧ m.Settled ∧
      s.Finishes m rest (.opened r) (acceptOutcome s.connections.length r) ∧
      m.listeners = s.listeners ∧ m.dropped = s.dropped ∧ ∀ client, r = .ok client →
        m.connections = s.connections ++ [some ⟨Connection.ofFd client, true⟩] := by
    intro r
    rw [reply_accepting ht hx]
    rcases r with e | client
    · obtain ⟨hm, -, hs⟩ := popped (r := .opened (.error e)) ho ht rfl rfl
      exact ⟨_, rfl, hm.single.trans (Move.finished _ hs).single, settled_note _ _ (by simp),
        ⟨List.append_assoc s.history [_] [_], rfl⟩, rfl, rfl, by simp⟩
    · simp only [Listener.afterAccept, hslot, advance]
      refine ⟨_, rfl, (Move.accepted l fd client rest ht).single, settled_note _ _ (by simp),
        ⟨List.append_assoc s.history [_] [_], rfl⟩, rfl, rfl, ?_⟩
      rintro _ ⟨⟩
      rfl
  refine ⟨fun r => ?_, fun client => ⟨?_, fd_ofFd client⟩, hx, fun hd r => ?_⟩
  · obtain ⟨m, heq, hm, hs, hfin, -⟩ := hover r
    rw [heq, ← hfin.history]
    exact (moves_closeUnheld (ho.moves hm) hs l).history
  · obtain ⟨m, heq, -, -, -, -, -, hconn⟩ := hover (.ok client)
    rw [heq, connection?, connections_closeUnheld, hconn client rfl]
    simp
  · -- with its owner the listener is not let go at the end
    obtain ⟨m, heq, -, -, hfin, hl, hdrop, -⟩ := hover r
    have hheld : m.isUnheld l = false := by simp [isUnheld, hdrop, hd]
    rw [heq, closeUnheld_of_held hheld, hl]
    exact ⟨hfin, hx⟩

/-- The lock of a bound listener is free. -/
theorem Orderly.unlocked_of_bound (h : Orderly s) (hx : s.listeners[l]? = some x)
    (hp : x.phase = .bound) : s.isLocked l = false := by
  refine Bool.eq_false_iff.mpr fun hlock => ?_
  obtain ⟨t, hf, hlt⟩ := State.mem_locks.mp (State.isLocked_iff.mp hlock)
  obtain ⟨y, hy, hsuits⟩ := h.placed _ hf
  obtain rfl := Option.some.inj (hx.symm.trans hy)
  cases t <;> simp_all [Listener.Suits, Task.holdsLock]

/-- An accept of a bound listener waits in its native call. -/
theorem State.begin_accept (ho : Orderly s) (hx : s.listener? l = some x) (hp : x.phase = .bound) :
    ∃ fd, x.slot.get = some fd ∧ s.step (.start (.accept l)) =
      (s.note (.began (.accept l))).push (.working l (.accepting fd)) (.accept fd .empty) := by
  obtain ⟨hd, hx'⟩ := listener?_eq_some hx
  obtain ⟨fd, hslot⟩ : ∃ fd, x.slot.get = some fd := by
    refine Option.ne_none_iff_exists'.mp fun hn => ?_
    have := (ho.proper l x hx').closed.mpr hn
    simp [hp] at this
  have hlock := ho.unlocked_of_bound hx' hp
  have hbegin : x.beginAccept = .waits (.accepting fd) := by simp [Listener.beginAccept, hp, hslot]
  refine ⟨fd, hslot, ?_⟩
  simp [step, perform, lockOf, hlock, begin, withListener, listener?, note, hd, hx', hbegin,
    advance, wait, push, Task.call]

end Outcome

/-- An accept of a bound listener waits for a client while anything else may happen, more accepts
included. If a close of the listener runs meanwhile, it fails, and if not, it gives what the native
call gives, and leaves the listener as it was. -/
theorem close_wins_over_accept (host : Host) (before : List Event) (hv : OpensValid before)
    {l : Nat} {x : Listener} (hx : ((State.start host).run before).listener? l = some x)
    (hp : x.phase = .bound) {inside : List Event}
    (hin : (((State.start host).run before).step (.start (.accept l))).Nests inside) :
    let s := (State.start host).run before
    let waiting := s.step (.start (.accept l))
    let m := waiting.run inside
    (∃ fd, x.slot.get = some fd ∧ waiting.tasks = .working l (.accepting fd) :: s.tasks ∧
      waiting.history = s.history ++ [.began (.accept l), .called (.accept fd .empty)]) ∧
    m.tasks = waiting.tasks ∧
    (waiting.ClosesIn l inside → m.Refuses s.tasks) ∧
    (¬ waiting.ClosesIn l inside → m.Accepts l x s.tasks) := by
  intro s waiting m
  have ho : Orderly s := (Orderly.start host).run hv
  obtain ⟨-, hx'⟩ := State.listener?_eq_some hx
  obtain ⟨fd, hslot, hwaiting⟩ := State.begin_accept ho hx hp
  have ho' : Orderly waiting :=
    ho.moves (State.moves_step ho (by simp [OpensValid]))
  have htasks : waiting.tasks = .working l (.accepting fd) :: s.tasks := by
    simp only [waiting, s, hwaiting]
    rfl
  have hxw : waiting.listeners[l]? = some x := by
    simp only [waiting, s, hwaiting]
    exact hx'
  obtain ⟨hm, hclosed, hsame⟩ :=
    hin.run ho' hxw (by simp [hp]) (htasks ▸ List.mem_cons_self ..)
  have hom : Orderly m := ho'.run hin.valid
  refine ⟨⟨fd, hslot, htasks, ?_⟩, hm, fun hc => ?_, fun hc => ?_⟩
  · simp only [waiting, s, hwaiting]
    exact List.append_assoc _ [_] [_]
  · exact State.refuses hom (hm.trans htasks) (hclosed hc) rfl
  · exact State.accepts hom (hm.trans htasks) (hsame hc) (by simp [hp])

/-- A listener is made and bound. -/
def madeAndBound : List Event :=
  [.start (.create ⟨1, none, false⟩), .reply (.opened (.ok 5)), .start (.bind 0 [97]),
    .reply (.done (.ok ())), .reply (.done (.ok ()))]

/-- What happens inside an accept: another one waits, the listener is closed, and a client of the
other one comes after all. -/
def closedInsideAccepts : List Event :=
  [.start (.accept 0), .start (.close 0), .reply (.done (.ok ())), .reply (.done (.ok ())),
    .reply (.opened (.ok 7)), .reply (.done (.ok ()))]

theorem outer_client_closed_after_inner :
    let waiting := ((State.start .fresh).run madeAndBound).step (.start (.accept 0))
    let m := waiting.run closedInsideAccepts
    waiting.ClosesIn 0 closedInsideAccepts ∧ (m.step (.reply (.opened (.ok 8)))).history =
      m.history ++ [.replied (.opened (.ok 8)), .called (.close 8)] := by
  intro waiting m
  have hc : waiting.ClosesIn 0 closedInsideAccepts := .inr (.inl ⟨rfl, by decide, rfl⟩)
  have hin : waiting.Nests closedInsideAccepts := by
    refine ⟨?_, by decide, by simp [OpensValid, closedInsideAccepts, DescriptorSlot.invalid]⟩
    simp only [State.RunsInside, closedInsideAccepts, State.Inside]
    decide
  have hv : OpensValid madeAndBound := by simp [OpensValid, madeAndBound, DescriptorSlot.invalid]
  have h := close_wins_over_accept .fresh madeAndBound hv (l := 0) rfl rfl hin
  exact ⟨hc, (h.2.2.1 hc).refused 8⟩

end LocalIpc.Unix

import LocalIpc.Proofs.Unix.Ledger
import LocalIpc.Proofs.Unix.Misuse
/-!
# The end of a listener

A listener that is closed has passed its descriptor on, and stays as it is, whatever the native
calls reply. One that was bound is closed once a close of it has begun, as long as its owner keeps
it.
-/

namespace LocalIpc.Unix

/-! ## A closed listener, whatever the calls reply -/

/-- The listener is not closed by halves: one that is closed has passed its descriptor on, and the
operations that end a listener find it closed. -/
structure Ending (s : State) : Prop where
  traced : Traced (fun _ _ _ => True) s
  retired : ∀ (l : Nat) (x : Listener), s.listeners[l]? = some x → x.phase = .closed →
    x.slot.get = none
  ended : ∀ l t, .working l t ∈ s.tasks → t.ends = true →
    ∃ x, s.listeners[l]? = some x ∧ x.phase = .closed

section Ended

variable {s s' m : State} {l k : Nat} {x y : Listener} {g : Trigger} {host : Host} {e : Event}

/-- No reaction changes a closed listener. -/
theorem Listener.react_of_closed (hc : x.phase = .closed)
    (hbinds : ∀ t reply, g = .reply t reply → t.binds = true → x.Binding) :
    (x.react host g).2.1 = x := by
  cases g with
  | bind path => rfl
  | bindSlowly path => rfl
  | accept => rfl
  | close quiet => simp [react, beginClose, hc]
  | reply t r =>
    cases t with
    | listening fd path created =>
      have hu := (hbinds _ r rfl rfl).1
      simp [hu] at hc
    | _ => cases r <;> rfl

/-- A listener is closed when an operation goes on that ends it. -/
theorem Listener.closed_of_ends {t : Task} (h : (x.react host g).1 = .waits t) (ht : t.ends = true)
    (hends : ∀ u reply, g = .reply u reply → u.ends = true → x.phase = .closed) :
    (x.react host g).2.1.phase = .closed := by
  cases react_waits h with
  | givingUp fd k path created r cause hc =>
    simp only [react] at h ⊢
    unfold afterListen at h ⊢
    split
    · rw [giveUp_retires]
      rfl
    · split
      · rw [giveUp_retires]
        rfl
      · simp_all
  | shuttingDown fd quiet => exact x.phase_beginClose host quiet
  | closing fd quiet => exact x.phase_beginClose host quiet
  | shut fd quiet r => exact hends _ _ rfl rfl
  | givenUp fd path f cause r hs => exact hends _ _ rfl rfl
  | closed fd quiet path f r ho hs => exact hends _ _ rfl rfl
  | led u t h => cases h <;> simp [Task.ends] at ht
  | _ => simp [Task.ends] at ht

/-- What a reaction needs to know of the task that it goes on with. -/
structure Listener.Backs (x : Listener) (g : Trigger) : Prop where
  binds : ∀ t reply, g = .reply t reply → t.binds = true → x.Binding
  ends : ∀ t reply, g = .reply t reply → t.ends = true → x.phase = .closed

theorem Listener.backs_of_begun (h : ∀ t reply, g ≠ .reply t reply) : x.Backs g :=
  ⟨fun t reply heq => absurd heq (h t reply), fun t reply heq => absurd heq (h t reply)⟩

theorem Ending.backs {t : Task} {rest : List Frame} (h : Ending s)
    (ht : s.tasks = .working l t :: rest) (hx : s.listeners[l]? = some x) (r : Reply) :
    x.Backs (.reply t r) := by
  have hmem : .working l t ∈ s.tasks := by simp [ht]
  refine ⟨fun u reply heq hb => ?_, fun u reply heq he => ?_⟩ <;>
    obtain ⟨rfl, -⟩ := Trigger.reply.inj heq
  · obtain ⟨y, hy, hbinding⟩ := h.traced.binds l t hmem hb
    exact Option.some.inj (hy.symm.trans hx) ▸ hbinding
  · obtain ⟨y, hy, hclosed⟩ := h.ended l t hmem he
    exact Option.some.inj (hy.symm.trans hx) ▸ hclosed

theorem Ending.take (h : Ending s) (hx : s.listeners[l]? = some x) (hb : x.Backs g)
    (ht : Traced (fun _ _ _ => True) (s.take l (x.react host g))) :
    Ending (s.take l (x.react host g)) := by
  have hget := State.get_take (p := x.react host g) hx
  refine ⟨ht, fun k y hy hc => ?_, fun k t hmem hends => ?_⟩
  · obtain ⟨rfl, heq⟩ | ⟨-, hy⟩ := State.take_cases hx hy
    rotate_left
    · exact h.retired k y hy hc
    have hbecomes := x.react_becomes host g
    rw [heq] at hbecomes
    cases hbecomes with
    | same g => exact h.retired l x hx hc
    | closed quiet => exact x.get_retired
    | givenUp j path created r => exact x.get_retired
    | bound j path created r => simp at hc
  · rcases State.mem_tasks_take.mp hmem with ⟨u, hu, heq⟩ | hmem
    · obtain ⟨rfl, rfl⟩ := Frame.working.inj heq
      exact ⟨_, hget, Listener.closed_of_ends hu hends hb.ends⟩
    · obtain ⟨y, hy, hc⟩ := h.ended k t hmem hends
      by_cases hkl : k = l
      · subst hkl
        obtain rfl := Option.some.inj (hx.symm.trans hy)
        exact ⟨_, hget, by rwa [Listener.react_of_closed hc hb.binds]⟩
      · exact ⟨y, (State.get_take_ne hkl).trans hy, hc⟩

theorem Ending.pop {f : Frame} {rest : List Frame} (h : Ending s) (ht : s.tasks = f :: rest)
    (entry : Entry) : Ending ({ s with tasks := rest }.note entry) := by
  have hmem : ∀ l t, .working l t ∈ rest → .working l t ∈ s.tasks :=
    fun l t hmem => ht ▸ List.mem_cons_of_mem _ hmem
  refine ⟨h.traced.of_sublist rfl hmem ?_, h.retired, fun l t ht => h.ended l t (hmem l t ht)⟩
  rw [State.locks, State.locks, ht, List.flatMap_cons]
  exact List.sublist_append_right _ _

theorem Ending.note (h : Ending s) (entry : Entry) : Ending (s.note entry) :=
  ⟨⟨h.traced.locks, h.traced.owns, h.traced.binds, h.traced.made⟩, h.retired, h.ended⟩

theorem Ending.turn (h : Ending s) (ht : Turn s e s') : Ending s' := by
  have htraced : ∀ {m}, Turn s e m → Traced (fun _ _ _ => True) m := fun hm =>
    h.traced.turn hm fun _ _ _ _ _ _ _ _ _ => trivial
  have hall := htraced ht
  induction ht with
  | aside e ha =>
    refine ⟨hall, fun l x hx => h.retired l x (ha.listeners ▸ hx), fun l t hmem hends => ?_⟩
    rw [ha.listeners]
    exact h.ended l t (ha.working l t hmem) hends
  | world host => exact ⟨hall, h.retired, h.ended⟩
  | made config fd rest ht =>
    refine ⟨hall, fun l x hx hc => ?_, fun l t hmem hends => ?_⟩
    · rcases Nat.lt_or_ge l s.listeners.length with hlt | hge
      · exact h.retired l x ((List.getElem?_append_left hlt).symm.trans hx) hc
      · -- the new listener is not closed
        have hnew := (List.getElem?_append_right hge).symm.trans hx
        obtain rfl := List.mem_singleton.mp (List.mem_of_getElem? hnew)
        simp [Listener.fresh] at hc
    · obtain ⟨x, hx, hc⟩ := (h.pop ht (.finished .gone)).ended l t hmem hends
      exact ⟨x, (List.getElem?_append_left (List.getElem?_eq_some_iff.mp hx).1).trans hx, hc⟩
  | asked op l x g hop hd hr =>
    exact (h.note (.began op)).take hr.listener
      (Listener.backs_of_begun (Operation.asks?_ne_reply hop)) hall
  | answered l x t r rest ht htakes hx =>
    exact (h.pop ht (.replied r)).take hx (h.backs ht hx r) hall
  | dropped l hl => exact ⟨hall, h.retired, h.ended⟩
  | letGo e m l x ht hr ih =>
    exact (ih htraced (htraced ht)).take hr.listener (Listener.backs_of_begun (by simp)) hall

theorem Ending.step (h : Ending s) (e : Event) : Ending (s.step e) := h.turn (s.turn_step e)

theorem Ending.run (h : Ending s) (es : List Event) : Ending (s.run es) :=
  State.run_keeps h (fun hm ht => hm.turn ht) es

theorem Ending.raise (h : Ending s) (i : Nat) : Ending (s.raise i) := by
  refine ⟨h.traced.raise i, ?_, fun l t ht => ?_⟩ <;> rw [State.listeners_raise]
  · exact h.retired
  · exact h.ended l t (State.tasks_raise.mem_iff.mp ht)

theorem ending_start (host : Host) : Ending (State.start host) := by
  refine ⟨(traced_interleave host []).mono fun _ _ _ _ => trivial, ?_, ?_⟩ <;> simp [State.start]

theorem ending_run (host : Host) (es : List Event) : Ending ((State.start host).run es) :=
  (ending_start host).run es

theorem ending_interleave (host : Host) (es : List (Nat × Event)) :
    Ending ((State.start host).interleave es) := by
  induction es using List.reverseRecOn with
  | nil => exact ending_start host
  | append_singleton es e ih =>
    rw [State.interleave_append]
    exact (ih.raise e.1).step e.2

/-! ## The end of a bound listener -/

theorem State.closed_take (hx : s.listeners[l]? = some x) (hc : x.phase = .closed)
    (hy : s.listeners[k]? = some y) (hb : y.Backs g) :
    (s.take k (y.react host g)).listeners[l]? = some x := by
  by_cases hlk : l = k
  · subst hlk
    obtain rfl := Option.some.inj (hx.symm.trans hy)
    rw [State.get_take hx, Listener.react_of_closed hc hb.binds]
  · exact (State.get_take_ne hlk).trans hx

/-- Nothing changes a closed listener any more. -/
theorem Ending.closed_turn (h : Ending s) (ht : Turn s e s') (hx : s.listeners[l]? = some x)
    (hc : x.phase = .closed) : s'.listeners[l]? = some x := by
  induction ht with
  | aside e ha => rwa [ha.listeners]
  | world host => exact hx
  | made config fd rest ht =>
    exact (List.getElem?_append_left (List.getElem?_eq_some_iff.mp hx).1).trans hx
  | asked op k y g hop hd hr =>
    exact State.closed_take (s := s.note (.began op)) hx hc hr.listener
      (Listener.backs_of_begun (Operation.asks?_ne_reply hop))
  | answered k y t r rest ht htakes hy =>
    exact State.closed_take (s := { s with tasks := rest }.note (.replied r)) hx hc hy
      (h.backs ht hy r)
  | dropped l hl => exact hx
  | letGo e m k y ht hr ih =>
    exact State.closed_take ih hc hr.listener (Listener.backs_of_begun (by simp))

theorem Ending.closed_run (h : Ending s) (hx : s.listeners[l]? = some x) (hc : x.phase = .closed)
    (es : List Event) : (s.run es).listeners[l]? = some x :=
  (State.run_keeps (P := fun m => Ending m ∧ m.listeners[l]? = some x) ⟨h, hx⟩
    (fun hm ht => ⟨hm.1.turn ht, hm.1.closed_turn ht hm.2 hc⟩) es).2

/-- The lock of a bound listener is free: who holds it binds the listener still, or has closed it
already. -/
theorem Ending.unlocked_of_bound (h : Ending s) (hx : s.listeners[l]? = some x)
    (hb : x.phase = .bound) : s.isLocked l = false := by
  refine Bool.eq_false_iff.mpr fun hlock => ?_
  obtain ⟨t, hf, hlt⟩ := State.mem_locks.mp (State.isLocked_iff.mp hlock)
  cases hends : t.ends with
  | true =>
    obtain ⟨y, hy, hc⟩ := h.ended l t hf hends
    obtain rfl := Option.some.inj (hx.symm.trans hy)
    simp [hb] at hc
  | false =>
    have hbinds : t.binds = true := by
      cases t <;> simp_all [Task.holdsLock, Task.ends, Task.binds]
    obtain ⟨y, hy, hu, -⟩ := h.traced.binds l t hf hbinds
    obtain rfl := Option.some.inj (hx.symm.trans hy)
    simp [hb] at hu

/-- A shutdown holds the lock of its listener. -/
theorem State.shuts?_of_unlocked (hl : s.isLocked l = false) :
    s.tasks.filterMap (Frame.shuts? l) = [] := by
  rw [List.filterMap_eq_nil_iff]
  intro f hf
  cases hs : f.shuts? l with
  | none => rfl
  | some k =>
    obtain ⟨quiet, rfl⟩ := Frame.shuts?_eq_some hs
    have hlock : s.isLocked l = true := List.any_eq_true.mpr ⟨_, hf, by simp [Task.holdsLock]⟩
    rw [hl] at hlock
    contradiction

/-- What is due of a bound listener is its own descriptor. -/
theorem Ending.due_of_bound (h : Ending s) (hx : s.listeners[l]? = some x) (hb : x.phase = .bound) :
    ∃ fd, x.slot.get = some fd ∧ s.due l = [fd] := by
  obtain ⟨fd, hfd⟩ := Option.isSome_iff_exists.mp ((h.traced.owns l x hx).live hb)
  have hnone := State.shuts?_of_unlocked (h.unlocked_of_bound hx hb)
  exact ⟨fd, hfd, by simp [State.due, hx, hfd, hnone]⟩

/-- What is due of a closed listener is what is being shut down. -/
theorem Ending.due_of_closed (h : Ending s) (hx : s.listeners[l]? = some x)
    (hc : x.phase = .closed) : s.due l = s.tasks.filterMap (Frame.shuts? l) := by
  simp [State.due, hx, h.retired l x hx hc]

end Ended

/-! ## Owners -/

section Owned

variable {s : State} {l k : Nat} {x : Listener} {es : List Event}

theorem State.dropped_take (s : State) (k : Nat) (p : Progress × Listener × Host) :
    (s.take k p).dropped = s.dropped := by
  rcases p with ⟨_ | _ | _ | _ | _, y, host⟩ <;> rfl

theorem State.dropped_closeUnheld (s : State) (k : Nat) :
    (s.closeUnheld k).dropped = s.dropped := by
  rcases s.closeUnheld_cases k with heq | ⟨x, -, heq⟩ <;> rw [heq]
  exact dropped_take s k _

theorem State.dropped_advanceWith (s : State) (k : Nat) (p : Progress × Listener × Host) :
    (s.advanceWith k p).dropped = s.dropped := by
  rcases s.advanceWith_cases k p with heq | heq <;> rw [heq]
  · exact dropped_take s k p
  · rw [dropped_closeUnheld, dropped_take]

/-- Only its owner lets a listener go. -/
theorem State.dropped_step (s : State) (e : Event) (hl : l ∉ s.dropped)
    (he : e ≠ .start (.drop l)) : l ∉ (s.step e).dropped := by
  have heffect := s.effect_step e
  generalize s.step e = s' at heffect ⊢
  cases heffect with
  | asks | answered =>
    rw [dropped_advanceWith]
    exact hl
  | drops k x hx =>
    rw [dropped_closeUnheld]
    exact List.not_mem_cons_of_ne_of_not_mem (fun heq => he (heq ▸ rfl)) hl
  | _ => exact hl

theorem State.dropped_run (s : State) (hl : l ∉ s.dropped) (hd : .start (.drop l) ∉ es) :
    l ∉ (s.run es).dropped := by
  induction es generalizing s with
  | nil => exact hl
  | cons e es ih =>
    rw [List.mem_cons, not_or] at hd
    exact ih (s.step e) (s.dropped_step e hl (Ne.symm hd.1)) hd.2

/-- A close that begins finds its listener closed at the latest, if it was ever bound. Nothing opens
it again. -/
theorem Ending.closed_of_close_mem (h : Ending s) (hx : s.listener? l = some x)
    (hp : x.phase ≠ .unbound) (hc : .start (.close l) ∈ es) (hd : .start (.drop l) ∉ es) :
    ∃ y, (s.run es).listener? l = some y ∧ y.phase = .closed := by
  induction es generalizing s x with
  | nil => simp at hc
  | cons e es ih =>
    obtain ⟨hdropped, hget⟩ := State.listener?_eq_some hx
    rw [List.mem_cons, not_or] at hd
    have hdrop := s.dropped_step e hdropped (Ne.symm hd.1)
    have hstep := h.step e
    rcases List.mem_cons.mp hc with rfl | hc
    rotate_left
    · obtain ⟨y, hy, hkeeps⟩ := h.traced.keeps_turn (s.turn_step e) hget hp
      exact ih hstep (State.listener?_of_get hdrop hy) hkeeps.phase hc hd.2
    have hclosed : ∃ y, (s.step (.start (.close l))).listeners[l]? = some y ∧
        y.phase = .closed := by
      cases hphase : x.phase with
      | unbound => exact absurd hphase hp
      | closed => exact ⟨x, h.closed_turn (s.turn_step _) hget hphase, hphase⟩
      | bound => exact State.closes_start hx (h.unlocked_of_bound hget hphase)
    obtain ⟨y, hy, hphase⟩ := hclosed
    refine ⟨y, State.listener?_of_get ?_ ?_, hphase⟩
    · exact State.dropped_run (s.step (.start (.close l))) hdrop hd.2
    · exact hstep.closed_run hy hphase es

end Owned

end LocalIpc.Unix

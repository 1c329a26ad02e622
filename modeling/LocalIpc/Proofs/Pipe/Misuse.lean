import LocalIpc.Proofs.Pipe.Accepting
/-!
# Closed for good

A closed pipe listener is never opened again, and refuses whatever is asked of it before a native
call is made. The other way round, who reads that the listener is closed may rely on it. An accept
tells of a close also when it finds its instance gone from the registry, since nothing but a close
takes the instance of an accept away.
-/

namespace LocalIpc.Pipe

/-! ## Why an error blames the caller -/

/-- What an operation of a closed listener fails with. A listener has its name from the start, so it
can never be bound. -/
def Operation.refusal? : Operation → Option ListenerError
  | accept | close => some .alreadyClosed
  | bind => some Listener.bindError
  | _ => none

/-- Why the step on an event may tell of a misuse. -/
inductive State.Blames (s : State) : Event → ListenerError → Prop
  | closed (e : Event) (h : s.IsClosed) : s.Blames e .alreadyClosed
  | bound : s.Blames (.start .bind) Listener.bindError

/-- The error that an accept will fail with once its instance is given back. -/
def Task.blame? : Task → Option ListenerError
  | releasing _ _ (.refuse e) => some e
  | _ => none

/-- A task that will tell of a misuse tells of the close of the listener. -/
def Listener.Backs (l : Listener) (t : Task) : Prop :=
  ∀ err, t.blame? = some err → err.isMisuse = true → err = .alreadyClosed ∧ l.closed = true

def State.Candid (s : State) : Prop :=
  ∀ l, s.listener = some l → ∀ t ∈ s.tasks, l.Backs t

section Parts

variable {l l' : Listener} {old : Option Task} {r : Option Reply} {t : Task} {p : Progress}
  {next : After} {err : ListenerError}

theorem Listener.Backs.mono (h : l.Backs t) (hc : l.closed = true → l'.closed = true) :
    l'.Backs t := fun err herr hmis => (h err herr hmis).imp_right hc

theorem Listener.backs_of_blame?_eq_none (l : Listener) (h : t.blame? = none) : l.Backs t := by
  intro err herr
  simp [h] at herr

/-- After a release nothing is given back to fail an accept. -/
theorem Next.blame?_eq_none (h : Next l next p l') : ∀ t ∈ p.task?, t.blame? = none := by
  cases h <;> simp [Task.blame?]

/-- A part that goes on keeps to what its task would tell. -/
theorem Part.backs (h : Part l old r p l') (ho : ∀ t ∈ old, l.Backs t) :
    ∀ t ∈ p.task?, l'.Backs t := by
  cases h with
  | close quiet p l' hc hn => exact fun t ht => l'.backs_of_blame?_eq_none (hn.blame?_eq_none t ht)
  | released k next r p l' hn =>
    exact fun t ht => l'.backs_of_blame?_eq_none (hn.blame?_eq_none t ht)
  | closeClosed quiet hc => cases quiet <;> simp
  | unlocked lock e quiet r =>
    rw [Listener.task?_afterLock]
    simp
  | createdLate k hc hh =>
    rintro t ⟨⟩ err ⟨⟩ -
    exact ⟨rfl, hc⟩
  | waitFailed k e hh =>
    rintro t ⟨⟩ err ⟨⟩ hmis
    simp [ListenerError.isMisuse] at hmis
  | quiesced k next r | calmed call k next r hcall =>
    -- the same release goes on with another call
    rintro t ⟨⟩ err herr
    cases next with
    | refuse e => exact ho _ rfl err herr
    | _ => simp [Task.blame?] at herr
  | _ => simp [Listener.Backs, Task.blame?]

/-- What an accept waited on is gone from the registry, so the listener is closed. -/
theorem Attended.closed_of_missed {s : State} {rest : List Task} {reply : Reply} {k : Handle}
    (h : Attended s) (hl : s.listener = some l) (ht : s.tasks = t :: rest) (ha : Arrives k t reply)
    (hk : k ∉ l.registry.waiting) : l.closed = true := by
  cases hc : l.closed with
  | true => rfl
  | false =>
    refine absurd ((h.tracks l hl hc).pending k ?_) hk
    rw [State.pending, ht, List.flatMap_cons]
    exact List.mem_append_left _ (by cases ha <;> simp)

theorem Listener.afterLock_failed {e : Option IoError} {quiet : Bool} {r : Except IoError Unit}
    (h : Listener.afterLock e quiet r = .failed err) : err.isMisuse = false := by
  unfold Listener.afterLock at h
  split at h
  · simp at h
  · split at h
    · obtain rfl := Progress.failed.inj h
      rfl
    · simp at h

/-- An operation that goes on tells of a misuse only because of a close. -/
theorem Part.resumed_misuse {reply : Reply} (h : Part l (some t) (some reply) (.failed err) l')
    (herr : err.isMisuse = true) (hb : l.Backs t)
    (hmissed : ∀ k, Arrives k t reply → k ∉ l.registry.waiting → l.closed = true) :
    err = .alreadyClosed ∧ l.closed = true := by
  generalize hp : Progress.failed err = p at h
  cases h with
  | createdKnown k hc hh => exact ⟨Progress.failed.inj hp, hc⟩
  | missed t r k ha hh => exact ⟨Progress.failed.inj hp, hmissed k ha hh⟩
  | released k next r p l' hn =>
    subst hp
    generalize hnext : next.keeping r = after at hn
    cases hn with
    | refuse e =>
      refine hb err ?_ herr
      cases next <;> simp_all [After.keeping, Task.blame?]
  | unlocked lock e quiet r => simp [Listener.afterLock_failed hp.symm] at herr
  | createFailed | connectFailed | waitFailedLate | settleFailed =>
    obtain rfl := Progress.failed.inj hp
    simp [ListenerError.isMisuse] at herr
  | _ => simp at hp

end Parts

/-! ## Errors of misuse are true -/

section Turns

variable {s s' : State} {l : Listener} {rest : List Task} {p : Progress} {e : Event}
  {err : ListenerError}

theorem State.candid_of_listener (hl : s.listener = some l) (h : ∀ t ∈ s.tasks, l.Backs t) :
    s.Candid := fun _ hk => Option.some.inj (hl.symm.trans hk) ▸ h

theorem State.Candid.closeUnheld (h : s.Candid) : s.closeUnheld.Candid := by
  rcases s.closeUnheld_cases with ⟨heq, -⟩ | ⟨l, t, l', hl, -, hp, hc, heq⟩ <;> rw [heq]
  · exact h
  · refine State.candid_of_listener (l := l') rfl fun u hu => ?_
    rcases List.mem_cons.mp hu with rfl | hu
    · exact hp.backs (by simp) u rfl
    · exact (h l hl u hu).mono fun _ => hc

theorem State.candid_advance (hl : s.listener = some l) (hp : ∀ t ∈ p.task?, l.Backs t)
    (hr : ∀ t ∈ rest, l.Backs t) : (s.advance rest p).Candid := by
  have hrest : ∀ {m : State}, m.listener = some l → m.tasks = rest → m.closeUnheld.Candid := by
    intro m hm ht
    exact State.Candid.closeUnheld (State.candid_of_listener hm (ht ▸ hr))
  cases p with
  | waits t =>
    refine State.candid_of_listener hl fun u hu => ?_
    rcases List.mem_cons.mp hu with rfl | hu
    · exact hp u rfl
    · exact hr u hu
  | accepted k => exact hrest hl rfl
  | done => exact hrest hl rfl
  | failed e => exact hrest hl rfl
  | _ => exact State.candid_of_listener hl hr

theorem State.Candid.turn (h : s.Candid) (ht : Turn s e s') : s'.Candid := by
  have hnone : ∀ {m : State} {e : ListenerError}, m.listener = none →
      (m.advance [] (.failed e)).Candid := by
    intro m e hm
    rw [State.advance_failed_construction hm]
    simp [State.Candid, State.note, hm]
  cases ht with
  | nothing r => exact h
  | gone op => exact h
  | started op l l' p dropped hl hp hsame hdrop hkeep =>
    exact State.candid_advance rfl (hp.backs (by simp)) fun t ht =>
      (h l hl t ht).mono hp.closed_mono
  | letGo op i c l quiet hl hc =>
    have hp := l.part_beginRelease c.handle quiet
    exact State.candid_advance rfl (hp.backs (by simp)) fun t ht =>
      (h l hl t ht).mono hp.closed_mono
  | resumed t r rest l l' p hl htasks hp =>
    refine State.candid_advance rfl (hp.backs ?_) fun u hu => ?_
    · rintro t ⟨⟩
      exact h l hl t (by simp [htasks])
    · exact (h l hl u (htasks ▸ List.mem_cons_of_mem _ hu)).mono hp.closed_mono
  | made k u hl htasks => exact State.candid_advance rfl (by simp) (by simp)
  | lockMade k hl htasks => simp [State.Candid, State.advance, State.push, State.note, hl]
  | notReset k e hl htasks => simp [State.Candid, State.advance, State.push, State.note, hl]
  | notMade e hl htasks => exact hnone hl
  | givenUp k e r hl htasks => exact hnone hl

theorem State.Candid.run (h : s.Candid) (ho : Orderly s) (es : List Event) : (s.run es).Candid :=
  ho.run_keeps h (fun _ hm ht => hm.turn ht) es

theorem State.told_failed (h : s.told p = some (.failed err)) : p = .failed err := by
  cases p <;> simp_all [State.told]

/-- The failure that is told of in a step is what its part has come to. -/
theorem State.advance_failed {m : State} {first : Entry}
    (hn : (m.advance rest p).history = s.history ++ s.news e)
    (hm : .finished (.failed err) ∈ s.news e) (hfirst : m.history = s.history ++ [first])
    (hne : first ≠ .finished (.failed err)) : p = .failed err :=
  State.told_failed ((State.mem_advance_note hfirst hne hn).mp hm)

/-- Whoever finds nobody is told of no failure. -/
theorem State.gone_tells {op : Operation}
    (hn : ((s.note (.began op)).note (.finished .gone)).history = s.history ++ s.news e) :
    .finished (.failed err) ∉ s.news e := by
  have hnews : [.began op, .finished .gone] = s.news e := by simpa [State.note] using hn
  simp [← hnews]

theorem Listener.beginRelease_ne_failed (l : Listener) (k : Handle) (quiet : Bool) :
    (l.beginRelease k quiet).1 ≠ .failed err := by
  unfold beginRelease
  split
  · simp
  · split <;> simp

/-- A connection that begins to give its instance back tells of no failure. -/
theorem State.letGo_tells {op : Operation} {i : Nat} (quiet : Bool)
    (hn : ((s.note (.began op)).letGo i quiet).history = s.history ++ s.news e) :
    .finished (.failed err) ∉ s.news e := by
  intro hm
  unfold State.letGo at hn
  split at hn
  · exact Listener.beginRelease_ne_failed _ _ _ (State.advance_failed hn hm rfl (by simp))
  · exact State.gone_tells hn hm

/-- An operation that begins fails only because the listener is closed, or has its name already. -/
theorem Orderly.blames_start (ho : Orderly s) {op : Operation}
    (hm : .finished (.failed err) ∈ s.news (.start op)) : s.Blames (.start op) err := by
  have hn := ho.history_step (.start op)
  simp only [State.step] at hn
  by_cases hop : ∀ i, op ≠ .closeConnection i ∧ op ≠ .dropConnection i
  rotate_left
  · cases op with
    | closeConnection i => exact (State.letGo_tells false hn hm).elim
    | dropConnection i => exact (State.letGo_tells true hn hm).elim
    | _ => simp at hop
  rcases State.start_cases s op hop with ⟨l, hl, heq⟩ | heq <;> rw [heq] at hn
  rotate_left
  · exact (State.gone_tells hn hm).elim
  cases op with
  | accept =>
    have htold := State.advance_failed hn hm rfl (by simp)
    unfold Listener.beginAccept at htold
    split at htold
    · obtain rfl := Progress.failed.inj htold
      exact .closed _ ⟨l, hl, ‹_›⟩
    · simp at htold
  | close =>
    have htold := State.advance_failed hn hm rfl (by simp)
    by_cases hc : l.closed = true
    · simp only [Listener.beginClose, if_pos hc, Bool.false_eq_true, if_false] at htold
      obtain rfl := Progress.failed.inj htold
      exact .closed _ ⟨l, hl, hc⟩
    · obtain ⟨t, ht⟩ := l.beginClose_waits (by simpa using hc) false
      simp [ht] at htold
  | bind =>
    obtain rfl := Progress.failed.inj (State.advance_failed hn hm rfl (by simp))
    exact .bound
  | drop =>
    have hdone := State.advance_failed (p := .done)
      (m := { s.note (.began .drop) with dropped := true }) hn hm rfl (by simp)
    simp at hdone
  | closeConnection i => exact absurd rfl (hop i).1
  | dropConnection i => exact absurd rfl (hop i).2

/-- An operation that goes on tells of a misuse only because the listener is closed. -/
theorem Orderly.blames_reply (ho : Orderly s) (ha : Attended s) (hc : s.Candid) {r : Reply}
    (hm : .finished (.failed err) ∈ s.news (.reply r)) (herr : err.isMisuse = true) :
    s.Blames (.reply r) err := by
  have hn := ho.history_step (.reply r)
  have hturn := ho.turn_step (.reply r)
  generalize s.step (.reply r) = s' at hn hturn
  cases hturn with
  | nothing r =>
    have : s.news (.reply r) = [] := by simpa using hn.symm
    simp [this] at hm
  | resumed t r rest l l' p hl htasks hp =>
    obtain rfl := State.advance_failed hn hm rfl (by simp)
    obtain ⟨rfl, hclosed⟩ := hp.resumed_misuse herr (hc l hl t (by simp [htasks]))
      fun k hk hw => ha.closed_of_missed hl htasks hk hw
    exact .closed _ ⟨l, hl, hclosed⟩
  | lockMade k hl htasks | notReset k e hl htasks | made k u hl htasks =>
    have htold := State.advance_failed hn hm rfl (by simp)
    simp at htold
  | notMade e hl htasks | givenUp k e r hl htasks =>
    -- a construction fails by what the system says
    have htold := State.advance_failed hn hm rfl (by simp)
    obtain rfl := Progress.failed.inj htold
    simp [ListenerError.isMisuse] at herr

end Turns

/-! ## A closed listener -/

/-- What is closed is closed for good, and an error of misuse tells the truth. -/
structure ClosedForGood (s : State) : Prop where
  /-- A close leaves the listener closed from its beginning on. -/
  closes : s.listener.isSome → s.dropped = false → (s.step (.start .close)).IsClosed
  /-- While the listener is closed, it is closed. -/
  ending : ∀ t ∈ s.tasks, t.isClose = true → s.IsClosed
  stays : s.IsClosed → ∀ es, (s.run es).IsClosed
  /-- A closed listener is not bound, accepts nothing and is not closed again. The operation fails,
  and that is all it does. -/
  refuses : s.IsClosed → s.dropped = false → ∀ op err, op.refusal? = some err →
    s.step (.start op) = (s.note (.began op)).note (.finished (.failed err)) ∧ err.isMisuse = true
  /-- An open one is not bound either. -/
  named : s.listener.isSome → s.dropped = false → s.step (.start .bind) =
    (s.note (.began .bind)).note (.finished (.failed Listener.bindError))
  truthful : ∀ e err, .finished (.failed err) ∈ s.news e → err.isMisuse = true → s.Blames e err
  /-- No accept of an open listener fails as if the listener had stopped. -/
  serving : ∀ l, s.listener = some l → l.closed = false → ∀ e err, e ≠ .start .bind →
    .finished (.failed err) ∈ s.news e → err.isMisuse = false

section Closed

variable {s : State}

/-- An operation that fails at once, of a listener that has an owner. -/
theorem State.advance_failed_held (hd : s.dropped = false) (err : ListenerError) :
    s.advance s.tasks (.failed err) = s.note (.finished (.failed err)) := by
  rcases (s.note (.finished (.failed err))).closeUnheld_cases with
    ⟨heq, -⟩ | ⟨l, t, l', -, hu, -, -, -⟩
  · exact heq
  · simp [isUnheld, note, hd] at hu

theorem State.start_bind (hl : s.listener.isSome) (hd : s.dropped = false) :
    s.step (.start .bind) =
      (s.note (.began .bind)).note (.finished (.failed Listener.bindError)) := by
  obtain ⟨l, hl⟩ := Option.isSome_iff_exists.mp hl
  have hstep : s.step (.start .bind) =
      (s.note (.began .bind)).advance s.tasks (.failed Listener.bindError) := by
    simp [step, start, note, hl, hd, startOn]
  rw [hstep]
  exact State.advance_failed_held (s := s.note _) hd _

theorem State.start_refused (h : s.IsClosed) (hd : s.dropped = false) {op : Operation}
    {err : ListenerError} (hop : op.refusal? = some err) :
    s.step (.start op) = (s.note (.began op)).note (.finished (.failed err)) ∧
      err.isMisuse = true := by
  obtain ⟨l, hl, hc⟩ := h
  have hend := State.advance_failed_held (s := s.note (.began op)) hd .alreadyClosed
  cases op with
  | accept =>
    obtain rfl := Option.some.inj hop
    refine ⟨?_, rfl⟩
    rw [← hend]
    simp [step, start, note, hl, hd, startOn, Listener.beginAccept, hc]
  | close =>
    obtain rfl := Option.some.inj hop
    refine ⟨?_, rfl⟩
    rw [← hend]
    simp [step, start, note, hl, hd, startOn, Listener.beginClose, hc, advanceWith]
  | bind =>
    obtain rfl := Option.some.inj hop
    exact ⟨State.start_bind (by simp [hl]) hd, rfl⟩
  | _ => simp [Operation.refusal?] at hop

theorem Orderly.closedForGood (ho : Orderly s) (ha : Attended s) (hc : s.Candid) :
    ClosedForGood s := by
  have htruthful : ∀ e err, .finished (.failed err) ∈ s.news e → err.isMisuse = true →
      s.Blames e err := by
    intro e err hm herr
    cases e with
    | start op => exact ho.blames_start hm
    | reply r => exact ho.blames_reply ha hc hm herr
  refine { closes := ?closes, ending := ?ending, stays := ?stays, refuses := ?refuses,
           named := State.start_bind, truthful := htruthful, serving := ?serving }
  case closes =>
    intro hl hd
    obtain ⟨l, hl⟩ := Option.isSome_iff_exists.mp hl
    exact State.isClosed_start_close hl hd
  case stays =>
    intro h es
    exact ho.isClosed_run h es
  case refuses =>
    intro h hd op err hop
    exact State.start_refused h hd hop
  case ending =>
    intro t ht hclose
    rcases hl : s.listener with _ | l
    · -- a construction closes no listener
      rcases ho.building hl with hnil | ⟨u, hu, hb⟩
      · simp [hnil] at ht
      · obtain rfl := List.mem_singleton.mp (hu ▸ ht)
        cases t <;> simp_all [Task.builds, Task.isClose]
    · exact ⟨l, hl, ho.closing l hl t ht hclose⟩
  case serving =>
    intro l hl hopen e err he hm
    cases herr : err.isMisuse with
    | false => rfl
    | true =>
      cases htruthful e err hm herr with
      | closed e h =>
        obtain ⟨k, hk, hclosed⟩ := h
        obtain rfl := Option.some.inj (hl.symm.trans hk)
        simp [hopen] at hclosed
      | bound => exact absurd rfl he

end Closed

/-- In every run that makes only handles that are not open, a closed listener is closed for good,
and an error of misuse tells the truth. -/
theorem closedForGood_run (name : String) (config : PipeConfig) (es : List Event)
    (hf : account.OpensFresh ((State.construct name config).run es).history) :
    ClosedForGood ((State.construct name config).run es) := by
  have ho := orderly_construct name config
  refine (ho.run es).closedForGood ?_ ?_
  · exact (attended_construct name config).run ho (books_construct name config) es hf
  · exact State.Candid.run (s := State.construct name config)
      (by simp [State.Candid, State.construct, State.advance, State.push, State.note]) ho es

end LocalIpc.Pipe

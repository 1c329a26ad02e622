import LocalIpc.Proofs.Pipe.InUse
/-!
# What an accept hands out

An accept hands out a handle that is open as long as the listener is open. After a close it fails,
but for one case: a client that was gone before it was seen is handed out without another look at
the listener, with a handle that the close has given back.
-/

namespace LocalIpc.Pipe

/-! ## What a step tells -/

namespace State

/-- What a caller is told when an operation comes to `p`. -/
def told (s : State) : Progress → Option Outcome
  | .accepted h => some (.accepted s.connections.length ⟨h, .pipe, s.config.strictLength⟩)
  | .done => some .done
  | .failed e => some (.failed e)
  | .waits _ | .over => none

/-- What a step adds to the history. -/
def news (s : State) (e : Event) : List Entry := (s.step e).history.drop s.history.length

theorem closeUnheld_calls (s : State) :
    ∃ calls : List Call, s.closeUnheld.history = s.history ++ calls.map .called := by
  rcases s.closeUnheld_cases with ⟨heq, -⟩ | ⟨l, t, l', hl, hu, hp, hc, heq⟩ <;> rw [heq]
  · exact ⟨[], by simp⟩
  · exact ⟨[t.call s.path s.config], rfl⟩

theorem advance_history (s : State) (rest : List Task) (p : Progress) :
    ∃ calls : List Call, (s.advance rest p).history =
      s.history ++ ((s.told p).toList.map .finished ++ calls.map .called) := by
  have hfinish : ∀ (m : State) (o : Outcome), ∃ calls : List Call,
      (m.finish o).history = m.history ++ ([.finished o] ++ calls.map .called) := by
    intro m o
    obtain ⟨calls, hcalls⟩ := (m.note (.finished o)).closeUnheld_calls
    exact ⟨calls, hcalls.trans (by simp [note])⟩
  cases p with
  | waits t => exact ⟨[t.call s.path s.config], rfl⟩
  | accepted h =>
    exact hfinish { s with tasks := rest, connections := s.connections ++ [some _] } _
  | done => exact hfinish { s with tasks := rest } _
  | failed e => exact hfinish { s with tasks := rest } _
  | _ => exact ⟨[], by simp [advance, told]⟩

variable {s : State} {e : Event} {i : Nat} {c : Connection}

theorem mem_advance_note {m : State} {first : Entry} {rest : List Task} {p : Progress}
    {new : List Entry} {o : Outcome} (hm : m.history = s.history ++ [first])
    (hfirst : first ≠ .finished o) (hn : (m.advance rest p).history = s.history ++ new) :
    .finished o ∈ new ↔ m.told p = some o := by
  obtain ⟨calls, hcalls⟩ := m.advance_history rest p
  rw [hcalls, hm, List.append_assoc, List.append_cancel_left_eq] at hn
  subst hn
  simp [hfirst.symm, eq_comm]

theorem told_accepted {p : Progress} (h : s.told p = some (.accepted i c)) :
    p = .accepted c.handle ∧ i = s.connections.length ∧
      c = ⟨c.handle, .pipe, s.config.strictLength⟩ := by
  cases p with
  | accepted k =>
    obtain ⟨rfl, rfl⟩ : s.connections.length = i ∧ ⟨k, .pipe, s.config.strictLength⟩ = c := by
      simpa [told] using h
    exact ⟨rfl, rfl, rfl⟩
  | _ => simp [told] at h

end State

/-- Only the reply to a call of an accept hands out a connection. -/
theorem Turn.accepted {s s' : State} {e : Event} {new : List Entry} {i : Nat} {c : Connection}
    (ht : Turn s e s') (hn : s'.history = s.history ++ new)
    (hm : .finished (.accepted i c) ∈ new) :
    ∃ t r rest l l', s.listener = some l ∧ s.tasks = t :: rest ∧ e = .reply r ∧
      Part l (some t) (some r) (.accepted c.handle) l' ∧
      i = s.connections.length ∧ c = ⟨c.handle, .pipe, s.config.strictLength⟩ := by
  cases ht with
  | nothing r =>
    obtain rfl : new = [] := by simpa using hn
    simp at hm
  | gone op =>
    obtain rfl : [.began op, .finished .gone] = new := by simpa [State.note] using hn
    simp at hm
  | started op l l' p dropped hl hp hsame hdrop hkeep =>
    -- an operation that begins hands nothing out
    obtain ⟨rfl, -, -⟩ := State.told_accepted ((State.mem_advance_note rfl (by simp) hn).mp hm)
    exact absurd hp.begun.2 (by simp)
  | letGo op i c l quiet hl hc =>
    obtain ⟨heq, -, -⟩ := State.told_accepted ((State.mem_advance_note rfl (by simp) hn).mp hm)
    have := (l.part_beginRelease c.handle quiet).begun.2
    rw [heq] at this
    exact absurd this (by simp)
  | resumed t r rest l l' p hl htasks hp =>
    obtain ⟨rfl, hi, hc⟩ := State.told_accepted ((State.mem_advance_note rfl (by simp) hn).mp hm)
    exact ⟨t, r, rest, l, l', hl, htasks, rfl, hp, hi, hc⟩
  | lockMade k hl htasks | notReset k e hl htasks | notMade e hl htasks | made k u hl htasks
  | givenUp k e r hl htasks =>
    have htold := (State.mem_advance_note rfl (by simp) hn).mp hm
    simp [State.told] at htold

/-- What a step adds stands after what was there. -/
theorem Orderly.history_step {s : State} (h : Orderly s) (e : Event) :
    (s.step e).history = s.history ++ s.news e := by
  obtain ⟨new, hnew⟩ := (h.turn_step e).history
  rw [State.news, ← hnew, List.drop_left]

section Handout

variable {l l' : Listener} {t : Task} {r : Reply} {k : Handle}

/-- What is handed out is what the accept waited on, and it still waits unless its client is gone
again. -/
theorem Part.accepted_cases (h : Part l (some t) (some r) (.accepted k) l') :
    t.pending = [k] ∧ t.owes (some l.lock) = [] ∧
      (k ∈ l.registry.waiting ∨ t = .connecting k ∧ r = .connect .noData) := by
  generalize hp : Progress.accepted k = p at h
  cases h with
  | delivered t r k' ha hh =>
    obtain rfl := Progress.accepted.inj hp
    exact ⟨by cases ha <;> rfl, by cases ha <;> rfl, .inl hh⟩
  | noData k' =>
    obtain rfl := Progress.accepted.inj hp
    exact ⟨rfl, rfl, .inr ⟨rfl, rfl⟩⟩
  | released k' next r p l' hn =>
    have := hn.handsOut_eq_nil
    rw [← hp] at this
    simp at this
  | unlocked lock e quiet r =>
    unfold Listener.afterLock at hp
    split at hp
    · simp at hp
    · split at hp <;> simp at hp
  | _ => simp at hp

end Handout

/-- What the innermost accept waits on is owed just as long as the listener is open: a close has
given it back already. -/
theorem mem_owed_iff_open {s : State} {l : Listener} {t : Task} {rest : List Task} {k : Handle}
    (h : Attended s) (ho : Orderly s) (hl : s.listener = some l) (ht : s.tasks = t :: rest)
    (hpending : t.pending = [k]) (howes : t.owes (some l.lock) = []) :
    k ∈ s.owed ↔ l.closed = false := by
  rw [State.owed_of_listener hl, ht, List.flatMap_cons, howes, List.nil_append]
  constructor
  · intro howed
    cases hc : l.closed with
    | false => rfl
    | true =>
      -- nobody owes the handle: not the registry, and not the operations that go on later
      have hg := h.gaveBack l hl hc
      rw [ht] at hg
      obtain ⟨hout, hrest⟩ := hg.1 k (hpending ▸ List.mem_singleton_self _)
      simp [Listener.owes, hc, (ho.drained l hl hc).1, hout] at howed
      exact absurd (List.mem_flatMap.mpr howed) hrest
  · intro hopen
    have hw := (h.tracks l hl hopen).pending k (by
      rw [State.pending, ht, List.flatMap_cons, hpending]
      exact List.mem_cons_self ..)
    simp [Listener.owes, hw]

/-- A handle that is handed out is open, unless the listener is closed: then it was given back
already. -/
theorem open_of_accepted {s : State} {e : Event} {i : Nat} {c : Connection} (h : Attended s)
    (ho : Orderly s) (hb : Books s) (hm : .finished (.accepted i c) ∈ s.news e) :
    account.IsOpen s.history c.handle ↔ ∀ l, s.listener = some l → l.closed = false := by
  have hn := ho.history_step e
  obtain ⟨t, r, rest, l, l', hl, ht, -, hp, -, -⟩ := (ho.turn_step e).accepted hn hm
  obtain ⟨hpending, howes, -⟩ := hp.accepted_cases
  rw [hb.isOpen_iff, mem_owed_iff_open h ho hl ht hpending howes]
  exact ⟨fun hopen k hk => Option.some.inj (hl.symm.trans hk) ▸ hopen, fun h => h l hl⟩

/-! ## After a close -/

/-- The listener is made and closed. -/
def State.IsClosed (s : State) : Prop := ∃ l, s.listener = some l ∧ l.closed = true

namespace State

variable {s : State}

theorem isClosed_closeUnheld (h : s.IsClosed) : s.closeUnheld.IsClosed := by
  rcases s.closeUnheld_cases with ⟨heq, -⟩ | ⟨l, t, l', -, -, -, hc, heq⟩ <;> rw [heq]
  · exact h
  · exact ⟨l', rfl, hc⟩

theorem isClosed_advance (h : s.IsClosed) (rest : List Task) (p : Progress) :
    (s.advance rest p).IsClosed := by
  cases p with
  | waits t => exact h
  | accepted k => exact isClosed_closeUnheld h
  | done => exact isClosed_closeUnheld h
  | failed e => exact isClosed_closeUnheld h
  | _ => exact h

theorem isClosed_start_close {l : Listener} (hl : s.listener = some l) (hd : s.dropped = false) :
    (s.step (.start .close)).IsClosed := by
  have hstep : s.step (.start .close) = { s.note (.began .close) with
      listener := some (l.beginClose false).2 }.advance s.tasks (l.beginClose false).1 := by
    simp [step, start, note, hl, hd, startOn, advanceWith]
  rw [hstep]
  exact isClosed_advance ⟨_, rfl, l.closed_beginClose false⟩ _ _

end State

/-- Once closed, always closed. -/
theorem Turn.isClosed {s s' : State} {e : Event} (h : s.IsClosed) (ht : Turn s e s') :
    s'.IsClosed := by
  obtain ⟨k, hk, hc⟩ := h
  cases ht with
  | nothing r => exact ⟨k, hk, hc⟩
  | gone op => exact ⟨k, hk, hc⟩
  | started op l l' p dropped hl hp hsame hdrop hkeep =>
    obtain rfl := Option.some.inj (hk.symm.trans hl)
    exact State.isClosed_advance ⟨l', rfl, hp.closed_mono hc⟩ _ _
  | letGo op i c l quiet hl hcon =>
    obtain rfl := Option.some.inj (hk.symm.trans hl)
    exact State.isClosed_advance ⟨_, rfl, (k.part_beginRelease _ _).closed_mono hc⟩ _ _
  | resumed t r rest l l' p hl htasks hp =>
    obtain rfl := Option.some.inj (hk.symm.trans hl)
    exact State.isClosed_advance ⟨l', rfl, hp.closed_mono hc⟩ _ _
  | lockMade k hl htasks | notReset k e hl htasks | notMade e hl htasks | made k u hl htasks
  | givenUp k e r hl htasks => simp [hl] at hk

theorem Orderly.isClosed_run {s : State} (ho : Orderly s) (h : s.IsClosed) (es : List Event) :
    (s.run es).IsClosed :=
  ho.run_keeps h (fun _ hm ht => ht.isClosed hm) es

/-- With the listener closed, an accept hands out a connection just when its client is found to be
gone again. -/
theorem Orderly.accepted_iff {s : State} (ho : Orderly s) (h : s.IsClosed) (e : Event) (i : Nat)
    (c : Connection) :
    .finished (.accepted i c) ∈ s.news e ↔
      e = .reply (.connect .noData) ∧ s.tasks.head? = some (.connecting c.handle) ∧
        i = s.connections.length ∧ c = ⟨c.handle, .pipe, s.config.strictLength⟩ := by
  have hn := ho.history_step e
  obtain ⟨l, hl, hc⟩ := h
  constructor
  · intro hm
    obtain ⟨t, r, rest, k, l', hk, ht, he, hp, hi, hcon⟩ := (ho.turn_step e).accepted hn hm
    obtain rfl := Option.some.inj (hl.symm.trans hk)
    -- a closed listener tracks nothing that waits, so only the gone client is left
    rcases hp.accepted_cases.2.2 with hw | ⟨rfl, rfl⟩
    · rw [(ho.drained l hl hc).1] at hw
      simp at hw
    · exact ⟨he, by simp [ht], hi, hcon⟩
  · rintro ⟨rfl, ht, rfl, hcon⟩
    obtain ⟨rest, ht⟩ := List.head?_eq_some_iff.mp ht
    have hstep : s.step (.reply (.connect .noData)) =
        { s.note (.replied (.connect .noData)) with listener := some l }.advance rest
          (.accepted c.handle) := by
      simp [State.step, State.reply, ht, Task.takes, hl, State.resume, State.advanceWith,
        Listener.afterConnect]
    rw [hstep] at hn
    refine (State.mem_advance_note rfl (by simp) hn).mpr ?_
    exact congrArg (fun c => some (Outcome.accepted s.connections.length c)) hcon.symm

/-- After a close of the listener, even one that still goes on, an accept succeeds just when its
client is found to be gone again, and what it hands out then is a handle that was given back. -/
theorem accept_after_close_succeeds_iff_noData (name : String) (config : PipeConfig)
    (before after : List Event)
    (hmade : ((State.construct name config).run before).listener.isSome)
    (hkept : ((State.construct name config).run before).dropped = false)
    (hf : account.OpensFresh
      ((State.construct name config).run (before ++ .start .close :: after)).history) :
    let s := (State.construct name config).run (before ++ .start .close :: after)
    ∀ e i c,
      (.finished (.accepted i c) ∈ s.news e ↔
        e = .reply (.connect .noData) ∧ s.tasks.head? = some (.connecting c.handle) ∧
          i = s.connections.length ∧ c = ⟨c.handle, .pipe, s.config.strictLength⟩) ∧
      (.finished (.accepted i c) ∈ s.news e → ¬ account.IsOpen s.history c.handle) := by
  intro s e i c
  have ho₀ := orderly_construct name config
  have hb₀ := books_construct name config
  have ho : Orderly s := ho₀.run _
  have hb : Books s := hb₀.run ho₀ _ hf
  have ha : Attended s := (attended_construct name config).run ho₀ hb₀ _ hf
  have hclosed : s.IsClosed := by
    obtain ⟨l, hl⟩ := Option.isSome_iff_exists.mp hmade
    have hrun :
        s = (((State.construct name config).run before).step (.start .close)).run after := by
      simp [s, State.run]
    rw [hrun]
    refine Orderly.isClosed_run ?_ (State.isClosed_start_close hl hkept) after
    exact (ho₀.run before).turn ((ho₀.run before).turn_step _)
  refine ⟨ho.accepted_iff hclosed e i c, fun hm hopen => ?_⟩
  obtain ⟨l, hl, hc⟩ := hclosed
  exact absurd (((open_of_accepted ha ho hb hm).mp hopen) l hl) (by simp [hc])

/-- The listener is closed from inside the connect of an accept, whose client is gone again. -/
theorem closed_during_connect_of_gone_client :
    let s := (State.construct "p" .default).run
      [.reply (.created (.ok ⟨1⟩)), .reply (.done (.ok ())), .start .accept,
        .reply (.created (.ok ⟨2⟩)), .start .close, .reply (.done (.ok ())),
        .reply (.done (.ok ())), .reply (.done (.ok ()))]
    .finished (.accepted 0 ⟨⟨2⟩, .pipe, false⟩) ∈ s.news (.reply (.connect .noData)) ∧
      ¬ account.IsOpen s.history ⟨2⟩ := by
  have h := accept_after_close_succeeds_iff_noData "p" .default
    [.reply (.created (.ok ⟨1⟩)), .reply (.done (.ok ())), .start .accept,
      .reply (.created (.ok ⟨2⟩))]
    [.reply (.done (.ok ())), .reply (.done (.ok ())), .reply (.done (.ok ()))]
    rfl rfl (by decide) (.reply (.connect .noData)) 0 ⟨⟨2⟩, .pipe, false⟩
  have hm := h.1.mpr ⟨rfl, rfl, rfl, rfl⟩
  exact ⟨hm, h.2 hm⟩

end LocalIpc.Pipe

import LocalIpc.Proofs.Pipe.Accepting
/-!
# The handles that native calls work on

A native call works on a handle that is open when the call is made, with one exception: after a
close that ran inside the connect of an accept, the accept still waits for the client of a pending
connect, on an instance that the close has given back.
-/

namespace LocalIpc.Pipe

/-- The handle that a call works on. A call to close gives its handle back instead. -/
def Call.uses : Call → Option Handle
  | connect h | wait h | cancel h | quiesce h _ | disconnect h => some h
  | createLock .. | create .. | close _ => none

/-! ## The call that a step makes -/

/-- Away from accepts, what a call works on is what its task still has to close. -/
theorem Task.owes_of_uses {t : Task} {path : String} {config : PipeConfig} {h : Handle}
    (hp : t.pending = []) (hu : (t.call path config).uses = some h) (lock : Option Handle) :
    h ∈ t.owes lock ∧ t.call path config ≠ .wait h := by
  cases t with
  | releasing call k next => cases call <;> simp_all [Task.call, Call.uses]
  | connecting k | waiting k => simp at hp
  | _ => simp_all [Task.call, Call.uses]

theorem Task.closing?_of_uses {t : Task} {path : String} {config : PipeConfig} {h : Handle}
    (hu : (t.call path config).uses = some h) : t.closing? = none := by
  cases t with
  | releasing call k next => cases call <;> simp_all [Task.call, Call.uses]
  | _ => simp_all [Task.call, Call.uses]

/-- An accept connects while the listener is open. Once its connect is pending it waits without
looking at the listener again. -/
theorem Part.waits_cases {l l' : Listener} {old : Option Task} {r : Option Reply} {t : Task}
    (h : Part l old r (.waits t) l') :
    t.pending = [] ∨ (∃ k, t = .connecting k ∧ l'.closed = false) ∨
      ∃ k, t = .waiting k ∧ l' = l := by
  generalize hp : Progress.waits t = p at h
  have hnil : ∀ {next m}, Next m next p l' → t.pending = [] := by
    intro next m hn
    simpa [← hp] using hn.pending_eq_nil
  cases h with
  | close quiet p l' hc hn => exact .inl (hnil hn)
  | released k next r p l' hn => exact .inl (hnil hn)
  | created k hc =>
    obtain rfl := Progress.waits.inj hp
    exact .inr (.inl ⟨k, rfl, hc⟩)
  | pending k =>
    obtain rfl := Progress.waits.inj hp
    exact .inr (.inr ⟨k, rfl, rfl⟩)
  | closeClosed quiet hc => cases quiet <;> simp at hp
  | unlocked lock e quiet r =>
    have := Listener.task?_afterLock e quiet r
    simp [← hp] at this
  | _ => simp_all

namespace State

variable {s : State} {rest : List Task} {p : Progress}

/-- The one call that a part of an operation may make comes last, and the innermost task waits in
it. -/
theorem advance_call (s : State) (rest : List Task) (p : Progress) :
    ∃ new : Option Task, (s.advance rest p).history = s.history ++
        ((s.told p).toList.map .finished ++
          (new.map fun t => Entry.called (t.call s.path s.config)).toList) ∧
      ∀ t ∈ new, (s.advance rest p).tasks.head? = some t ∧ (p = .waits t ∨ t.pending = []) := by
  -- an operation that ends may let the listener go, and then its close begins
  have hfinish : ∀ (m : State) (o : Outcome), ∃ new : Option Task, (m.finish o).history =
      m.history ++ ([.finished o] ++
        (new.map fun t => Entry.called (t.call m.path m.config)).toList) ∧
      ∀ t ∈ new, (m.finish o).tasks.head? = some t ∧ t.pending = [] := by
    intro m o
    unfold finish
    rcases (m.note (.finished o)).closeUnheld_cases with
      ⟨heq, -⟩ | ⟨l, t, l', hl, hu, hp, hc, heq⟩ <;> rw [heq]
    · exact ⟨none, by simp [note], by simp⟩
    · refine ⟨some t, by simp [push, note], fun u hu => ?_⟩
      obtain rfl := Option.some.inj hu
      exact ⟨rfl, by simpa using hp.begun.1⟩
  have hends : ∀ (m : State) (o : Outcome), m.history = s.history → m.path = s.path →
      m.config = s.config → ∃ new : Option Task, (m.finish o).history = s.history ++
        ([.finished o] ++ (new.map fun t => Entry.called (t.call s.path s.config)).toList) ∧
      ∀ t ∈ new, (m.finish o).tasks.head? = some t ∧ (p = .waits t ∨ t.pending = []) := by
    intro m o hh hpath hconfig
    obtain ⟨new, hnew, htasks⟩ := hfinish m o
    rw [hh, hpath, hconfig] at hnew
    exact ⟨new, hnew, fun t ht => (htasks t ht).imp_right .inr⟩
  cases p with
  | waits t =>
    refine ⟨some t, by simp [advance, push, note, told], fun u hu => ?_⟩
    obtain rfl := Option.some.inj hu
    exact ⟨rfl, .inl rfl⟩
  | accepted h =>
    exact hends { s with tasks := rest, connections := s.connections ++ [some _] } _ rfl rfl rfl
  | done => exact hends { s with tasks := rest } _ rfl rfl rfl
  | failed e => exact hends { s with tasks := rest } _ rfl rfl rfl
  | _ => exact ⟨none, by simp [advance, told], by simp⟩

end State

/-- What comes last is known, where the rest is known to be something else. -/
theorem eq_of_append_cons {α : Type} {pre post plain : List α} {x : α} {last : Option α}
    (h : plain ++ last.toList = pre ++ x :: post) (hx : x ∉ plain) : last = some x ∧ post = [] := by
  cases last with
  | none =>
    rw [Option.toList_none, List.append_nil] at h
    exact absurd (h ▸ List.mem_append_right _ (List.mem_cons_self ..)) hx
  | some y =>
    rcases List.eq_nil_or_concat post with rfl | ⟨post, z, rfl⟩
    · obtain ⟨-, rfl⟩ := List.append_singleton_inj.mp h
      exact ⟨rfl, rfl⟩
    · have h : plain ++ [y] = (pre ++ x :: post) ++ [z] := by simpa using h
      obtain ⟨rfl, -⟩ := List.append_singleton_inj.mp h
      exact absurd (List.mem_append_right _ (List.mem_cons_self ..)) hx

section Calls

variable {s s' : State} {e : Event} {c : Call} {pre post : List Entry}

/-- Why a step leaves the task `t` in a call: it is no part of an accept, or an accept of the open
listener connects, or it has found its connect pending. -/
def Calls (s s' : State) (t : Task) : Prop :=
  t.pending = [] ∨
    (∃ k l, t = .connecting k ∧ s'.listener = some l ∧ l.closed = false) ∨
    ∃ k l, t = .waiting k ∧ s'.listener = some l ∧ s.listener = some l

/-- The call of a step is that of its innermost task. -/
theorem Turn.called (ht : Turn s e s') (hn : s'.history = s.history ++ (pre ++ .called c :: post)) :
    post = [] ∧ ∃ t path config, s'.tasks.head? = some t ∧ c = t.call path config ∧
      Calls s s' t := by
  have hadvance : ∀ {m : State} {first : Entry} {rest : List Task} {p : Progress},
      s' = m.advance rest p → m.history = s.history ++ [first] → (∀ c, first ≠ .called c) →
      (∀ t, p = .waits t → Calls s m t) →
      post = [] ∧ ∃ t path config, s'.tasks.head? = some t ∧ c = t.call path config ∧
        Calls s s' t := by
    -- what a part adds ends with the call, if it makes one
    intro m first rest p heq hm hfirst hp
    subst heq
    obtain ⟨new, hnew, htasks⟩ := m.advance_call rest p
    rw [hnew, hm, List.append_assoc, List.append_cancel_left_eq, ← List.append_assoc] at hn
    obtain ⟨hlast, hpost⟩ := eq_of_append_cons hn (by simp [(hfirst c).symm])
    obtain ⟨t, rfl, hc⟩ := Option.map_eq_some_iff.mp hlast
    obtain ⟨htop, hor⟩ := htasks t rfl
    refine ⟨hpost, t, m.path, m.config, htop, (Entry.called.inj hc).symm, ?_⟩
    rcases hor with rfl | hnil
    · exact hp t rfl
    · exact .inl hnil
  cases ht with
  | nothing r => simp at hn
  | gone op =>
    have hn : [Entry.began op, .finished .gone] = pre ++ .called c :: post := by
      simpa [State.note] using hn
    have : Entry.called c ∈ [Entry.began op, .finished .gone] :=
      hn ▸ List.mem_append_right _ (List.mem_cons_self ..)
    simp at this
  | started op l l' p dropped hl hp hsame hdrop hkeep =>
    refine hadvance rfl rfl (by simp) fun t heq => .inl ?_
    simpa [heq] using hp.begun.1
  | letGo op i k l quiet hl hk =>
    refine hadvance rfl rfl (by simp) fun t heq => .inl ?_
    simpa [heq] using (l.part_beginRelease k.handle quiet).begun.1
  | resumed t r rest l l' p hl htasks hp =>
    refine hadvance rfl rfl (by simp) fun u heq => ?_
    subst heq
    rcases hp.waits_cases with hnil | ⟨k, rfl, hopen⟩ | ⟨k, rfl, rfl⟩
    · exact .inl hnil
    · exact .inr (.inl ⟨k, l', rfl, rfl, hopen⟩)
    · exact .inr (.inr ⟨k, l', rfl, rfl, hl⟩)
  | lockMade k hl htasks | notReset k e hl htasks =>
    refine hadvance rfl rfl (by simp) fun t heq => .inl ?_
    obtain rfl := Progress.waits.inj heq
    rfl
  | notMade | made | givenUp => exact hadvance rfl rfl (by simp) (by simp)

end Calls

/-! ## What a call works on is open -/

/-- In every run, a native call works on an open handle just when it is not a wait that comes after
the listener was closed. -/
theorem call_uses_open_handle_iff (name : String) (config : PipeConfig) (es : List Event)
    (e : Event) (hf : account.OpensFresh ((State.construct name config).run (es ++ [e])).history) :
    let s := (State.construct name config).run es
    ∀ pre c post h, s.news e = pre ++ .called c :: post → c.uses = some h →
      (account.IsOpen (s.history ++ pre) h ↔ ¬ (c = .wait h ∧ s.IsClosed)) := by
  intro s pre c post h hnews huses
  have ho₀ := orderly_construct name config
  have hb₀ := books_construct name config
  have ho : Orderly s := ho₀.run es
  have hrun : (State.construct name config).run (es ++ [e]) = s.step e := by simp [s, State.run]
  have hb : Books (s.step e) := hrun ▸ hb₀.run ho₀ _ hf
  have ha : Attended (s.step e) := hrun ▸ (attended_construct name config).run ho₀ hb₀ _ hf
  have ho' : Orderly (s.step e) := ho.turn (ho.turn_step e)
  have hn := ho.history_step e
  rw [hnews] at hn
  obtain ⟨rfl, t, path, cfg, htop, rfl, hcalls⟩ := (ho.turn_step e).called hn
  obtain ⟨rest, htasks⟩ := List.head?_eq_some_iff.mp htop
  -- what is open when the call is made is what is owed after it
  have hclose : account.closes (.called (t.call path cfg)) = none := by
    rw [closes_called, Task.closing?_of_uses huses]
  rw [← Account.isOpen_snoc account (e := .called (t.call path cfg)) rfl hclose, List.append_assoc,
    ← hn, hb.isOpen_iff]
  rcases hcalls with hnil | ⟨k, l, rfl, hl, hopen⟩ | ⟨k, l, rfl, hl, hl₀⟩
  · obtain ⟨hmem, hwait⟩ := Task.owes_of_uses hnil huses (s.step e).lock?
    refine ⟨fun _ hw => hwait hw.1, fun _ => List.mem_append_left _ ?_⟩
    exact List.mem_flatMap.mpr ⟨t, htasks ▸ List.mem_cons_self .., hmem⟩
  · obtain rfl := Option.some.inj huses
    rw [mem_owed_iff_open ha ho' hl htasks rfl rfl]
    simp [Task.call, hopen]
  · obtain rfl := Option.some.inj huses
    rw [mem_owed_iff_open ha ho' hl htasks rfl rfl]
    simp [Task.call, State.IsClosed, hl₀]

/-- The listener is closed from inside the connect of an accept, and the connect is still pending
then. -/
theorem pending_connect_waits_on_closed_handle :
    let s := (State.construct "p" .default).run
      [.reply (.created (.ok ⟨1⟩)), .reply (.done (.ok ())), .start .accept,
        .reply (.created (.ok ⟨2⟩)), .start .close, .reply (.done (.ok ())),
        .reply (.done (.ok ())), .reply (.done (.ok ()))]
    s.news (.reply (.connect .pending)) =
        [.replied (.connect .pending)] ++ .called (.wait ⟨2⟩) :: [] ∧
      ¬ account.IsOpen (s.history ++ [.replied (.connect .pending)]) ⟨2⟩ := by
  intro s
  have h := call_uses_open_handle_iff "p" .default
    [.reply (.created (.ok ⟨1⟩)), .reply (.done (.ok ())), .start .accept,
      .reply (.created (.ok ⟨2⟩)), .start .close, .reply (.done (.ok ())),
      .reply (.done (.ok ())), .reply (.done (.ok ()))]
    (.reply (.connect .pending)) (by decide) [.replied (.connect .pending)] (.wait ⟨2⟩) [] ⟨2⟩
    rfl rfl
  exact ⟨rfl, fun hopen => h.mp hopen ⟨rfl, _, rfl, rfl⟩⟩

end LocalIpc.Pipe

import LocalIpc.Proofs.Pipe.Bookkeeping
/-!
# The registry and the accepts of a run

An accept that runs on its own goes from stage to stage, and leaves the registry as the stage says.
Once the listener is closed nothing is tracked any more. So where no operation is under way, the
registry is what the accepts and the connections so far have made of it.
-/

namespace LocalIpc.Pipe

/-! ## An accept on its own -/

/-- How far an accept has come from the open listener `l` when nothing else goes on: the instance
that it has made, the task that it waits in, the listener, and what it came to. -/
inductive AcceptStage (l : Listener) : Option Handle → List Task → Listener → Option Outcome → Prop
  | creating : AcceptStage l none [.creating] l none
  | notCreated (e : IoError) : AcceptStage l none [] l (some (.failed (.native .pipeCreate e)))
  | connecting (h : Handle) (hw : h ∉ l.registry.waiting) (ho : h ∉ l.registry.handedOut) :
      AcceptStage l (some h) [.connecting h] { l with registry := (l.registry.enroll h).2 } none
  | waiting (h : Handle) (hw : h ∉ l.registry.waiting) (ho : h ∉ l.registry.handedOut) :
      AcceptStage l (some h) [.waiting h] { l with registry := (l.registry.enroll h).2 } none
  | handedOut (h : Handle) (i : Nat) (c : Connection) (hw : h ∉ l.registry.waiting)
      (ho : h ∉ l.registry.handedOut) :
      AcceptStage l (some h) []
        { l with registry := ((l.registry.enroll h).2.handOut h).2 } (some (.accepted i c))
  | gone (h : Handle) (i : Nat) (c : Connection) (hw : h ∉ l.registry.waiting)
      (ho : h ∉ l.registry.handedOut) :
      AcceptStage l (some h) [] { l with registry := (l.registry.enroll h).2 }
        (some (.accepted i c))
  | notConnected (h : Handle) (e : IoError) (hw : h ∉ l.registry.waiting)
      (ho : h ∉ l.registry.handedOut) :
      AcceptStage l (some h) [] { l with registry := (l.registry.enroll h).2 }
        (some (.failed (.native .pipeConnect e)))
  | givingBack (h : Handle) (call : ReleaseCall) (e : IoError)
      (hcall : call = .cancel ∨ call = .close) :
      AcceptStage l (some h) [.releasing call h (.refuse (.native .pipeWait e))] l none
  | notConnectedInTime (h : Handle) (e : IoError) :
      AcceptStage l (some h) [] l (some (.failed (.native .pipeWait e)))

/-- What is put in and taken out again leaves the set as it was. -/
theorem HandleSet.remove_insert {h : Handle} {g : HandleSet} (hg : h ∉ g) :
    HandleSet.remove h (HandleSet.insert h g) = g := by
  induction g with
  | nil => simp [HandleSet.insert, HandleSet.remove]
  | cons x g ih =>
    simp only [List.mem_cons, not_or] at hg
    have hx : x ≠ h := fun heq => hg.1 heq.symm
    have hrest := HandleSet.remove_of_not_mem (h := h) (s := x :: g) (by simp [hg])
    unfold HandleSet.remove at ih hrest ⊢
    unfold HandleSet.insert
    split
    · rw [List.filter_cons_of_neg (by simp), hrest]
    · rw [if_neg hg.1, List.filter_cons_of_pos (by simp [hx]), ih hg.2]

/-- An instance that is enrolled and struck leaves the registry as it was. -/
theorem Registry.strike_enroll {g : Registry} {h : Handle} (hw : h ∉ g.waiting)
    (ho : h ∉ g.handedOut) : ((g.enroll h).2.strikeWaiting h).2 = g := by
  simp [Registry.enroll, Registry.isWaiting, Registry.isHandedOut, hw, ho, Registry.strikeWaiting,
    HandleSet.remove_insert hw]

namespace AcceptStage

variable {l l' : Listener} {made : Option Handle} {tasks : List Task} {o : Option Outcome}

/-- An accept whose create or wait failed has changed nothing. -/
theorem registry_of_failed (h : AcceptStage l made tasks l' o) {e : IoError}
    (ho : o = some (.failed (.native .pipeCreate e)) ∨ o = some (.failed (.native .pipeWait e))) :
    l'.registry = l.registry := by
  cases h <;> simp_all

/-- No accept changes more than its own instance. -/
theorem mem_iff (h : AcceptStage l made tasks l' o) {k : Handle} (hk : made ≠ some k) :
    (k ∈ l'.registry.waiting ↔ k ∈ l.registry.waiting) ∧
      (k ∈ l'.registry.handedOut ↔ k ∈ l.registry.handedOut) := by
  have henroll : ∀ {j}, some j ≠ some k → j ∉ l.registry.waiting → j ∉ l.registry.handedOut →
      (k ∈ (l.registry.enroll j).2.waiting ↔ k ∈ l.registry.waiting) := by
    intro j hj hw ho
    rw [Registry.waiting_enroll hw ho, HandleSet.mem_insert]
    exact or_iff_right fun heq => hj (congrArg some heq.symm)
  cases h with
  | creating | notCreated | givingBack | notConnectedInTime => exact ⟨.rfl, .rfl⟩
  | connecting j hw ho | waiting j hw ho | gone j i c hw ho | notConnected j e hw ho =>
    exact ⟨henroll hk hw ho, by rw [Registry.handedOut_enroll]⟩
  | handedOut j i c hw ho =>
    have hne : k ≠ j := fun heq => hk (congrArg some heq.symm)
    have hwaits : (l.registry.enroll j).2.isWaiting j = true := by
      simp [Registry.isWaiting, Registry.waiting_enroll hw ho, HandleSet.mem_insert]
    simp only [Registry.handOut, hwaits, if_true, HandleSet.mem_remove, HandleSet.mem_insert,
      Registry.handedOut_enroll, henroll hk hw ho]
    simp [hne]

/-- The accept goes on from stage to stage. -/
theorem part {t : Task} {rest : List Task} {r : Reply} {p : Progress} {l₂ : Listener}
    (h : AcceptStage l made (t :: rest) l' o) (hp : Part l' (some t) (some r) p l₂)
    (hopen : l.closed = false) (hf : ∀ k ∈ r.brings, k ∉ l'.owes) (m : State) :
    rest = [] ∧ o = none ∧ ∃ made', AcceptStage l made' p.task?.toList l₂ (m.told p) ∧
      ∀ k, made' = some k → made = some k ∨ r = .created (.ok k) := by
  cases h with
  | creating =>
    refine ⟨rfl, rfl, ?_⟩
    cases hp with
    | createFailed e => exact ⟨none, .notCreated e, by simp⟩
    | created k hc =>
      have hk := hf k (by simp)
      simp only [Listener.owes, List.mem_append, not_or] at hk
      exact ⟨some k, .connecting k hk.2.1 hk.2.2, by simp⟩
    | createdLate k hc hh | createdKnown k hc hh => simp [hopen] at hc
    | delivered _ _ k ha | missed _ _ k ha => cases ha
  | connecting k hw ho =>
    refine ⟨rfl, rfl, some k, ?_, fun j hj => .inl hj⟩
    have hwaits : k ∈ (l.registry.enroll k).2.waiting := by
      simp [Registry.waiting_enroll hw ho, HandleSet.mem_insert]
    cases hp with
    | delivered _ _ j ha hh => cases ha <;> exact .handedOut k _ _ hw ho
    | missed _ _ j ha hh => cases ha <;> exact absurd hwaits hh
    | noData => exact .gone k _ _ hw ho
    | pending => exact .waiting k hw ho
    | connectFailed _ e => exact .notConnected k e hw ho
  | waiting k hw ho =>
    refine ⟨rfl, rfl, some k, ?_, fun j hj => .inl hj⟩
    have hwaits : k ∈ (l.registry.enroll k).2.waiting := by
      simp [Registry.waiting_enroll hw ho, HandleSet.mem_insert]
    cases hp with
    | delivered _ _ j ha hh => cases ha; exact .handedOut k _ _ hw ho
    | missed _ _ j ha hh => cases ha; exact absurd hwaits hh
    | waitFailed _ e hh =>
      -- the instance is struck before it is given back
      rw [Registry.strike_enroll hw ho]
      exact .givingBack k .cancel e (.inl rfl)
    | waitFailedLate _ e hh => exact absurd hwaits hh
  | givingBack k call e hcall =>
    refine ⟨rfl, rfl, some k, ?_, fun j hj => .inl hj⟩
    cases hp with
    | delivered _ _ j ha | missed _ _ j ha => cases ha
    | quiesced => simp at hcall
    | calmed => exact .givingBack k .close e (.inr rfl)
    | released _ _ r _ _ hn =>
      cases hn with
      | refuse => exact .notConnectedInTime k e

end AcceptStage

/-- From `s` on, where the listener was `l`, nothing but one accept was begun. -/
structure Solo (s : State) (l : Listener) (t : State) : Prop where
  held : t.dropped = false
  staged : ∃ made l' o new, t.listener = some l' ∧ AcceptStage l made t.tasks l' o ∧
    t.history = s.history ++ new ∧ (∀ h, made = some h → .replied (.created (.ok h)) ∈ new) ∧
    ∀ x, .finished x ∈ new → o = some x

section Alone

variable {s t : State} {l : Listener}

/-- While somebody uses the listener, what an operation comes to is all that happens. -/
theorem State.advance_held {m : State} (hd : m.dropped = false) (rest : List Task) (p : Progress) :
    (m.advance rest p).listener = m.listener ∧
      (m.advance rest p).tasks = p.task?.toList ++ rest := by
  have hend : ∀ (n : State) (o : Outcome), n.dropped = false →
      (n.finish o).listener = n.listener ∧ (n.finish o).tasks = n.tasks := by
    intro n o hn
    rcases (n.note (.finished o)).closeUnheld_cases with ⟨heq, -⟩ | ⟨k, u, l', -, hu, -, -, -⟩
    · rw [finish, heq]
      exact ⟨rfl, rfl⟩
    · simp [isUnheld, note, hn] at hu
  cases p with
  | accepted h =>
    exact hend { m with tasks := rest, connections := m.connections ++ [some _] } _ hd
  | done | failed => exact hend { m with tasks := rest } _ hd
  | _ => exact ⟨rfl, rfl⟩

theorem Solo.begin (hl : s.listener = some l) (hopen : l.closed = false) (ht : s.tasks = [])
    (hd : s.dropped = false) : Solo s l (s.step (.start .accept)) := by
  have hstep : s.step (.start .accept) =
      ({ s.note (.began .accept) with tasks := [] } : State).push .creating := by
    simp [State.step, State.start, State.note, hl, hd, State.startOn, Listener.beginAccept, hopen,
      State.advance, ht]
  rw [hstep]
  refine ⟨hd, none, l, none, _, hl, .creating, List.append_assoc .., ?_, ?_⟩
  · simp
  · simp

theorem Solo.reply (h : Solo s l t) (hopen : l.closed = false) (ho : Orderly t) (hb : Books t)
    (r : Reply) (hf : account.OpensFresh (t.step (.reply r)).history) :
    Solo s l (t.step (.reply r)) := by
  obtain ⟨hd, made, l', o, new, hl', hstage, hnew, hmade, htold⟩ := h
  have hturn := ho.turn_step (.reply r)
  have hdrop := State.dropped_step ho (.reply r) (by simp)
  generalize t.step (.reply r) = t' at hturn hdrop hf
  refine ⟨hdrop.trans hd, ?_⟩
  cases hturn with
  | nothing r => exact ⟨made, l', o, new, hl', hstage, hnew, hmade, htold⟩
  | resumed task r rest k l₂ p hk htasks hp =>
    obtain rfl : l' = k := Option.some.inj (hl'.symm.trans hk)
    have hfresh := hb.not_owes_of_brings hk rfl hf
    rw [htasks] at hstage
    obtain ⟨rfl, rfl, made', hstage', hmade'⟩ := hstage.part hp hopen hfresh t
    obtain ⟨hlist, htasks'⟩ := State.advance_held
      (m := { t.note (.replied r) with listener := some l₂ }) hd [] p
    obtain ⟨calls, hcalls⟩ := State.advance_history
      { t.note (.replied r) with listener := some l₂ } [] p
    refine ⟨made', l₂, t.told p, new ++ [.replied r] ++ ((t.told p).toList.map .finished ++
      calls.map .called), hlist, ?_, ?_, fun j hj => ?_, fun x hx => ?_⟩
    · rwa [htasks', List.append_nil]
    · rw [hcalls]
      simp [State.note, hnew, State.told]
    · rcases hmade' j hj with hj | rfl
      · simp [hmade j hj]
      · simp
    · have hx : .finished x ∈ new ∨ t.told p = some x := by simpa [eq_comm] using hx
      exact hx.resolve_left fun hx => by simpa using htold x hx
  | lockMade k hl | notMade k hl | made k u hl | notReset k e hl | givenUp k e r hl =>
    simp [hl] at hl'

theorem Solo.run (h : Solo s l t) (hopen : l.closed = false) (ho : Orderly t) (hb : Books t)
    (rs : List Reply) (hf : account.OpensFresh (t.run (rs.map .reply)).history) :
    Solo s l (t.run (rs.map .reply)) := by
  induction rs generalizing t with
  | nil => exact h
  | cons r rs ih =>
    have ht := ho.turn_step (.reply r)
    have hf' := hf.of_prefix ((ho.turn ht).history_run _)
    exact ih (h.reply hopen ho hb r hf') (ho.turn ht) (hb.turn ht hf') hf

end Alone

/-! ## After a close -/

/-- The listener is closed and tracks nothing, and no operation is under way. -/
structure Idle (s : State) : Prop where
  settled : s.tasks = []
  empty : ∃ l, s.listener = some l ∧ l.closed = true ∧ l.registry = .empty

section Closed

variable {s s' : State} {e : Event} {l l' : Listener} {p : Progress}

theorem Orderly.idle (ho : Orderly s) (hl : s.listener = some l) (hc : l.closed = true)
    (ht : s.tasks = []) : Idle s := by
  obtain ⟨hw, hout⟩ := ho.drained l hl hc
  have hout : l.registry.handedOut = [] := by simpa [ht] using hout
  refine ⟨ht, l, hl, hc, ?_⟩
  rcases hr : l.registry with ⟨waiting, handedOut⟩
  simp_all [Registry.empty]

theorem State.closeUnheld_closed (hl : s.listener = some l) (hc : l.closed = true) :
    s.closeUnheld = s := by
  have hsame : { s with listener := some l } = s := by rw [← hl]
  simp [closeUnheld, hl, Listener.beginClose, hc, hsame]

/-- Whatever begins on a closed listener that tracks nothing is over at once. -/
theorem Part.idle (h : Part l none none p l') (hc : l.closed = true)
    (hr : l.registry = .empty) : l' = l ∧ p.task? = none := by
  cases h with
  | accept hopen | close quiet p l' hopen => simp [hopen] at hc
  | releaseHandedOut k quiet hh | releaseWaiting k quiet hh => simp [hr, Registry.empty] at hh
  | closeClosed quiet => cases quiet <;> exact ⟨rfl, rfl⟩
  | _ => exact ⟨rfl, rfl⟩

theorem idle_advance {m : State} (hl : m.listener = some l) (hc : l.closed = true)
    (hr : l.registry = .empty) (hp : p.task? = none) : Idle (m.advance [] p) := by
  have hend : ∀ {n : State}, n.listener = some l → n.tasks = [] → Idle n.closeUnheld := by
    intro n hn ht
    rw [State.closeUnheld_closed hn hc]
    exact ⟨ht, l, hn, hc, hr⟩
  cases p with
  | waits t => simp at hp
  | accepted k => exact hend hl rfl
  | done => exact hend hl rfl
  | failed e => exact hend hl rfl
  | _ => exact ⟨rfl, l, hl, hc, hr⟩

theorem Idle.turn (h : Idle s) (ht : Turn s e s') : Idle s' := by
  obtain ⟨hnil, l, hl, hc, hr⟩ := h
  cases ht with
  | nothing r => exact ⟨hnil, l, hl, hc, hr⟩
  | gone op => exact ⟨hnil, l, hl, hc, hr⟩
  | started op k l' p dropped hk hp =>
    obtain rfl := Option.some.inj (hl.symm.trans hk)
    obtain ⟨rfl, htask⟩ := hp.idle hc hr
    rw [hnil]
    exact idle_advance rfl hc hr htask
  | letGo op i c k quiet hk =>
    obtain rfl := Option.some.inj (hl.symm.trans hk)
    obtain ⟨heq, htask⟩ := (l.part_beginRelease c.handle quiet).idle hc hr
    rw [hnil, heq]
    exact idle_advance rfl hc hr htask
  | resumed t r rest k l' p hk htasks => simp [hnil] at htasks
  | lockMade k hk | notMade e hk | made k u hk | notReset k e hk | givenUp k e r hk =>
    simp [hl] at hk

theorem Idle.run (h : Idle s) (ho : Orderly s) (es : List Event) : Idle (s.run es) :=
  ho.run_keeps h (fun _ hm ht => hm.turn ht) es

/-- There is nothing left that a connection could give back. -/
theorem Idle.news_letGo (h : Idle s) {op : Operation} {i : Nat} {c : Connection}
    (hop : op.connection? = some i) (hc : s.connection? i = some c) :
    s.news (.start op) = [.began op, .finished .done] := by
  obtain ⟨hnil, l, hl, hclosed, hr⟩ := h
  obtain ⟨quiet, hstep⟩ := State.step_letGo (s := s) hop
  have hrelease : l.beginRelease c.handle quiet = (.done, l) := by
    simp [Listener.beginRelease, hr, Registry.isHandedOut, Registry.isWaiting, Registry.empty]
  have hhistory : (s.step (.start op)).history = s.history ++ [.began op, .finished .done] := by
    rw [hstep, State.letGo_eq (s := s.note (.began op)) hl hc, hrelease]
    simp only [State.advanceWith, State.advance, State.finish]
    rw [State.closeUnheld_closed (l := l) rfl hclosed]
    simp [State.note]
  rw [State.news, hhistory, List.drop_left]

end Closed

/-! ## The registry and the accepts of a run -/

/-- What the run of `start` over `es` makes of the registry, where no operation is under way after
it. -/
structure Reconciled (start : State) (es : List Event) : Prop where
  /-- Handed out are the instances of the connections in use whose connect was completed. -/
  handedOut : ∀ l, (start.run es).listener = some l → l.closed = false →
    ∀ h, h ∈ l.registry.handedOut ↔
      (start.run es).Holds (fun i c => start.Sometime es (State.Completes i c)) h
  /-- Those wait that could not be connected, and those of the connections in use whose client was
  gone. -/
  waiting : ∀ l, (start.run es).listener = some l → l.closed = false →
    ∀ h, h ∈ l.registry.waiting ↔ start.Sometime es (State.FailsConnect h) ∨
      (start.run es).Holds (fun i c => start.Sometime es (State.FindsGone i c)) h
  /-- The next accept changes no more than its own instance, and nothing when its create or its wait
  fails. -/
  accepts : ∀ l, (start.run es).listener = some l → l.closed = false → ∀ rs : List Reply,
    let t := (start.run es).run (.start .accept :: rs.map .reply)
    let new := t.history.drop (start.run es).history.length
    account.OpensFresh t.history → ∃ l', t.listener = some l' ∧
      (∀ e, .finished (.failed (.native .pipeCreate e)) ∈ new ∨
          .finished (.failed (.native .pipeWait e)) ∈ new → l'.registry = l.registry) ∧
      ∀ h, .replied (.created (.ok h)) ∉ new →
        (h ∈ l'.registry.waiting ↔ h ∈ l.registry.waiting) ∧
          (h ∈ l'.registry.handedOut ↔ h ∈ l.registry.handedOut)
  /-- Once the listener is closed nothing is tracked any more, and to let a connection go takes no
  native call. -/
  closed : ∀ l, (start.run es).listener = some l → l.closed = true → ∀ later,
    let t := (start.run es).run later
    (∃ l', t.listener = some l' ∧ l'.registry = .empty) ∧
      ∀ op i c, op.connection? = some i → t.connection? i = some c →
        t.news (.start op) = [.began op, .finished .done]

/-- In every run that makes only handles that are not open, the registry is what the accepts and
the connections so far have made of it, whenever no operation is under way. -/
theorem registry_reconciled (name : String) (config : PipeConfig) (es : List Event)
    (hf : account.OpensFresh ((State.construct name config).run es).history)
    (ht : ((State.construct name config).run es).tasks = []) :
    Reconciled (State.construct name config) es := by
  have ho₀ := orderly_construct name config
  have ho := ho₀.run es
  have hb := (books_construct name config).run ho₀ es hf
  have hkept := bookkept_run name config es hf
  refine { handedOut := ?handedOut, waiting := ?waiting, accepts := ?accepts, closed := ?closed }
  case handedOut =>
    intro l hl hc
    exact (hkept.entered l hl hc).handedOut
  case waiting =>
    intro l hl hc h
    rw [(hkept.entered l hl hc).waiting]
    simp [State.pending, ht]
  case accepts =>
    intro l hl hc rs t new hft
    -- nobody has let go of a listener that is open and idle
    have hd : ((State.construct name config).run es).dropped = false := by
      cases hd : ((State.construct name config).run es).dropped with
      | false => rfl
      | true => simpa [hc, ht] using ho.letGo l hl hd
    have hturn := ho.turn_step (.start .accept)
    have hf' := hft.of_prefix ((ho.turn hturn).history_run _)
    have hsolo := (Solo.begin hl hc ht hd).run hc (ho.turn hturn) (hb.turn hturn hf') rs hft
    obtain ⟨-, made, l', o, new', hl', hstage, hnew, hmade, htold⟩ := hsolo
    have hnew' : new = new' := by
      rw [show new = t.history.drop _ from rfl, show t.history = _ from hnew, List.drop_left]
    rw [hnew']
    refine ⟨l', hl', fun e he => ?_, fun h hh => ?_⟩
    · exact hstage.registry_of_failed (he.imp (htold _) (htold _))
    · exact hstage.mem_iff fun heq => hh (hmade h heq)
  case closed =>
    intro l hl hc later t
    have hidle := (ho.idle hl hc ht).run ho later
    obtain ⟨l', hl', -, hr⟩ := hidle.empty
    exact ⟨⟨l', hl', hr⟩, fun op i c hop hci => hidle.news_letGo hop hci⟩

/-- Four accepts: one is completed, one finds its client gone, one cannot connect its instance, and
one is completed on the handle of the first, whose connection was closed before. -/
theorem reused_handle_is_listed_again :
    let start := State.construct "p" .default
    let es : List Event := [.reply (.created (.ok ⟨1⟩)), .reply (.done (.ok ())),
      .start .accept, .reply (.created (.ok ⟨2⟩)), .reply (.connect .connected),
      .start .accept, .reply (.created (.ok ⟨3⟩)), .reply (.connect .noData),
      .start (.closeConnection 0), .reply (.done (.ok ())), .reply (.done (.ok ())),
      .reply (.done (.ok ())),
      .start .accept, .reply (.created (.ok ⟨4⟩)), .reply (.connect (.failed .badDescriptor)),
      .start .accept, .reply (.created (.ok ⟨2⟩)), .reply (.connect .pending),
      .reply (.done (.ok ()))]
    (start.run es).Holds (fun i c => start.Sometime es (State.Completes i c)) ⟨2⟩ ∧
      start.Sometime es (State.FailsConnect ⟨4⟩) := by
  intro start es
  have h := registry_reconciled "p" .default es (by decide) rfl
  refine ⟨(h.handedOut _ rfl rfl ⟨2⟩).mp (by decide), ?_⟩
  have hwaits := (h.waiting _ rfl rfl ⟨4⟩).mp (by decide)
  -- no connection works on the handle
  refine hwaits.resolve_right fun hh => ?_
  have hheld : (⟨4⟩ : Handle) ∉ (start.run es).held := by decide
  exact hheld hh.mem_held

end LocalIpc.Pipe

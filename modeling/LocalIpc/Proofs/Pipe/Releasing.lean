import LocalIpc.Proofs.Pipe.Calling
import LocalIpc.Proofs.Pipe.Standing
/-!
# How an instance is given back

What an instance went through decides how it is given back. One that no client was connected to is
cancelled, one that was handed out is disconnected, and only its own connection waits until its work
is over. That holds whatever runs inside the native calls and however those come out.
-/

namespace LocalIpc.Pipe

/-! ## Who waits until the work is over -/

/-- A connection gives its instance back, which the listener has handed out to it. -/
def State.LetsGo (i : Nat) (c : Connection) (s : State) (e : Event) : Prop :=
  ∃ op l, e = .start op ∧ op.connection? = some i ∧ s.connection? i = some c ∧
    s.listener = some l ∧ c.handle ∈ l.registry.handedOut

section Quiescing

variable {s m : State} {l l' : Listener} {t : Task} {rest : List Task} {p : Progress} {h : Handle}
  {timeout : Nat} {new : List Entry}

theorem Task.of_call_quiesce {path : String} {config : PipeConfig}
    (hc : t.call path config = .quiesce h timeout) :
    timeout = config.disconnectTimeout ∧ ∃ next, t = .releasing .quiesce h next := by
  cases t with
  | releasing call k next => cases call <;> simp_all [Task.call]
  | _ => simp [Task.call] at hc

theorem Next.ne_quiesce {after : After} (hn : Next l after p l') (next : After) :
    p ≠ .waits (.releasing .quiesce h next) := by
  cases hn <;> simp

/-- A close of the listener does not wait for the work of its instances. -/
theorem Listener.beginClose_ne_quiesce (l : Listener) (quiet : Bool) (next : After) :
    (l.beginClose quiet).1 ≠ .waits (.releasing .quiesce h next) := by
  intro heq
  unfold beginClose at heq
  split at heq
  · cases quiet <;> simp at heq
  · exact (next_proceed _ (.clearWaiting l.registry.waiting none quiet)).ne_quiesce next heq

theorem State.closeUnheld_ne_quiesce (hn : m.closeUnheld.history = m.history ++ new) :
    .called (.quiesce h timeout) ∉ new := by
  intro hmem
  unfold closeUnheld at hn
  split at hn
  · rename_i l hl
    split at hn
    · split at hn
      · rename_i t l' hb
        obtain rfl : [.called (t.call m.path m.config)] = new := by
          simpa [push, note] using hn
        have hcall := Entry.called.inj (List.mem_singleton.mp hmem)
        obtain ⟨-, next, rfl⟩ := Task.of_call_quiesce hcall.symm
        exact l.beginClose_ne_quiesce true next (congrArg Prod.fst hb)
      · obtain rfl : new = [] := by simpa using hn
        simp at hmem
    · obtain rfl : new = [] := by simpa using hn
      simp at hmem
  · obtain rfl : new = [] := by simpa using hn
    simp at hmem

/-- A step that waits until the work on an instance is over has come to just that. -/
theorem State.quiesce_of_advance (hn : (m.advance rest p).history = m.history ++ new)
    (hmem : .called (.quiesce h timeout) ∈ new) :
    timeout = m.config.disconnectTimeout ∧ ∃ next, p = .waits (.releasing .quiesce h next) := by
  have hend : ∀ (n : State) (o : Outcome), n.history = m.history →
      (n.finish o).history = m.history ++ new → False := by
    intro n o hh hn
    obtain ⟨calls, hcalls⟩ := (n.note (.finished o)).closeUnheld_calls
    have hno : Entry.called (.quiesce h timeout) ∉ calls.map .called :=
      State.closeUnheld_ne_quiesce hcalls
    rw [finish, hcalls, note, hh, List.append_assoc, List.append_cancel_left_eq] at hn
    rw [← hn] at hmem
    simp at hmem hno
    exact hno hmem
  cases p with
  | waits t =>
    obtain rfl : [.called (t.call m.path m.config)] = new := by
      simpa [advance, push, note] using hn
    obtain ⟨rfl, next, rfl⟩ :=
      Task.of_call_quiesce (Entry.called.inj (List.mem_singleton.mp hmem)).symm
    exact ⟨rfl, next, rfl⟩
  | accepted k =>
    exact (hend { m with tasks := rest, connections := m.connections ++ [some _] } _ rfl hn).elim
  | done => exact (hend { m with tasks := rest } _ rfl hn).elim
  | failed e => exact (hend { m with tasks := rest } _ rfl hn).elim
  | _ =>
    obtain rfl : new = [] := by simpa [advance] using hn
    simp at hmem

/-- The same for a step, which begins with an entry that makes no call. -/
theorem State.quiesce_of_news {first : Entry} (hm : m.history = s.history ++ [first])
    (hfirst : ∀ c, first ≠ .called c) (hn : (m.advance rest p).history = s.history ++ new)
    (hmem : .called (.quiesce h timeout) ∈ new) :
    timeout = m.config.disconnectTimeout ∧ ∃ next, p = .waits (.releasing .quiesce h next) := by
  obtain ⟨ext, hext⟩ := m.history_advance rest p
  rw [← hext, hm, List.append_assoc, List.append_cancel_left_eq] at hn
  rw [← hn] at hmem
  exact State.quiesce_of_advance hext.symm (by simpa [(hfirst _).symm] using hmem)

/-- No operation comes to such a wait later than at its beginning. -/
theorem Part.ne_quiesce {r : Option Reply} {next : After}
    (hp : Part l (some t) r (.waits (.releasing .quiesce h next)) l') : False := by
  generalize hq : Progress.waits (.releasing .quiesce h next) = p at hp
  cases hp with
  | released k next r p l' hn => exact hn.ne_quiesce _ hq.symm
  | calmed call k next r hcall => simp at hq
  | unlocked lock e quiet r =>
    have := Listener.task?_afterLock e quiet r
    rw [← hq] at this
    simp at this
  | _ => simp at hq

theorem Listener.beginRelease_quiesce {k : Handle} {quiet : Bool} {next : After}
    (hb : (l.beginRelease k quiet).1 = .waits (.releasing .quiesce h next)) :
    h = k ∧ k ∈ l.registry.handedOut := by
  unfold beginRelease at hb
  split at hb
  · rename_i hk
    obtain ⟨-, rfl, -⟩ := Task.releasing.inj (Progress.waits.inj hb)
    exact ⟨rfl, by simpa [Registry.isHandedOut] using hk⟩
  · split at hb <;> simp at hb

/-- What an operation that is no release of a connection comes to. -/
theorem State.start_ne_quiesce {op : Operation} (hop : op.connection? = none)
    (hn : (s.step (.start op)).history = s.history ++ new) :
    .called (.quiesce h timeout) ∉ new := by
  intro hmem
  have hletGo : ∀ i, op ≠ .closeConnection i ∧ op ≠ .dropConnection i := by
    intro i
    constructor <;> rintro rfl <;> simp [Operation.connection?] at hop
  rw [step] at hn
  rcases s.start_cases op hletGo with ⟨l, hl, heq⟩ | heq <;> rw [heq] at hn
  · cases op with
    | accept =>
      obtain ⟨-, next, hp⟩ := State.quiesce_of_news rfl (by simp) hn hmem
      unfold Listener.beginAccept at hp
      split at hp <;> simp at hp
    | close =>
      obtain ⟨-, next, hp⟩ := State.quiesce_of_news rfl (by simp) hn hmem
      exact l.beginClose_ne_quiesce false next hp
    | bind =>
      obtain ⟨-, next, hp⟩ :=
        State.quiesce_of_news (p := .failed Listener.bindError) rfl (by simp) hn hmem
      simp at hp
    | drop =>
      obtain ⟨-, next, hp⟩ := State.quiesce_of_news
        (m := { s.note (.began .drop) with dropped := true }) (p := .done) rfl (by simp) hn hmem
      simp at hp
    | closeConnection i => exact (hletGo i).1 rfl
    | dropConnection i => exact (hletGo i).2 rfl
  · obtain rfl : [.began op, .finished .gone] = new := by simpa [note] using hn
    simp at hmem

/-- A step waits until the work on an instance is over when a connection gives it back that the
listener has handed out to it, and in no other case. -/
theorem State.quiesces_iff (ho : Orderly s) (e : Event) :
    .called (.quiesce h timeout) ∈ s.news e ↔
      timeout = s.config.disconnectTimeout ∧ ∃ i c, c.handle = h ∧ s.LetsGo i c e := by
  have hn := ho.history_step e
  constructor
  · intro hmem
    cases e with
    | reply r =>
      have ht := ho.turn_step (.reply r)
      generalize s.step (.reply r) = s' at hn ht
      cases ht with
      | nothing r =>
        rw [show s.news (.reply r) = [] by simpa using hn.symm] at hmem
        simp at hmem
      | resumed t r rest l l' p hl htasks hp =>
        -- the wait is where a release begins, so no reply leads to it
        obtain ⟨-, next, rfl⟩ := State.quiesce_of_news rfl (by simp) hn hmem
        exact hp.ne_quiesce.elim
      | lockMade | notMade | made | notReset | givenUp =>
        obtain ⟨-, next, hp⟩ := State.quiesce_of_news rfl (by simp) hn hmem
        simp at hp
    | start op =>
      cases hop : op.connection? with
      | none => exact absurd hmem (State.start_ne_quiesce hop hn)
      | some i =>
        obtain ⟨quiet, hstep⟩ := State.step_letGo (s := s) hop
        rw [hstep] at hn
        unfold letGo at hn
        split at hn
        · rename_i l c hl hc
          obtain ⟨htimeout, next, hp⟩ := State.quiesce_of_news rfl (by simp) hn hmem
          obtain ⟨rfl, hout⟩ := Listener.beginRelease_quiesce hp
          exact ⟨htimeout, i, c, rfl, op, l, rfl, hop, hc, hl, hout⟩
        · have hnews : [.began op, .finished .gone] = s.news (.start op) := by
            simpa [note] using hn
          simp [← hnews] at hmem
  · rintro ⟨rfl, i, c, rfl, op, l, rfl, hop, hc, hl, hout⟩
    obtain ⟨quiet, hstep⟩ := State.step_letGo (s := s) hop
    have hrelease : (l.beginRelease c.handle quiet).1 =
        .waits (.releasing .quiesce c.handle (.settle quiet)) := by
      simp [Listener.beginRelease, Registry.isHandedOut, hout]
    rw [hstep, letGo_eq (s := s.note (.began op)) hl hc, advanceWith, hrelease] at hn
    have hnews : [.began op, .called (.quiesce c.handle s.config.disconnectTimeout)] =
        s.news (.start op) := by
      simpa [advance, push, note, Task.call] using hn
    simp [← hnews]

end Quiescing

/-! ## Connections and the configuration -/

section Keeping

variable {s : State}

theorem Turn.config {s' : State} {e : Event} (ht : Turn s e s') : s'.config = s.config := by
  cases ht with
  | nothing r => rfl
  | gone op => rfl
  | _ => exact (State.advance_keeps _ _ _).1

theorem State.config_run (ho : Orderly s) (es : List Event) : (s.run es).config = s.config :=
  ho.run_keeps (P := fun m => m.config = s.config) rfl (fun _ hm ht => ht.config.trans hm) es

/-- A connection in use after a step was in use before it, or the step hands it out. -/
theorem State.connection_step (ho : Orderly s) {e : Event} {i : Nat} {c : Connection}
    (hc : (s.step e).connection? i = some c) :
    s.connection? i = some c ∨ .finished (.accepted i c) ∈ s.news e := by
  have hn := ho.history_step e
  have ht := ho.turn_step e
  generalize s.step e = s' at hn ht hc
  have hsame : ∀ {xs : List (Option Connection)}, s'.connections = xs → xs = s.connections →
      s.connection? i = some c := by
    intro xs hs hxs
    rwa [connection?, ← hxs, ← hs]
  cases ht with
  | nothing r => exact .inl hc
  | gone op => exact .inl hc
  | started op l l' p dropped hl hp =>
    refine .inl (hsame (advance_keeps _ _ _).2 ?_)
    rw [hp.begun.2]
    simp [note]
  | letGo op j d l quiet hl hd =>
    have hcon := (advance_keeps { s.note (.began op) with
      listener := some (l.beginRelease d.handle quiet).2
      connections := s.connections.set j none } s.tasks (l.beginRelease d.handle quiet).1).2
    rw [(l.part_beginRelease d.handle quiet).begun.2, List.map_nil, List.append_nil] at hcon
    rw [connection?_set hcon] at hc
    split at hc
    · simp at hc
    · exact .inl hc
  | resumed t r rest l l' p hl htasks hp =>
    have hcon := (advance_keeps { s.note (.replied r) with listener := some l' } rest p).2
    cases p with
    | accepted k =>
      rw [connection?_append (s := s) hcon] at hc
      split at hc
      · rename_i hi
        refine .inr ((State.told_reply hn).mpr ?_)
        rw [hi, ← Option.some.inj hc]
        rfl
      · exact .inl hc
    | _ => exact .inl (hsame hcon (by simp [note]))
  | lockMade | notMade | made | notReset | givenUp =>
    exact .inl (hsame (advance_keeps _ _ _).2 (by simp [note]))

end Keeping

/-! ## The life of a handle -/

/-- What a run adds to the history. -/
def State.record (s : State) (es : List Event) : List Entry :=
  (s.run es).history.drop s.history.length

/-- In the run from `s` an accept hands out the handle to a client that is connected. -/
def State.Promotes (s : State) (es : List Event) (h : Handle) : Prop :=
  ∃ i c, c.handle = h ∧ s.Sometime es (State.Completes i c)

/-- In the run from `s` a connection that was handed out in it gives the handle back. -/
def State.Returns (s : State) (es : List Event) (h : Handle) : Prop :=
  ∃ i c, c.handle = h ∧ s.Sometime es fun t e =>
    .finished (.accepted i c) ∈ t.history.drop s.history.length ∧ t.LetsGo i c e

/-- How a handle stands that was made in the first step of the run, and what that says of the run:
the calls that prepared it for its close, whether it was handed out, and who gives it back. -/
structure Follows (s : State) (es : List Event) (h : Handle) (κ : Standing) : Prop where
  stands : (h, κ) ∈ (s.run es).standings
  calls : κ.calls s.config.disconnectTimeout h = partings h (s.record es)
  promoted : κ.isPromoted = true ↔ s.Promotes es h
  returned : .quiesce h s.config.disconnectTimeout ∈ κ.calls s.config.disconnectTimeout h ↔
    s.Returns es h
  /-- Until it is given back, no connection works on it but those of the run. -/
  connections : κ = .waiting ∨ κ = .served → ∀ i c, (s.run es).connection? i = some c →
    c.handle = h → .finished (.accepted i c) ∈ s.record es

section Lives

variable {s : State} {es : List Event} {e : Event} {h : Handle} {κ : Standing}

theorem State.record_snoc (ho : Orderly s) (es : List Event) (e : Event) :
    s.record (es ++ [e]) = s.record es ++ (s.run es).news e := by
  obtain ⟨new, hnew⟩ := ho.history_run es
  have hrecord : s.record es = new := by rw [record, ← hnew, List.drop_left]
  rw [record, run_snoc, (ho.run es).history_step e, ← hnew, List.append_assoc, List.drop_left,
    hrecord]

theorem State.promotes_snoc : s.Promotes (es ++ [e]) h ↔
    s.Promotes es h ∨ ∃ i c, c.handle = h ∧ (s.run es).Completes i c e := by
  simp only [Promotes, sometime_snoc, and_or_left, exists_or]

theorem State.returns_snoc : s.Returns (es ++ [e]) h ↔ s.Returns es h ∨
    ∃ i c, c.handle = h ∧ .finished (.accepted i c) ∈ s.record es ∧ (s.run es).LetsGo i c e := by
  simp only [Returns, record, sometime_snoc, and_or_left, exists_or]

/-- A reply that tells of no client hands nothing out. -/
theorem State.not_promotes_reply {r : Reply} (hr : r.completes = false) :
    ¬ s.Promotes [.reply r] h := by
  rw [← List.nil_append [Event.reply r], State.promotes_snoc]
  rintro (⟨i, c, -, hnil⟩ | ⟨i, c, -, r', he, hcomp, -⟩)
  · exact State.not_sometime_nil hnil
  · obtain rfl := Event.reply.inj he
    simp [hr] at hcomp

theorem State.not_returns_reply (r : Reply) : ¬ s.Returns [.reply r] h := by
  rw [← List.nil_append [Event.reply r], State.returns_snoc]
  rintro (⟨i, c, -, hnil⟩ | ⟨i, c, -, -, op, l, he, -⟩)
  · exact State.not_sometime_nil hnil
  · cases he

theorem mem_partings {c : Call} {new : List Entry} :
    c ∈ partings h new ↔ .called c ∈ new ∧ c.partsWith h = true := by
  simp only [partings, List.mem_filterMap]
  constructor
  · rintro ⟨e, he, hc⟩
    cases e with
    | called d =>
      obtain ⟨hd, rfl⟩ : d.partsWith h = true ∧ d = c := by simpa using hc
      exact ⟨he, hd⟩
    | _ => simp at hc
  · rintro ⟨hmem, hc⟩
    exact ⟨_, hmem, by simp [hc]⟩

/-- The connection that gives the handle back was handed out in the run. -/
theorem Follows.quiesces_iff (hfol : Follows s es h κ) (ho : Orderly s) (hb : Books (s.run es)) :
    .quiesce h s.config.disconnectTimeout ∈ partings h ((s.run es).news e) ↔
      ∃ i c, c.handle = h ∧ .finished (.accepted i c) ∈ s.record es ∧ (s.run es).LetsGo i c e := by
  rw [mem_partings, State.quiesces_iff (ho.run es), State.config_run ho es]
  simp only [Call.partsWith, decide_true, true_and, and_true]
  constructor
  · rintro ⟨i, c, rfl, hgo⟩
    obtain ⟨op, l, he, hop, hci, hl, hout⟩ := hgo
    refine ⟨i, c, rfl, hfol.connections ?_ i c hci rfl, op, l, he, hop, hci, hl, hout⟩
    -- only an instance that the listener has handed out is given back by its connection
    have hserved : (c.handle, Standing.served) ∈ (s.run es).standings := by
      rw [State.standings_of_listener hl]
      simp [Listener.mem_standings, hout]
    exact .inr (standing_unique (hb.nodup.sublist (s.run es).fst_standings) hfol.stands hserved)
  · rintro ⟨i, c, hh, -, hgo⟩
    exact ⟨i, c, hh, hgo⟩

/-- A handle that is not closed in a step goes on standing as the run says. -/
theorem Follows.step (hfol : Follows s es h κ) (ho : Orderly s) (hb : Books (s.run es))
    (hf : account.OpensFresh ((s.run es).step e).history)
    (hclose : .called (.close h) ∉ (s.run es).news e) :
    ∃ μ, Follows s (es ++ [e]) h μ ∧ (μ = .locked ↔ κ = .locked) := by
  have hot := ho.run es
  rcases State.carries_step hot hb e hf hfol.stands with
    ⟨hc, -, -⟩ | ⟨-, μ, hμ, hcalls, hprom, hlock⟩
  · exact absurd hc hclose
  rw [State.config_run ho es] at hcalls
  refine ⟨μ, { stands := ?stands, calls := ?calls, promoted := ?promoted, returned := ?returned,
               connections := ?connections }, hlock⟩
  case stands => rwa [State.run_snoc]
  case calls => rw [hcalls, hfol.calls, State.record_snoc ho, partings_append]
  case promoted => rw [hprom, hfol.promoted, State.promotes_snoc]
  case returned =>
    rw [hcalls, List.mem_append, hfol.returned, hfol.quiesces_iff ho hb, State.returns_snoc]
  case connections =>
    intro hμ' i c hc hh
    -- its standing was one of those before, since no call was made for it
    have hnil : κ.calls s.config.disconnectTimeout h = [] := by
      have : μ.calls s.config.disconnectTimeout h = [] := by rcases hμ' with rfl | rfl <;> rfl
      rw [hcalls] at this
      exact (List.append_eq_nil_iff.mp this).1
    have hκ : κ = .waiting ∨ κ = .served := by
      cases κ with
      | parted own => cases own <;> simp [Standing.calls] at hnil
      | _ => simp_all [Standing.calls]
    rw [State.record_snoc ho, List.mem_append]
    rw [State.run_snoc] at hc
    exact (State.connection_step hot hc).imp_left fun hc => hfol.connections hκ i c hc hh

/-- A handle that is made while the step comes to the call of a task. -/
theorem Follows.first {r : Reply} {m : State} {t : Task}
    (hstep : s.step (.reply r) = m.push t) (hm : m.history = s.history ++ [.replied r])
    (hr : r.completes = false) (hstands : (h, κ) ∈ (m.push t).standings)
    (hcalls : κ.calls s.config.disconnectTimeout h =
      partings h [.called (t.call m.path m.config)])
    (hwaits : κ = .waiting ∨ κ = .cancelled ∨ κ = .locked)
    (hcon : κ = .waiting → ∀ i c, m.connection? i = some c → c.handle ≠ h) :
    Follows s [.reply r] h κ := by
  have hrun : s.run [.reply r] = m.push t := hstep
  have hrecord : s.record [.reply r] = [.replied r, .called (t.call m.path m.config)] := by
    rw [State.record, hrun, State.push, State.note]
    simp [hm]
  refine { stands := ?stands, calls := ?calls, promoted := ?promoted, returned := ?returned,
           connections := ?connections }
  case stands => rwa [hrun]
  case calls =>
    rw [hcalls, hrecord]
    simp [partings]
  case promoted =>
    have hno : ¬ s.Promotes [.reply r] h := State.not_promotes_reply hr
    rcases hwaits with rfl | rfl | rfl <;> simp [Standing.isPromoted, hno]
  case returned =>
    have hno : ¬ s.Returns [.reply r] h := State.not_returns_reply r
    rcases hwaits with rfl | rfl | rfl <;> simp [Standing.calls, hno]
  case connections =>
    -- no connection that is in use already works on the new handle
    intro hκ i c hc hh
    have hκ : κ = .waiting := by rcases hwaits with rfl | rfl | rfl <;> simp_all
    rw [hrun] at hc
    exact absurd hh (hcon hκ i c hc)

/-- The instance that an accept has made. -/
theorem follows_created (ho : Orderly s) (hb : Books s) (ha : Attended s)
    (hhead : s.tasks.head? = some .creating)
    (hf : account.OpensFresh (s.step (.reply (.created (.ok h)))).history) :
    ∃ κ, Follows s [.reply (.created (.ok h))] h κ ∧ κ ≠ .locked := by
  obtain ⟨rest, htasks⟩ := List.head?_eq_some_iff.mp hhead
  rcases hl : s.listener with _ | l
  · -- an accept has a listener
    rcases ho.building hl with hnil | ⟨t, ht, hbuilds⟩
    · simp [hnil] at htasks
    · obtain ⟨rfl, -⟩ : t = .creating ∧ rest = [] := by simpa [ht, eq_comm] using htasks
      simp [Task.builds] at hbuilds
  have hstep : s.step (.reply (.created (.ok h))) =
      { s.note (.replied (.created (.ok h))) with
        listener := some (l.afterCreate (.ok h)).2 }.advance rest (l.afterCreate (.ok h)).1 := by
    simp [State.step, State.reply, htasks, Task.takes, hl, State.resume, State.advanceWith]
  -- the handle is new, so the registry does not have it yet
  have hfresh : h ∉ s.owed := by
    rw [hstep] at hf
    exact hb.not_owed_of_brings rfl hf h (by simp)
  rw [State.owed_of_listener hl, List.mem_append, not_or] at hfresh
  obtain ⟨-, hfresh⟩ := hfresh
  simp only [Listener.owes, List.mem_append, not_or] at hfresh
  obtain ⟨-, hw, hout⟩ := hfresh
  have henrolled : h ∈ (l.registry.enroll h).2.waiting := by
    rw [Registry.waiting_enroll hw hout]
    exact HandleSet.mem_insert.mpr (.inl rfl)
  -- a close may have come while the instance was made
  cases hc : l.closed with
  | false =>
    have hcreate : l.afterCreate (.ok h) =
        (.waits (.connecting h), { l with registry := (l.registry.enroll h).2 }) := by
      simp [Listener.afterCreate, hc]
    rw [hcreate] at hstep
    refine ⟨.waiting, .first hstep rfl rfl ?_ ?_ (.inl rfl) fun _ i c hci hh => ?_, by simp⟩
    · rw [State.standings_push]
      refine List.mem_append_right _ ?_
      rw [State.standings_of_listener (l := { l with registry := (l.registry.enroll h).2 }) rfl]
      exact List.mem_append_right _ (Listener.mem_standings.mpr (.inr (.inl ⟨henrolled, rfl⟩)))
    · simp [Standing.calls, partings, Task.call, Call.partsWith]
    · -- what the connections in use work on is tracked
      exact ((ha.tracks l hl hc).held h (State.mem_held.mpr ⟨i, c, hci, hh⟩)).elim hw hout
  | true =>
    have hcreate : l.afterCreate (.ok h) = (.waits (.releasing .cancel h (.refuse .alreadyClosed)),
        { l with registry := ((l.registry.enroll h).2.strikeWaiting h).2 }) := by
      simp [Listener.afterCreate, hc, Registry.strikeWaiting, Registry.isWaiting, henrolled]
    rw [hcreate] at hstep
    refine ⟨.cancelled, .first hstep rfl rfl ?_ ?_ (.inr (.inl rfl)) (by simp), by simp⟩
    · rw [State.standings_push]
      simp [Task.standings, ReleaseCall.standing?]
    · simp [Standing.calls, partings, Task.call, Call.partsWith]

/-- The lock that a construction has made. -/
theorem follows_locked (ho : Orderly s) (hhead : s.tasks.head? = some .creatingLock) (h : Handle) :
    Follows s [.reply (.created (.ok h))] h .locked := by
  obtain ⟨rest, htasks⟩ := List.head?_eq_some_iff.mp hhead
  have hl : s.listener = none := by
    cases hl : s.listener with
    | none => rfl
    | some l => simpa [Task.builds] using ho.built (by simp [hl]) .creatingLock (by simp [htasks])
  have hstep : s.step (.reply (.created (.ok h))) =
      ({ s.note (.replied (.created (.ok h))) with tasks := rest } : State).push
        (.resettingLock h) := by
    simp [State.step, State.reply, htasks, Task.takes, hl, State.resumeConstruction, State.advance,
      State.note]
  refine .first hstep rfl rfl ?_ ?_ (.inr (.inr rfl)) (by simp)
  · rw [State.standings_push]
    simp [Task.standings]
  · simp [Standing.calls, partings, Task.call, Call.partsWith]

/-- As long as it is not closed, a handle stands as the run since it was made says. -/
theorem Follows.run (hfol : Follows s es h κ) (ho : Orderly s) (hb : Books (s.run es))
    (during : List Event) (hf : account.OpensFresh (s.run (es ++ during)).history)
    (hclose : .called (.close h) ∉ s.record (es ++ during)) :
    ∃ μ, Follows s (es ++ during) h μ ∧ (μ = .locked ↔ κ = .locked) := by
  induction during generalizing es κ with
  | nil => exact ⟨κ, by simpa using hfol, .rfl⟩
  | cons e during ih =>
    rw [List.append_cons] at hf hclose ⊢
    have hot := ho.run es
    have hprefix := (ho.run (es ++ [e])).history_run during
    have hrun : s.run (es ++ [e] ++ during) = (s.run (es ++ [e])).run during := by
      simp [State.run]
    have hf' := hf.of_prefix (hrun ▸ hprefix)
    rw [State.run_snoc] at hf'
    have hclose' : .called (.close h) ∉ s.record (es ++ [e]) := by
      refine fun hmem => hclose ?_
      obtain ⟨new, hnew⟩ := hprefix
      obtain ⟨mine, hmine⟩ := ho.history_run (es ++ [e])
      rw [State.record, ← hmine, List.drop_left] at hmem
      rw [State.record, hrun, ← hnew, ← hmine, List.append_assoc, List.drop_left]
      exact List.mem_append_left _ hmem
    rw [State.record_snoc ho, List.mem_append, not_or] at hclose'
    obtain ⟨μ, hμ, hlock⟩ := hfol.step ho hb hf' hclose'.2
    obtain ⟨ν, hν, hlock'⟩ := ih hμ (by
      rw [State.run_snoc]
      exact hb.turn (hot.turn_step e) hf') hf hclose
    exact ⟨ν, hν, hlock'.trans hlock⟩

end Lives

/-! ## Every handle is given back as it was used -/

/-- The calls that prepare an instance for its close: one that no client was connected to is
cancelled, and one that was handed out is disconnected, by its connection only after its work is
over. -/
structure PartsWell (timeout : Nat) (h : Handle) (promoted returned : Prop) (calls : List Call) :
    Prop where
  unserved : ¬ promoted → calls = [.cancel h]
  byConnection : promoted → returned → calls = [.quiesce h timeout, .disconnect h]
  byListener : promoted → ¬ returned → calls = [.disconnect h]

/-- An instance that is made first in the run is prepared for its close as it was used, however the
calls for that come out. -/
structure InstanceParts (timeout : Nat) (s : State) (es : List Event) (h : Handle) : Prop where
  begun : ∃ calls, PartsWell timeout h (s.Promotes es h) (s.Returns es h) calls ∧
    partings h (s.record es) <+: calls
  /-- When it is closed its preparation is complete. What its connection does not give back is given
  back by the close of the listener. -/
  ended : ∀ e, account.OpensFresh ((s.run es).step e).history →
    .called (.close h) ∈ (s.run es).news e →
      PartsWell timeout h (s.Promotes es h) (s.Returns es h) (partings h (s.record (es ++ [e]))) ∧
        (s.Promotes es h → ¬ s.Returns es h → (s.run es).IsClosed)

/-- The lock is disconnected when it is made, and closed when there is no open listener that it
could reserve the name for. -/
structure LockParts (s : State) (es : List Event) (h : Handle) : Prop where
  begun : partings h (s.record es) = [.disconnect h]
  ended : ∀ e, account.OpensFresh ((s.run es).step e).history →
    .called (.close h) ∈ (s.run es).news e →
      partings h (s.record (es ++ [e])) = [.disconnect h] ∧
        ∀ l, ((s.run es).step e).listener = some l → l.closed = true

/-- All the calls that prepare a handle for its close, from how it stands. -/
def Standing.preparation (timeout : Nat) (h : Handle) : Standing → List Call
  | waiting | cancelled => [.cancel h]
  | quiesced | parted true => [.quiesce h timeout, .disconnect h]
  | served | parted false | locked => [.disconnect h]

section Ends

variable {s : State} {es : List Event} {e : Event} {h : Handle} {κ : Standing} {timeout : Nat}

theorem Standing.calls_prefix (κ : Standing) :
    κ.calls timeout h <+: κ.preparation timeout h := by
  cases κ with
  | parted own => cases own <;> exact List.prefix_refl _
  | quiesced => exact ⟨[.disconnect h], rfl⟩
  | waiting | served => exact List.nil_prefix
  | _ => exact List.prefix_refl _

theorem Standing.calls_of_isFinal (hκ : κ.isFinal = true) :
    κ.calls timeout h = κ.preparation timeout h := by
  cases κ with
  | parted own => cases own <;> rfl
  | waiting | served | quiesced => simp [isFinal] at hκ
  | _ => rfl

theorem Follows.partsWell (hfol : Follows s es h κ) (hlock : κ ≠ .locked) :
    PartsWell s.config.disconnectTimeout h (s.Promotes es h) (s.Returns es h)
      (κ.preparation s.config.disconnectTimeout h) := by
  have hprom := hfol.promoted
  have hret := hfol.returned
  cases κ with
  | parted own =>
    cases own <;> constructor <;>
      simp_all [Standing.isPromoted, Standing.calls, Standing.preparation]
  | locked => exact absurd rfl hlock
  | _ => constructor <;> simp_all [Standing.isPromoted, Standing.calls, Standing.preparation]

/-- The step that closes a handle makes no other call. -/
theorem State.partings_of_close (ho : Orderly s) (hm : .called (.close h) ∈ s.news e) :
    partings h (s.news e) = [] := by
  rw [List.eq_nil_iff_forall_not_mem]
  intro c hc
  obtain ⟨hcalled, hparts⟩ := mem_partings.mp hc
  have hlast : ∀ (d : Call) (pre post : List Entry), s.news e = pre ++ .called d :: post →
      post = [] := fun _ _ _ heq =>
    ((ho.turn_step e).called (heq ▸ ho.history_step e)).1
  obtain ⟨pre, post, hsplit⟩ := List.append_of_mem hm
  obtain rfl := hlast _ _ _ hsplit
  rw [hsplit] at hcalled
  rcases List.mem_append.mp hcalled with hpre | hpost
  · obtain ⟨front, back, rfl⟩ := List.append_of_mem hpre
    have hback := hlast c front (back ++ [.called (.close h)]) (by
      rw [hsplit, List.append_assoc, List.cons_append])
    simp at hback
  · obtain rfl : c = .close h := by simpa using hpost
    simp [Call.partsWith] at hparts

/-- Only a close of the listener disconnects an instance that its connection has not given back. -/
theorem Orderly.isClosed_of_parted (ho : Orderly s) (hm : (h, .parted false) ∈ s.standings) :
    s.IsClosed := by
  rcases List.mem_append.mp hm with hm | hm
  · obtain ⟨t, ht, hm⟩ := List.mem_flatMap.mp hm
    have hclose : t.isClose = true := by
      cases t with
      | releasing call k next =>
        cases call <;> cases next <;>
          simp_all [Task.standings, After.standings, ReleaseCall.standing?, Task.isClose,
            After.isClose]
      | _ => simp [Task.standings] at hm
    rcases hl : s.listener with _ | l
    · rcases ho.building hl with hnil | ⟨u, hu, hbuilds⟩
      · simp [hnil] at ht
      · obtain rfl : t = u := by simpa [hu] using ht
        cases t <;> simp_all [Task.builds, Task.isClose]
    · exact ⟨l, hl, ho.closing l hl t ht hclose⟩
  · rcases hl : s.listener with _ | l
    · simp [hl] at hm
    · simp [hl, Listener.mem_standings] at hm

/-- What the last step makes of a handle that it closes. -/
theorem Follows.closes (hfol : Follows s es h κ) (ho : Orderly s) (hb : Books (s.run es))
    (hf : account.OpensFresh ((s.run es).step e).history)
    (hm : .called (.close h) ∈ (s.run es).news e) :
    κ.isFinal = true ∧
      partings h (s.record (es ++ [e])) = κ.preparation s.config.disconnectTimeout h ∧
      (κ = .locked → ∃ t ∈ ((s.run es).step e).tasks, t.unreserves = true) := by
  have hot := ho.run es
  rcases State.carries_step hot hb e hf hfol.stands with ⟨-, hfinal, hlock⟩ | ⟨hnot, -⟩
  · refine ⟨hfinal, ?_, hlock⟩
    rw [State.record_snoc ho, partings_append, State.partings_of_close hot hm, List.append_nil,
      ← hfol.calls, Standing.calls_of_isFinal hfinal]
  · exact absurd hm hnot

theorem Follows.instanceParts (hfol : Follows s es h κ) (hlock : κ ≠ .locked) (ho : Orderly s)
    (hb : Books (s.run es)) : InstanceParts s.config.disconnectTimeout s es h := by
  have hwell := hfol.partsWell hlock
  refine ⟨⟨_, hwell, hfol.calls ▸ κ.calls_prefix⟩, fun e hf hm => ?_⟩
  obtain ⟨hfinal, hall, -⟩ := hfol.closes ho hb hf hm
  refine ⟨hall ▸ hwell, fun hprom hret => ?_⟩
  -- it was handed out and its connection has not given it back
  obtain rfl : κ = .parted false := by
    have hprom := hfol.promoted.mpr hprom
    have hret := fun hq => hret (hfol.returned.mp hq)
    cases κ with
    | parted own => cases own <;> simp_all [Standing.calls]
    | _ => simp_all [Standing.isFinal, Standing.isPromoted]
  exact (ho.run es).isClosed_of_parted hfol.stands

theorem Follows.lockParts (hfol : Follows s es h .locked) (ho : Orderly s)
    (hb : Books (s.run es)) : LockParts s es h := by
  refine ⟨hfol.calls.symm, fun e hf hm => ?_⟩
  obtain ⟨-, hall, hlock⟩ := hfol.closes ho hb hf hm
  refine ⟨hall, fun l hl => ?_⟩
  have hos := (ho.run es).turn ((ho.run es).turn_step e)
  obtain ⟨t, ht, hunres⟩ := hlock rfl
  cases t with
  | closingLock k err quiet => exact hos.closing l hl _ ht rfl
  | givingUpLock k err =>
    -- a construction that fails leaves no listener
    simpa [Task.builds] using hos.built (by simp [hl]) _ ht
  | _ => simp [Task.unreserves] at hunres

end Ends

/-- From its creation to its close every handle gets the calls that fit what it went through, in
every run and at every moment of it: the instances of the accepts, and the lock. -/
theorem handles_part_as_used (name : String) (config : PipeConfig) (before during : List Event)
    (h : Handle)
    (hf : account.OpensFresh ((State.construct name config).run
      (before ++ .reply (.created (.ok h)) :: during)).history)
    (hclose : .called (.close h) ∉ ((State.construct name config).run before).record
      (.reply (.created (.ok h)) :: during)) :
    let s := (State.construct name config).run before
    let es := .reply (.created (.ok h)) :: during
    (s.tasks.head? = some .creating → InstanceParts config.disconnectTimeout s es h) ∧
      (s.tasks.head? = some .creatingLock → LockParts s es h) := by
  intro s es
  have ho₀ := orderly_construct name config
  have hb₀ := books_construct name config
  have ho : Orderly s := ho₀.run before
  have hrun : ∀ fs, (State.construct name config).run (before ++ fs) = s.run fs := by
    simp [s, State.run]
  have hf' : account.OpensFresh s.history := hf.of_prefix (hrun es ▸ ho.history_run es)
  have hb : Books s := hb₀.run ho₀ before hf'
  rw [hrun] at hf
  have hfirst : account.OpensFresh (s.step (.reply (.created (.ok h)))).history :=
    hf.of_prefix ((ho.turn (ho.turn_step _)).history_run during)
  have hbes : Books (s.run es) := hb.run ho es hf
  have hb1 : Books (s.run [.reply (.created (.ok h))]) :=
    hb.turn (ho.turn_step (.reply (.created (.ok h)))) hfirst
  have hconfig : s.config = config := State.config_run ho₀ before
  refine ⟨fun hhead => ?_, fun hhead => ?_⟩
  · have ha : Attended s := (attended_construct name config).run ho₀ hb₀ before hf'
    obtain ⟨κ, hfol, hne⟩ := follows_created ho hb ha hhead hfirst
    obtain ⟨μ, hμ, hlock⟩ := hfol.run ho hb1 during hf hclose
    exact hconfig ▸ hμ.instanceParts (fun heq => hne (hlock.mp heq)) ho hbes
  · obtain ⟨μ, hμ, hlock⟩ := (follows_locked ho hhead h).run ho hb1 during hf hclose
    obtain rfl := hlock.mpr rfl
    exact hμ.lockParts ho hbes

/-- The listener is closed while a connection waits until the work on its instance is over, and the
disconnect fails. -/
theorem connection_parts_with_its_own_instance :
    let s := (State.construct "p" .default).run [.reply (.created (.ok ⟨1⟩)),
      .reply (.done (.ok ())), .start .accept]
    let es : List Event := [.reply (.created (.ok ⟨2⟩)), .reply (.connect .connected),
      .start (.closeConnection 0), .start .close, .reply (.done (.ok ())),
      .reply (.done (.ok ()))]
    partings ⟨2⟩ (s.record (es ++ [.reply (.done (.error .badDescriptor))])) =
      [.quiesce ⟨2⟩ PipeConfig.default.disconnectTimeout, .disconnect ⟨2⟩] := by
  intro s es
  have hopen : ∀ x ∈ s.record es, account.closes x ≠ some ⟨2⟩ := by decide
  have hrecord : .called (.close ⟨2⟩) ∉ s.record es := fun hmem => hopen _ hmem rfl
  have h := (handles_part_as_used "p" .default [.reply (.created (.ok ⟨1⟩)),
    .reply (.done (.ok ())), .start .accept] _ ⟨2⟩ (by decide) hrecord).1 rfl
  obtain ⟨hparts, -⟩ := h.ended (.reply (.done (.error .badDescriptor))) (by decide)
    (.tail _ (.head _))
  refine hparts.byConnection ⟨0, ⟨⟨2⟩, .pipe, false⟩, rfl, ?_⟩ ⟨0, ⟨⟨2⟩, .pipe, false⟩, rfl, ?_⟩
  · exact ⟨[.reply (.created (.ok ⟨2⟩))], .reply (.connect .connected), _, rfl, _, rfl, rfl,
      .tail _ (.head _)⟩
  · exact ⟨[.reply (.created (.ok ⟨2⟩)), .reply (.connect .connected)],
      .start (.closeConnection 0), _, rfl, .tail _ (.tail _ (.tail _ (.head _))), _, _, rfl, rfl,
      rfl, rfl, by decide⟩

end LocalIpc.Pipe

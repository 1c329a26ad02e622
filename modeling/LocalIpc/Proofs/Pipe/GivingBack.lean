import LocalIpc.Proofs.Pipe.Clearing
import LocalIpc.Proofs.Pipe.Conservation
import LocalIpc.Proofs.Pipe.Releasing
/-!
# What a close gives back

Operations that begin inside the calls of a close may give instances back themselves. Nothing is
lost that way and nothing is closed twice: an instance that its connection gives back while the
close is under way is left to the connection, and the close gives back the others.
-/

namespace LocalIpc.Pipe

/-! ## What is tracked -/

section Tracked

variable {l l' : Listener} {old : Option Task} {r : Option Reply} {p : Progress}

theorem Next.sound {next : After} (h : Next l next p l') (hs : l.registry.Sound) :
    l'.registry.Sound := by
  cases h with
  | firstHandedOut | noneHandedOut => exact hs.use .clearHandedOut
  | _ => exact hs

/-- No part makes the registry track a handle twice. -/
theorem Part.sound (h : Part l old r p l') (hs : l.registry.Sound) : l'.registry.Sound := by
  cases h with
  | close quiet p l' hc hn => exact hn.sound (hs.use .clearWaiting)
  | released k next r p l' hn => exact hn.sound hs
  | releaseHandedOut k quiet hh => exact hs.strikeHandedOut k
  | releaseWaiting k quiet hh | waitFailed k e hh | waitFailedLate k e hh =>
    exact hs.strikeWaiting k
  | created k hc => exact hs.enroll k
  | createdLate k hc hh | createdKnown k hc hh => exact (hs.enroll k).strikeWaiting k
  | delivered t r k ha hh => exact hs.handOut k
  | _ => exact hs

/-- The listener tracks each handle once, if at all. -/
def State.Tracks (s : State) : Prop := ∀ l, s.listener = some l → l.registry.Sound

theorem State.tracks_closeUnheld {s : State} (h : s.Tracks) : s.closeUnheld.Tracks := by
  rcases s.closeUnheld_cases with ⟨heq, -⟩ | ⟨l, t, l', hl, -, hp, -, heq⟩ <;> rw [heq]
  · exact h
  · intro k hk
    obtain rfl := Option.some.inj hk
    exact hp.sound (h l hl)

theorem State.tracks_advance {m : State} (h : m.Tracks) (rest : List Task) (p : Progress) :
    (m.advance rest p).Tracks := by
  cases p with
  | waits t => exact h
  | accepted k =>
    exact tracks_closeUnheld (s := State.note { m with tasks := rest, connections := _ } _) h
  | done => exact tracks_closeUnheld (s := State.note { m with tasks := rest } _) h
  | failed e => exact tracks_closeUnheld (s := State.note { m with tasks := rest } _) h
  | _ => exact h

theorem State.Tracks.turn {s s' : State} {e : Event} (h : s.Tracks) (ht : Turn s e s') :
    s'.Tracks := by
  have hsome : ∀ {m : State} {l : Listener} (rest : List Task) (p : Progress),
      m.listener = some l → l.registry.Sound → (m.advance rest p).Tracks := by
    intro m l rest p hl hs
    refine State.tracks_advance (fun k hk => ?_) rest p
    obtain rfl := Option.some.inj (hl.symm.trans hk)
    exact hs
  have hnone : ∀ {m : State} (rest : List Task) (p : Progress), m.listener = none →
      (m.advance rest p).Tracks := fun rest p hl =>
    State.tracks_advance (fun k hk => by simp [hl] at hk) rest p
  cases ht with
  | nothing r => exact h
  | gone op => exact h
  | started op l l' p dropped hl hp => exact hsome _ _ rfl (hp.sound (h l hl))
  | letGo op i c l quiet hl hc =>
    exact hsome _ _ rfl ((l.part_beginRelease c.handle quiet).sound (h l hl))
  | resumed t r rest l l' p hl htasks hp => exact hsome _ _ rfl (hp.sound (h l hl))
  | made k u hl htasks => exact hsome _ _ rfl Registry.sound_empty
  | lockMade k hl | notReset k e hl | notMade e hl | givenUp k e r hl => exact hnone _ _ hl

theorem State.Tracks.run {s : State} (h : s.Tracks) (ho : Orderly s) (es : List Event) :
    (s.run es).Tracks :=
  ho.run_keeps h (fun _ hm ht => hm.turn ht) es

theorem State.tracks_construct (name : String) (config : PipeConfig) :
    (State.construct name config).Tracks := fun l hl => by
  simp [construct, advance, push, note] at hl

end Tracked

/-! ## While a close is under way -/

/-- At some point of the run a connection gives the handle back that was handed out to it. -/
def State.GivesBack (s : State) (es : List Event) (h : Handle) : Prop :=
  s.Sometime es fun m e => ∃ i c, c.handle = h ∧ m.LetsGo i c e

/-- The task belongs to a close, or to a connection that has given its handle back in the run. -/
def State.Entitled (s : State) (es : List Event) (t : Task) : Prop :=
  t.isClose = true ∨ ∃ call h quiet, t = .releasing call h (.settle quiet) ∧ s.GivesBack es h

/-- A handle that the step on `e` closes is closed by the listener or by its own connection. -/
def State.ClosesOwn (s : State) (es : List Event) (e : Event) : Prop :=
  ∀ h, .called (.close h) ∈ (s.run es).news e →
    ∃ t, (s.run (es ++ [e])).tasks.head? = some t ∧ t.closing? = some h ∧ s.Entitled (es ++ [e]) t

/-- A run in which the listener `l₀` is closed, so far. What it owed has been closed, is owed by one
of the tasks that have come, or is tracked still. -/
structure State.Clearing (s : State) (l₀ : Listener) (es : List Event) (l : Listener)
    (new : List Task) : Prop where
  tasks : (s.run es).tasks = new ++ s.tasks
  listener : (s.run es).listener = some l
  lock : l.lock = l₀.lock
  entitled : ∀ t ∈ new, s.Entitled es t
  closes : ((s.record es).filterMap account.closes ++
    (new.flatMap (Task.owes (some l₀.lock)) ++ l.owes)).Perm l₀.owes
  own : ∀ before e, before ++ [e] <+: es → s.ClosesOwn before e

section Under

variable {s m : State} {l₀ l l' : Listener} {es : List Event} {e : Event} {new rest : List Task}
  {t : Task} {r : Reply} {p : Progress} {op : Operation}

theorem State.GivesBack.mono {h : Handle} (hs : s.GivesBack es h) (e : Event) :
    s.GivesBack (es ++ [e]) h := sometime_snoc.mpr (.inl hs)

theorem State.Entitled.mono (h : s.Entitled es t) (e : Event) : s.Entitled (es ++ [e]) t := by
  rcases h with hclose | ⟨call, k, quiet, rfl, hback⟩
  · exact .inl hclose
  · exact .inr ⟨call, k, quiet, rfl, hback.mono e⟩

theorem State.news_of_history {new : List Entry} (h : (s.step e).history = s.history ++ new) :
    s.news e = new := by
  rw [news, h, List.drop_left]

/-- What holds of each event of a run, after those before it, holds of each of a longer run. -/
theorem forall_event_snoc {P : List Event → Event → Prop}
    (h : ∀ before e, before ++ [e] <+: es → P before e) (hlast : P es e) :
    ∀ before e', before ++ [e'] <+: es ++ [e] → P before e' := by
  intro before e' hpre
  rcases List.prefix_concat_iff.mp hpre with heq | hpre
  · obtain ⟨rfl, rfl⟩ := List.append_singleton_inj.mp heq
    exact hlast
  · exact h before e' hpre

/-- An operation of a closed listener goes on in a call, or ends and starts nothing. -/
theorem State.advance_closed (rest : List Task) (p : Progress) (hl : m.listener = some l)
    (hc : l.closed = true) :
    (m.advance rest p).tasks = p.task?.toList ++ rest ∧
      (m.advance rest p).listener = some l ∧
      ∃ o : Option Outcome, (m.advance rest p).history = m.history ++ (o.toList.map .finished ++
        p.task?.toList.map fun t => .called (t.call m.path m.config)) := by
  have hend : ∀ (n : State) (o : Outcome), n.listener = some l → n.tasks = rest →
      n.history = m.history → (n.finish o).tasks = rest ∧ (n.finish o).listener = some l ∧
        ∃ o' : Option Outcome,
          (n.finish o).history = m.history ++ (o'.toList.map .finished ++ []) := by
    intro n o hn ht hh
    rw [finish, closeUnheld_closed (s := n.note (.finished o)) hn hc]
    exact ⟨ht, hn, some o, by simp [note, hh]⟩
  cases p with
  | waits t => exact ⟨rfl, hl, none, rfl⟩
  | accepted k =>
    exact hend { m with tasks := rest, connections := m.connections ++ [some _] } _ hl rfl rfl
  | done => exact hend { m with tasks := rest } _ hl rfl rfl
  | failed e => exact hend { m with tasks := rest } _ hl rfl rfl
  | _ => exact ⟨rfl, hl, none, by simp [advance]⟩

/-- The handles that a step closes are those that its new task closes. -/
theorem closes_told (o : Option Outcome) (p : Progress) (path : String) (config : PipeConfig) :
    (o.toList.map Entry.finished ++ p.task?.toList.map fun t =>
      Entry.called (t.call path config)).filterMap account.closes =
      p.task?.toList.flatMap fun t => t.closing?.toList := by
  have ho : (o.toList.map Entry.finished).filterMap account.closes = [] := by
    cases o <;> rfl
  rw [List.filterMap_append, ho, List.nil_append]
  cases p.task? with
  | none => rfl
  | some t =>
    have hcloses := closes_called t path config
    cases hc : t.closing? <;> simp_all

/-- A part of the close, or of an operation inside it, keeps the balance. -/
theorem State.Clearing.advance {old : Option Task} {first : Entry}
    (h : s.Clearing l₀ es l (old.toList ++ new)) (ho : Orderly s)
    (hstep : (s.run es).step e = m.advance (new ++ s.tasks) p)
    (hm : m.history = (s.run es).history ++ [first]) (hfirst : account.closes first = none)
    (hl' : m.listener = some l') (hc' : l'.closed = true) (hlock : l'.lock = l.lock)
    (hconserves : (p.task?.toList.flatMap (Task.brings (some l.lock)) ++ l'.owes).Perm
      (old.toList.flatMap (Task.owes (some l.lock)) ++ l.owes))
    (hown : ∀ t ∈ p.task?, s.Entitled (es ++ [e]) t) :
    s.Clearing l₀ (es ++ [e]) l' (p.task?.toList ++ new) := by
  obtain ⟨htasks, hlistener, o, hhistory⟩ := m.advance_closed (new ++ s.tasks) p hl' hc'
  have hrun : s.run (es ++ [e]) = m.advance (new ++ s.tasks) p := by rw [run_snoc, hstep]
  have hnews : (s.run es).news e = [first] ++ (o.toList.map .finished ++
      p.task?.toList.map fun t => .called (t.call m.path m.config)) := by
    refine news_of_history ?_
    rw [hstep, hhistory, hm, List.append_assoc]
  refine { tasks := ?tasks, listener := ?listener, lock := ?lock, entitled := ?entitled,
           closes := ?closes, own := forall_event_snoc h.own fun k hmem => ?own }
  case tasks => rw [hrun, htasks, List.append_assoc]
  case listener => rw [hrun, hlistener]
  case lock => rw [hlock, h.lock]
  case entitled =>
    intro t ht
    rcases List.mem_append.mp ht with ht | ht
    · exact hown t (Option.mem_toList.mp ht)
    · exact (h.entitled t (List.mem_append_right _ ht)).mono e
  case closes =>
    -- what the next call closes was brought by its task, and what that owes is still to come
    have hold := h.closes
    rw [← h.lock] at hold ⊢
    rw [record_snoc ho, hnews, List.filterMap_append, List.filterMap_append, closes_told]
    rw [List.perm_iff_count] at hold hconserves ⊢
    intro k
    have hbrings : (p.task?.toList.flatMap (Task.brings (some l.lock))).count k =
        (p.task?.toList.flatMap fun t => t.closing?.toList).count k +
          (p.task?.toList.flatMap (Task.owes (some l.lock))).count k := by
      cases p.task? <;> simp
    have h₁ := hold k
    have h₂ := hconserves k
    simp only [List.flatMap_append, List.count_append, List.filterMap_cons, hfirst,
      List.filterMap_nil, List.count_nil] at h₁ h₂ ⊢
    omega
  case own =>
    have hcloses : k ∈ ((s.run es).news e).filterMap account.closes :=
      List.mem_filterMap.mpr ⟨_, hmem, rfl⟩
    rw [hnews, List.filterMap_append, closes_told] at hcloses
    simp only [List.filterMap_cons, hfirst, List.filterMap_nil, List.nil_append,
      List.mem_flatMap, Option.mem_toList] at hcloses
    obtain ⟨t, ht, hk⟩ := hcloses
    refine ⟨t, ?_, hk, hown t ht⟩
    rw [hrun, htasks, ht]
    rfl

theorem Next.isClose_task {next : After} (h : Next l next p l') (hn : next.isClose = true) :
    ∀ u ∈ p.task?, u.isClose = true := by
  cases h <;> simp_all [Task.isClose, After.isClose]

/-- A task of the close or of a release goes on with a task of the same. -/
theorem Part.goesOn (h : Part l (some t) (some r) p l') :
    (t.isClose = true → r.brings = [] ∧ ∀ u ∈ p.task?, u.isClose = true) ∧
      ∀ call k quiet, t = .releasing call k (.settle quiet) →
        r.brings = [] ∧ ∀ u ∈ p.task?, ∃ call', u = .releasing call' k (.settle quiet) := by
  cases h with
  | quiesced k next r | calmed call k next r hcall =>
    refine ⟨fun hclose => ⟨rfl, ?_⟩, ?_⟩
    · rintro u ⟨⟩
      exact hclose
    · rintro _ _ quiet ⟨⟩
      exact ⟨rfl, by rintro u ⟨⟩; exact ⟨_, rfl⟩⟩
  | released k next r p l' hn =>
    refine ⟨fun hclose => ⟨rfl, hn.isClose_task ?_⟩, ?_⟩
    · rwa [After.isClose_keeping]
    · rintro _ _ quiet ⟨⟩
      cases hn
      exact ⟨rfl, by simp⟩
  | unlocked lock e quiet r =>
    rw [Listener.task?_afterLock]
    simp
  | delivered t r k ha hh | missed t r k ha hh => cases ha <;> simp [Task.isClose]
  | _ => simp [Task.isClose]

/-- What begins on a closed listener is over at once, but for the release of a connection. -/
theorem State.start_closed (hl : s.listener = some l) (hc : l.closed = true)
    (hop : op.connection? = none) :
    ∃ dropped o, s.step (.start op) =
      { s with dropped, history := s.history ++ [.began op, .finished o] } := by
  have hend : ∀ (dropped : Bool) (o : Outcome),
      ({ s.note (.began op) with dropped } : State).finish o =
        { s with dropped, history := s.history ++ [.began op, .finished o] } := by
    intro dropped o
    have hkeep := closeUnheld_closed
      (s := ({ s.note (.began op) with dropped } : State).note (.finished o)) hl hc
    rw [finish, hkeep]
    simp [note]
  rcases start_cases s op (by cases op <;> simp_all [Operation.connection?]) with
    ⟨k, hk, heq⟩ | heq
  · obtain rfl := Option.some.inj (hl.symm.trans hk)
    rw [step, heq]
    cases op with
    | accept =>
      have hrefused : l.beginAccept = .failed .alreadyClosed := if_pos hc
      rw [startOn, hrefused]
      exact ⟨s.dropped, _, hend s.dropped _⟩
    | close =>
      have hrefused : l.beginClose false = (.failed .alreadyClosed, l) := if_pos hc
      have hsame : { s.note (.began .close) with listener := some l } =
          s.note (.began .close) := by
        rw [← hl]
        rfl
      rw [startOn, hrefused, advanceWith, hsame]
      exact ⟨s.dropped, _, hend s.dropped _⟩
    | bind => exact ⟨s.dropped, _, hend s.dropped _⟩
    | drop => exact ⟨true, _, hend true _⟩
    | closeConnection i => simp [Operation.connection?] at hop
    | dropConnection i => simp [Operation.connection?] at hop
  · exact ⟨s.dropped, .gone, by rw [step, heq]; simp [note]⟩

/-- What is only noted leaves the balance as it is. -/
theorem State.Clearing.note (h : s.Clearing l₀ es l new) (ho : Orderly s) {noted : List Entry}
    (htasks : ((s.run es).step e).tasks = (s.run es).tasks)
    (hlistener : ((s.run es).step e).listener = (s.run es).listener)
    (hhistory : ((s.run es).step e).history = (s.run es).history ++ noted)
    (hnoted : noted.filterMap account.closes = []) : s.Clearing l₀ (es ++ [e]) l new := by
  have hnews := news_of_history hhistory
  refine ⟨?_, ?_, h.lock, fun t ht => (h.entitled t ht).mono e, ?_,
    forall_event_snoc h.own fun k hmem => ?_⟩
  · rw [run_snoc, htasks, h.tasks]
  · rw [run_snoc, hlistener, h.listener]
  · rw [record_snoc ho, hnews, List.filterMap_append, hnoted, List.append_nil]
    exact h.closes
  · have hcloses : k ∈ ((s.run es).news e).filterMap account.closes :=
      List.mem_filterMap.mpr ⟨_, hmem, rfl⟩
    rw [hnews, hnoted] at hcloses
    simp at hcloses

/-- A closed listener that tracks each handle once owes each handle once. -/
theorem Listener.nodup_owes (hc : l.closed = true) (hs : l.registry.Sound) : l.owes.Nodup := by
  unfold owes
  rw [if_pos hc, List.nil_append]
  refine List.nodup_append.mpr ⟨hs.waiting, hs.handedOut, fun a ha b hb heq => ?_⟩
  exact hs.apart a ha (heq ▸ hb)

/-- A connection that finds its handle tracked on a closed listener gives it back. -/
theorem Listener.entitled_beginRelease {i : Nat} {c : Connection}
    (ho : Orderly s) (hl : (s.run es).listener = some l) (hc : l.closed = true)
    (hop : op.connection? = some i) (hcon : (s.run es).connection? i = some c) (quiet : Bool) :
    ∀ t ∈ (l.beginRelease c.handle quiet).1.task?, s.Entitled (es ++ [.start op]) t := by
  have hwaiting := (((ho.run es).drained l hl) hc).1
  unfold beginRelease
  by_cases hout : l.registry.isHandedOut c.handle = true
  · rw [if_pos hout]
    rintro t ⟨⟩
    have hmem : c.handle ∈ l.registry.handedOut := by simpa [Registry.isHandedOut] using hout
    refine .inr ⟨.quiesce, c.handle, quiet, rfl, State.sometime_snoc.mpr (.inr ?_)⟩
    exact ⟨i, c, rfl, op, l, rfl, hop, hcon, hl, hmem⟩
  · have hnone : l.registry.isWaiting c.handle = false := by simp [Registry.isWaiting, hwaiting]
    rw [if_neg hout, hnone]
    simp

/-- Whatever begins while the listener is being closed keeps the balance. -/
theorem State.Clearing.start (h : s.Clearing l₀ es l new) (ho : Orderly s) (htracks : s.Tracks)
    (hc : l.closed = true) (op : Operation) :
    ∃ l' new', s.Clearing l₀ (es ++ [.start op]) l' new' ∧ l'.closed = true := by
  have hl := h.listener
  cases hop : op.connection? with
  | none =>
    obtain ⟨dropped, o, hstep⟩ := State.start_closed hl hc hop
    have hnoted : [Entry.began op, .finished o].filterMap account.closes = [] := rfl
    refine ⟨l, new, h.note ho ?_ ?_ ?_ hnoted, hc⟩ <;> rw [hstep]
  | some i =>
    obtain ⟨quiet, hstep⟩ := State.step_letGo (s := s.run es) hop
    cases hcon : (s.run es).connection? i with
    | none =>
      have hgone : (s.run es).step (.start op) =
          ((s.run es).note (.began op)).note (.finished .gone) := by
        rw [hstep, letGo]
        split
        · rename_i hsome
          exact absurd (hcon.symm.trans hsome) (by simp)
        · rfl
      have hnoted : [Entry.began op, .finished .gone].filterMap account.closes = [] := rfl
      refine ⟨l, new, h.note ho ?_ ?_ ?_ hnoted, hc⟩ <;> rw [hgone] <;> simp [State.note]
    | some c =>
      rw [letGo_eq (s := (s.run es).note (.began op)) hl hcon] at hstep
      have hpart := l.part_beginRelease c.handle quiet
      have hconserves := hpart.conserves (Listener.nodup_owes hc (htracks.run ho es l hl)) (by simp)
      have hown := Listener.entitled_beginRelease ho hl hc hop hcon quiet
      generalize l.beginRelease c.handle quiet = x at hstep hpart hconserves hown
      obtain ⟨p, l'⟩ := x
      have hold : s.Clearing l₀ es l ((none : Option Task).toList ++ new) := h
      refine ⟨l', _, hold.advance ho (p := p) (m := { (s.run es).note (.began op) with
        connections := (s.run es).connections.set i none, listener := some l' })
        ?_ rfl rfl rfl (hpart.closed_mono hc) hpart.lock_eq ?_ hown, hpart.closed_mono hc⟩
      · rw [hstep, ← h.tasks]
        rfl
      · simpa using hconserves

/-- A reply to a call of the close, or of an operation inside it, keeps the balance. -/
theorem State.Clearing.reply (h : s.Clearing l₀ es l new) (ho : Orderly s) (htracks : s.Tracks)
    (hc : l.closed = true) (hnew : new ≠ []) (r : Reply) :
    ∃ l' new', s.Clearing l₀ (es ++ [.reply r]) l' new' ∧ l'.closed = true := by
  have hl := h.listener
  obtain ⟨t, new, rfl⟩ := List.exists_cons_of_ne_nil hnew
  have htasks : (s.run es).tasks = t :: (new ++ s.tasks) := h.tasks
  by_cases htakes : t.takes r = true
  · have hbuilds : t.builds = false :=
      (ho.run es).built (by simp [hl]) t (by simp [htasks])
    obtain ⟨p, l', hp, hresume⟩ := resume_part ((s.run es).note (.replied r)) hl hbuilds htakes
      (new ++ s.tasks)
    have hstep : (s.run es).step (.reply r) =
        ({ (s.run es).note (.replied r) with listener := some l' } : State).advance
          (new ++ s.tasks) p := by
      rw [← hresume]
      simp [step, State.reply, htasks, htakes, hl]
    -- the reply brings nothing, since nothing is made here
    obtain ⟨hbrings, hown⟩ : r.brings = [] ∧ ∀ u ∈ p.task?, s.Entitled (es ++ [.reply r]) u := by
      obtain ⟨hclose, hsettle⟩ := hp.goesOn
      rcases (h.entitled t (by simp)).mono (.reply r) with ht | ⟨call, k, quiet, rfl, hback⟩
      · obtain ⟨hbrings, hgoes⟩ := hclose ht
        exact ⟨hbrings, fun u hu => .inl (hgoes u hu)⟩
      · obtain ⟨hbrings, hgoes⟩ := hsettle call k quiet rfl
        refine ⟨hbrings, fun u hu => ?_⟩
        obtain ⟨call', rfl⟩ := hgoes u hu
        exact .inr ⟨call', k, quiet, rfl, hback⟩
    have hnone : (some r).toList.flatMap Reply.brings = [] := by
      rw [Option.toList_some, List.flatMap_singleton, hbrings]
    have hconserves := hp.conserves (Listener.nodup_owes hc (htracks.run ho es l hl))
      (by rw [hnone]; simp)
    rw [hnone, List.nil_append] at hconserves
    have hfirst : account.closes (.replied r) = none := rfl
    have hold : s.Clearing l₀ es l ((some t).toList ++ new) := h
    exact ⟨l', _, hold.advance ho hstep rfl hfirst rfl (hp.closed_mono hc) hp.lock_eq hconserves
      hown, hp.closed_mono hc⟩
  · have hstep : (s.run es).step (.reply r) = s.run es := by
      simp [step, State.reply, htasks, htakes]
    have hnoted : ([] : List Entry).filterMap account.closes = [] := rfl
    refine ⟨l, t :: new, h.note ho ?_ ?_ ?_ hnoted, hc⟩ <;> rw [hstep]
    rw [List.append_nil]

/-- The close of an open listener begins. -/
theorem State.clearing_start (ho : Orderly s) (hl : s.listener = some l₀)
    (hopen : l₀.closed = false) (hkept : s.dropped = false) :
    ∃ l new, s.Clearing l₀ [.start .close] l new ∧ l.closed = true := by
  have hnone : s.record [] = [] := by simp [record, run]
  have hbase : s.Clearing l₀ [] l₀ ((none : Option Task).toList ++ []) := by
    refine ⟨rfl, hl, rfl, by simp, ?_, by simp⟩
    rw [hnone]
    exact List.Perm.refl _
  have hclosed := l₀.closed_beginClose false
  have hbegin := Listener.beginClose_open hopen false
  have hnext := Listener.next_proceed
    { l₀ with closed := true, registry := l₀.registry.clearWaiting.2 }
    (.clearWaiting l₀.registry.waiting none false)
  have hstep : (s.run []).step (.start .close) =
      { s.note (.began .close) with listener := some (l₀.beginClose false).2 }.advance
        ([] ++ s.tasks) (l₀.beginClose false).1 := by
    simp only [run, List.foldl_nil, step, State.start, State.note, hl, hkept, startOn]
    rfl
  have hown : ∀ t ∈ (l₀.beginClose false).1.task?, s.Entitled ([] ++ [.start .close]) t := by
    rw [hbegin]
    exact fun t ht => .inl (hnext.isClose_task rfl t ht)
  refine ⟨_, _, hbase.advance ho hstep rfl rfl rfl hclosed (l₀.part_beginClose false).lock_eq ?_
    hown, hclosed⟩
  rw [hbegin]
  refine hnext.conserves.trans ?_
  rw [List.perm_iff_count]
  intro k
  simp [Listener.owes, Registry.clearWaiting, hopen, List.count_cons]
  omega

/-- The events `es` are all that comes between the beginning of the close and its end: until the
last of them an operation waits that was not under way before. -/
structure State.Closing (s : State) (es : List Event) : Prop where
  underWay : ∀ n < es.length, s.tasks.length < (s.run (.start .close :: es.take n)).tasks.length
  ends : (s.run (.start .close :: es)).tasks.length = s.tasks.length

theorem State.Closing.clearing (h : s.Closing es) (ho : Orderly s) (htracks : s.Tracks)
    (hl : s.listener = some l₀) (hopen : l₀.closed = false) (hkept : s.dropped = false)
    (before : List Event) (hbefore : before <+: es) :
    ∃ l new, s.Clearing l₀ (.start .close :: before) l new ∧ l.closed = true := by
  induction before using List.reverseRecOn with
  | nil => exact State.clearing_start ho hl hopen hkept
  | append_singleton before e ih =>
    obtain ⟨l, new, hclear, hc⟩ := ih ((List.prefix_append _ _).trans hbefore)
    cases e with
    | start op => exact hclear.start ho htracks hc op
    | reply r =>
      refine hclear.reply ho htracks hc ?_ r
      have hlen := hbefore.length_le
      rw [List.length_append, List.length_singleton] at hlen
      have hunder := h.underWay before.length (by omega)
      rw [← List.prefix_iff_eq_take.mp ((List.prefix_append _ _).trans hbefore), hclear.tasks,
        List.length_append] at hunder
      rintro rfl
      simp at hunder

/-- What was tracked when the close of `l` began was given back in the run. -/
structure State.GivenBack (s : State) (l : Listener) (es : List Event) : Prop where
  /-- Each instance was closed once, and the lock. -/
  once : ((s.record es).filterMap account.closes).Perm
    (l.lock :: (l.registry.waiting ++ l.registry.handedOut))
  own : ∀ before e, before ++ [e] <+: es → s.ClosesOwn before e
  empty : ∃ l', (s.run es).listener = some l' ∧ l'.closed = true ∧ l'.registry = .empty

theorem Task.isClose_of_clears (h : t.clears = true) : t.isClose = true := by
  cases t with
  | releasing call k next =>
    cases next with
    | clearWaiting rest e quiet => rfl
    | _ => simp [clears, After.clears] at h
  | _ => simp [clears] at h

/-- Once the close is over, nothing of what was tracked is left. -/
theorem State.Closing.givenBack (h : s.Closing es) (ho : Orderly s) (htracks : s.Tracks)
    (hl : s.listener = some l₀) (hopen : l₀.closed = false) (hkept : s.dropped = false) :
    s.GivenBack l₀ (.start .close :: es) := by
  obtain ⟨l, new, hclear, hc⟩ := h.clearing ho htracks hl hopen hkept es (List.prefix_refl es)
  have htasks := hclear.tasks
  obtain rfl : new = [] := by
    have hends := h.ends
    rw [htasks, List.length_append] at hends
    exact List.eq_nil_of_length_eq_zero (by omega)
  -- what is left of the tasks belongs to no close, since the listener was open below it
  obtain ⟨hwaiting, hout⟩ := (ho.run (.start .close :: es)).drained l hclear.listener hc
  have hout : l.registry.handedOut = [] := by
    refine hout.resolve_right ?_
    rintro ⟨t, ht, hclears⟩
    rw [htasks, List.nil_append] at ht
    simp [ho.closing l₀ hl t ht (Task.isClose_of_clears hclears)] at hopen
  have hempty : l.registry = .empty := by
    rcases hr : l.registry with ⟨waiting, handedOut⟩
    simp_all [Registry.empty]
  refine ⟨?_, hclear.own, l, hclear.listener, hc, hempty⟩
  have hcloses := hclear.closes
  simpa [Listener.owes, hc, hempty, Registry.empty, hopen] using hcloses

end Under

/-! ## Every close is complete -/

/-- A close of an open listener makes all its calls, whatever they come to, and leaves nothing
tracked. With anything that begins inside the calls, every instance is still given back once: by the
close, or by its own connection. -/
theorem close_gives_everything_back (name : String) (config : PipeConfig) (es : List Event)
    (l : Listener) (hl : ((State.construct name config).run es).listener = some l)
    (hopen : l.closed = false) (hkept : ((State.construct name config).run es).dropped = false) :
    let s := (State.construct name config).run es
    l.registry.Sound ∧
      (∀ rs : List (Except IoError Unit), rs.length = l.clearing.length →
        ∃ o, l.Tells rs o ∧ s.run (.start .close :: Reply.dones rs) = { s with
          listener := some { l with closed := true, registry := .empty }
          history := s.history ++ .began .close :: (answered l.clearing rs ++ [.finished o]) }) ∧
      ∀ during, s.Closing during → s.GivenBack l (.start .close :: during) := by
  intro s
  have ho₀ := orderly_construct name config
  have htracks : s.Tracks := (State.tracks_construct name config).run ho₀ es
  refine ⟨htracks l hl, fun rs hrs => ?_, fun during hduring => ?_⟩
  · exact ⟨_, l.tells_closeOutcome rs, State.run_close hl hopen hkept rs hrs⟩
  · exact hduring.givenBack (ho₀.run es) htracks hl hopen hkept

/-- One instance is in use when the close begins, and one waits still. Of the failures only that of
a handle counts, and the failure of the lock comes after it. In the other run the connection closes
while the close is in its first call. -/
theorem connection_closes_while_listener_does :
    let es : List Event := [.reply (.created (.ok ⟨1⟩)), .reply (.done (.ok ())),
      .start .accept, .reply (.created (.ok ⟨2⟩)), .reply (.connect .connected),
      .start .accept, .reply (.created (.ok ⟨3⟩)), .reply (.connect .noData)]
    let s := (State.construct "p" .default).run es
    let l : Listener := ⟨PipeName.normalize "p", .default, ⟨1⟩, false, [⟨3⟩], [⟨2⟩]⟩
    (s.run (.start .close :: Reply.dones [.error .notFound, .ok (), .ok (),
      .error .badDescriptor, .error .notFound])).lastOutcome =
        .failed (.native .close .badDescriptor) ∧
      s.GivenBack l [.start .close, .start (.closeConnection 0), .reply (.done (.ok ())),
        .reply (.done (.ok ())), .reply (.done (.error .badDescriptor)), .reply (.done (.ok ())),
        .reply (.done (.ok ())), .reply (.done (.ok ()))] := by
  intro es s l
  obtain ⟨-, hcalls, hinside⟩ := close_gives_everything_back "p" .default es l rfl rfl rfl
  refine ⟨?_, hinside _ ⟨by decide, by decide⟩⟩
  obtain ⟨o, htells, hrun⟩ := hcalls [.error .notFound, .ok (), .ok (), .error .badDescriptor,
    .error .notFound] rfl
  have hfirst : o = .failed (.native .close .badDescriptor) := by
    refine (htells.failed .badDescriptor).mpr ⟨[(.cancel ⟨3⟩, .error .notFound),
      (.close ⟨3⟩, .ok ()), (.disconnect ⟨2⟩, .ok ())], ⟨2⟩, [(.close ⟨1⟩, .error .notFound)], rfl,
      ?_⟩
    intro k r hmem
    obtain ⟨-, rfl⟩ : k = ⟨3⟩ ∧ r = .ok () := by simpa using hmem
    rfl
  rw [hrun, hfirst]
  rfl

end LocalIpc.Pipe

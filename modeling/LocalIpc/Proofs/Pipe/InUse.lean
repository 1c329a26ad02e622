import LocalIpc.Proofs.Pipe.Accounting
/-!
# The instances in use

While the listener is open, every instance that an accept waits on and every connection in use is
tracked, each of them once. A close takes all of them away and gives them back before an accept that
was under way goes on.
-/

namespace LocalIpc.Pipe

/-! ## Instances in use -/

/-- The instance that an accept has made and not handed out yet. -/
@[simp] def Task.pending : Task → List Handle
  | connecting h | waiting h => [h]
  | _ => []

/-- The instances of the accepts under way. -/
def State.pending (s : State) : List Handle := s.tasks.flatMap Task.pending

/-- The instances of the connections in use. -/
def State.held (s : State) : List Handle := s.connections.flatMap fun c => c.toList.map (·.handle)

/-- An open listener tracks the instances that accepts wait on, and those of its connections. -/
structure Listener.Tracks (l : Listener) (pending held : List Handle) : Prop where
  nodup : (pending ++ held).Nodup
  pending : ∀ h ∈ pending, h ∈ l.registry.waiting
  held : ∀ h ∈ held, h ∈ l.registry.waiting ∨ h ∈ l.registry.handedOut

/-- Once the listener is closed, the instance of an accept was given back before the accept goes
on: neither the registry has it, nor an operation that goes on later than the accept. -/
def Listener.GaveBack (l : Listener) : List Task → Prop
  | [] => True
  | t :: rest =>
    (∀ h ∈ t.pending,
      h ∉ l.registry.handedOut ∧ h ∉ rest.flatMap (Task.owes (some l.lock))) ∧ l.GaveBack rest

/-- The instances in use, before a close of the listener and after it. -/
structure Attended (s : State) : Prop where
  unmade : s.listener = none → s.connections = []
  tracks : ∀ l, s.listener = some l → l.closed = false → l.Tracks s.pending s.held
  gaveBack : ∀ l, s.listener = some l → l.closed = true → l.GaveBack s.tasks

/-! ## What every part keeps -/

section Parts

variable {l l' : Listener} {old : Option Task} {t : Task} {r : Reply} {p : Progress}
  {next : After} {rest : List Task}
  {pending held : List Handle} {k : Handle}

/-- The handle that a part hands out. -/
@[simp] def Progress.handsOut : Progress → List Handle
  | accepted h => [h]
  | _ => []

theorem Listener.Tracks.drop (h : l.Tracks (k :: pending) held) : l.Tracks pending held :=
  ⟨(List.nodup_cons.mp h.nodup).2, fun j hj => h.pending j (List.mem_cons_of_mem _ hj), h.held⟩

theorem Listener.Tracks.of_append {used : List Handle} (h : l.Tracks (used ++ pending) held) :
    l.Tracks pending held := by
  induction used with
  | nil => exact h
  | cons k used ih => exact ih h.drop

theorem Listener.Tracks.not_mem (h : l.Tracks (k :: pending) held) : k ∉ pending ∧ k ∉ held := by
  have : k ∉ pending ++ held := (List.nodup_cons.mp h.nodup).1
  simpa only [List.mem_append, not_or] using this

/-- What an accept waited on is handed out. -/
theorem Listener.Tracks.deliver (h : l.Tracks (k :: pending) held) :
    l.Tracks pending (held ++ [k]) := by
  refine ⟨?_, h.drop.pending, fun j hj => ?_⟩
  · rw [← List.append_assoc]
    exact (List.perm_append_singleton ..).nodup_iff.mpr h.nodup
  · rcases List.mem_append.mp hj with hj | hj
    · exact h.held j hj
    · obtain rfl := List.mem_singleton.mp hj
      exact .inl (h.pending j (List.mem_cons_self ..))

/-- A registry that still has what is in use, and not less of what waits than what is waited on. -/
theorem Listener.Tracks.change (h : l.Tracks pending held)
    (hw : ∀ j ∈ pending, j ∈ l.registry.waiting → j ∈ l'.registry.waiting)
    (ho : ∀ j ∈ held, j ∈ l.registry.waiting ∨ j ∈ l.registry.handedOut →
      j ∈ l'.registry.waiting ∨ j ∈ l'.registry.handedOut) : l'.Tracks pending held :=
  ⟨h.nodup, fun j hj => hw j hj (h.pending j hj), fun j hj => ho j hj (h.held j hj)⟩

/-- An instance that is struck while it waits was waited on by its own accept only. -/
theorem Listener.Tracks.strike (h : l.Tracks (k :: pending) held) :
    ({ l with registry := (l.registry.strikeWaiting k).2 } : Listener).Tracks pending held := by
  have hk := h.not_mem
  refine h.drop.change (fun j hj hw => ?_) (fun j hj ho => ho.imp_left fun hw => ?_)
  · exact HandleSet.mem_remove.mpr ⟨hw, fun heq => hk.1 (heq ▸ hj)⟩
  · exact HandleSet.mem_remove.mpr ⟨hw, fun heq => hk.2 (heq ▸ hj)⟩

/-- Away from a close, a release leaves the listener as it was. -/
theorem Next.of_not_isClose (h : Next l next p l') (hn : next.isClose = false) :
    l' = l ∧ p.task? = none ∧ p.handsOut = [] := by
  cases h <;> simp_all [After.isClose]

/-- A release in an open listener belongs to no close. -/
theorem Next.of_open (h : Next l next p l') (hc : l'.closed = false)
    (hclose : next.isClose = true → l.closed = true) :
    l' = l ∧ p.task? = none ∧ p.handsOut = [] := by
  refine h.of_not_isClose (Bool.eq_false_iff.mpr fun hnext => ?_)
  exact absurd ((hclose hnext).symm.trans (h.closed_eq.symm.trans hc)) (by simp)

/-- A part of an open listener's operation hands out no more than what its accept waited on, and
takes up no more than what the reply has brought. -/
theorem Part.tracks (h : Part l (some t) (some r) p l')
    (hclose : t.isClose = true → l.closed = true) (hc : l'.closed = false)
    (hf : ∀ k ∈ r.brings, k ∉ l.owes) (ht : l.Tracks (t.pending ++ pending) held) :
    l'.Tracks (p.task?.toList.flatMap Task.pending ++ pending) (held ++ p.handsOut) := by
  cases h with
  | created k hc =>
    have hk := hf k (by simp)
    simp only [Listener.owes, List.mem_append, not_or] at hk
    obtain ⟨-, hkw, hko⟩ := hk
    simp only [Task.pending, List.nil_append] at ht
    have henroll : ∀ j, j = k ∨ j ∈ l.registry.waiting → j ∈ (l.registry.enroll k).2.waiting := by
      intro j hj
      rw [Registry.waiting_enroll hkw hko]
      exact HandleSet.mem_insert.mpr hj
    -- the new instance is none of those in use, since those are tracked
    have hfree : k ∉ pending ++ held := by
      intro hmem
      rcases List.mem_append.mp hmem with hmem | hmem
      · exact hkw (ht.pending k hmem)
      · exact (ht.held k hmem).elim hkw hko
    simp only [Progress.task?, Option.toList_some, List.flatMap_cons, Task.pending,
      List.flatMap_nil, List.append_nil, Progress.handsOut, List.singleton_append]
    refine ⟨List.nodup_cons.mpr ⟨hfree, ht.nodup⟩, fun j hj => henroll j ?_, fun j hj => ?_⟩
    · exact (List.mem_cons.mp hj).imp_right (ht.pending j)
    · rw [Registry.handedOut_enroll]
      exact (ht.held j hj).imp_left fun hw => henroll j (.inr hw)
  | createdLate k hc' hh | createdKnown k hc' hh => exact absurd (hc'.symm.trans hc) (by simp)
  | delivered t r k ha hh =>
    have ht : l.Tracks (k :: pending) held := by cases ha <;> simpa using ht
    have hk := ht.not_mem
    have hreg := Registry.handOut_of_waiting hh
    simp only [Progress.task?, Option.toList_none, List.flatMap_nil, List.nil_append,
      Progress.handsOut, hreg]
    refine ht.deliver.change (fun j hj hw => ?_) (fun j hj ho => ?_)
    · exact HandleSet.mem_remove.mpr ⟨hw, fun heq => hk.1 (heq ▸ hj)⟩
    · by_cases hjk : j = k
      · exact .inr (HandleSet.mem_insert.mpr (.inl hjk))
      · refine ho.imp (fun hw => HandleSet.mem_remove.mpr ⟨hw, hjk⟩) fun ho => ?_
        exact HandleSet.mem_insert.mpr (.inr ho)
  | noData k => simpa using Listener.Tracks.deliver (by simpa using ht)
  | pending k => simpa using ht
  | missed t r k ha hh =>
    have ht : l.Tracks (k :: pending) held := by cases ha <;> simpa using ht
    simpa using ht.drop
  | connectFailed k e => simpa using ht.drop
  | waitFailed k e hh | waitFailedLate k e hh => simpa using ht.strike
  | released k next r p l' hn =>
    -- the listener is open, so the release belongs to no close
    obtain ⟨rfl, hp, ho⟩ :=
      hn.of_open hc fun hi => hclose ((After.isClose_keeping next r).symm.trans hi)
    rw [hp, ho]
    simpa using ht
  | unlocked lock e quiet r => exact absurd ((hclose rfl).symm.trans hc) (by simp)
  | _ => simpa using ht

theorem Listener.GaveBack.of_append {above : List Task} (h : l.GaveBack (above ++ rest)) :
    l.GaveBack rest := by
  induction above with
  | nil => exact h
  | cons t above ih => exact ih h.2

/-- Only what was handed out and what the tasks owe counts. -/
theorem Listener.GaveBack.change (h : l.GaveBack rest) (hlock : l'.lock = l.lock)
    (ho : ∀ j ∈ l'.registry.handedOut, j ∈ l.registry.handedOut) : l'.GaveBack rest := by
  induction rest with
  | nil => trivial
  | cons t rest ih =>
    refine ⟨fun j hj => ?_, ih h.2⟩
    obtain ⟨hout, howes⟩ := h.1 j hj
    exact ⟨fun hmem => hout (ho j hmem), hlock ▸ howes⟩

theorem Next.handedOut_mono (h : Next l next p l') :
    ∀ j ∈ l'.registry.handedOut, j ∈ l.registry.handedOut := by
  cases h <;> simp [Registry.clearHandedOut]

/-- Nothing is handed out anew but by a delivery of what waits. -/
theorem Part.handedOut_mono (h : Part l old q p l')
    (hp : ∀ k ∈ p.handsOut, k ∉ l.registry.waiting) :
    ∀ j ∈ l'.registry.handedOut, j ∈ l.registry.handedOut := by
  cases h with
  | close quiet p l' hc hn => exact hn.handedOut_mono
  | released h next r p l' hn => exact hn.handedOut_mono
  | delivered t r k ha hh => exact absurd hh (hp k (List.mem_singleton_self k))
  | releaseHandedOut k quiet hh => exact fun j hj => (HandleSet.mem_remove.mp hj).1
  | created k | createdLate k | createdKnown k => simp
  | _ => exact fun j hj => hj

theorem Next.pending_eq_nil (h : Next l next p l') :
    p.task?.toList.flatMap Task.pending = [] := by cases h <;> simp

theorem Next.handsOut_eq_nil (h : Next l next p l') : p.handsOut = [] := by cases h <;> simp

/-- No operation of a closed listener waits on an instance that it did not wait on. -/
theorem Part.pending_subset (h : Part l old q p l') (hc : l'.closed = true) :
    ∀ j ∈ p.task?.toList.flatMap Task.pending, j ∈ old.toList.flatMap Task.pending := by
  cases h with
  | accept hopen | created k hopen => simp [hopen] at hc
  | close quiet p l' hopen hn =>
    rw [hn.pending_eq_nil]
    simp
  | released k next r p l' hn =>
    rw [hn.pending_eq_nil]
    simp
  | closeClosed quiet hc => cases quiet <;> simp
  | unlocked lock e quiet r =>
    rw [Listener.task?_afterLock]
    simp
  | _ => simp

/-- A part of a closed listener's operation leaves an accept with nothing. -/
theorem Part.gaveBack (h : Part l old q p l') (hc : l'.closed = true)
    (hp : ∀ k ∈ p.handsOut, k ∉ l.registry.waiting) (hg : l.GaveBack (old.toList ++ rest)) :
    l'.GaveBack (p.task?.toList ++ rest) := by
  have hrest : l'.GaveBack rest := hg.of_append.change h.lock_eq (h.handedOut_mono hp)
  have hpending := h.pending_subset hc
  rcases ht : p.task? with _ | t
  · exact hrest
  rw [ht] at hpending
  refine ⟨fun j hj => ?_, hrest⟩
  have hj : j ∈ old.toList.flatMap Task.pending := hpending j (by simpa using hj)
  rcases old with _ | u
  · simp at hj
  obtain ⟨hout, howes⟩ := hg.1 j (by simpa using hj)
  exact ⟨fun hmem => hout (h.handedOut_mono hp j hmem), h.lock_eq ▸ howes⟩

/-- A close finds every instance that an accept waits on. -/
theorem Listener.Tracks.gaveBack (ht : l.Tracks (rest.flatMap Task.pending) held)
    (hn : (rest.flatMap (Task.owes (some l.lock)) ++ l.owes).Nodup) : l.GaveBack rest := by
  induction rest with
  | nil => trivial
  | cons t rest ih =>
    rw [List.flatMap_cons] at ht
    rw [List.flatMap_cons, List.append_assoc] at hn
    have hrest := (List.nodup_append.mp hn).2.1
    refine ⟨fun j hj => ?_, ih ht.of_append hrest⟩
    have hw : j ∈ l.registry.waiting := ht.pending j (List.mem_append_left _ hj)
    obtain ⟨-, hl, hd⟩ := List.nodup_append.mp hrest
    refine ⟨(Listener.nodup_tracked hl).2.2 j hw, fun hmem => hd j hmem j ?_ rfl⟩
    exact List.mem_append_right _ (List.mem_append_left _ hw)

/-- An operation begins with nothing to hand out. -/
theorem Part.begun (h : Part l none none p l') :
    p.task?.toList.flatMap Task.pending = [] ∧ p.handsOut = [] := by
  cases h with
  | close quiet p l' hc hn => exact ⟨hn.pending_eq_nil, hn.handsOut_eq_nil⟩
  | closeClosed quiet hc => cases quiet <;> simp
  | _ => simp

/-- Only the beginning of a close closes the listener. -/
theorem Part.closed_eq (h : Part l (some t) q p l') : l'.closed = l.closed := by
  cases h with
  | released h next r p l' hn => exact hn.closed_eq
  | _ => rfl

theorem Listener.closed_beginRelease (l : Listener) (k : Handle) (quiet : Bool) :
    (l.beginRelease k quiet).2.closed = l.closed := by
  unfold beginRelease
  split
  · rfl
  · split <;> rfl

/-- A release takes no other instance than its own out of the registry. -/
theorem Listener.beginRelease_keeps (l : Listener) (k : Handle) (quiet : Bool) {j : Handle}
    (hj : j ≠ k) :
    (j ∈ l.registry.waiting → j ∈ (l.beginRelease k quiet).2.registry.waiting) ∧
      (j ∈ l.registry.handedOut → j ∈ (l.beginRelease k quiet).2.registry.handedOut) := by
  unfold beginRelease
  split
  · exact ⟨id, fun h => HandleSet.mem_remove.mpr ⟨h, hj⟩⟩
  split
  · exact ⟨fun h => HandleSet.mem_remove.mpr ⟨h, hj⟩, id⟩
  · exact ⟨id, id⟩

end Parts

/-! ## What every turn keeps -/

namespace State

variable {s : State} {l : Listener} {rest : List Task} {p : Progress}

theorem attended_of_listener (hl : s.listener = some l)
    (ht : l.closed = false → l.Tracks s.pending s.held)
    (hg : l.closed = true → l.GaveBack s.tasks) : Attended s := by
  refine ⟨by simp [hl], fun k hk => ?_, fun k hk => ?_⟩
  · exact Option.some.inj (hl.symm.trans hk) ▸ ht
  · exact Option.some.inj (hl.symm.trans hk) ▸ hg

/-- No accept keeps a listener in being that nobody uses. -/
theorem gaveBack_of_isUnheld (h : s.isUnheld = true) (l : Listener) : l.GaveBack s.tasks := by
  have hall : ∀ t ∈ s.tasks, t.holdsListener = false := by
    simp only [isUnheld, Bool.and_eq_true, Bool.not_eq_true', List.any_eq_false] at h
    simpa using h.2
  generalize s.tasks = tasks at hall
  induction tasks with
  | nil => trivial
  | cons t tasks ih =>
    refine ⟨fun j hj => ?_, ih fun u hu => hall u (List.mem_cons_of_mem _ hu)⟩
    have := hall t (List.mem_cons_self ..)
    cases t <;> simp_all [Task.holdsListener]

theorem attended_closeUnheld (h : Attended s) : Attended s.closeUnheld := by
  rcases s.closeUnheld_cases with ⟨heq, -⟩ | ⟨l, t, l', hl, hu, hp, hc, heq⟩ <;> rw [heq]
  · exact h
  · refine attended_of_listener (l := l') rfl (fun hopen => by simp [hc] at hopen) fun _ => ?_
    exact hp.gaveBack hc (by simp) (gaveBack_of_isUnheld hu l)

theorem attended_advance (hl : s.listener = some l)
    (ht : l.closed = false → l.Tracks (p.task?.toList.flatMap Task.pending ++
      rest.flatMap Task.pending) (s.held ++ p.handsOut))
    (hg : l.closed = true → l.GaveBack (p.task?.toList ++ rest)) :
    Attended (s.advance rest p) := by
  cases p with
  | waits t =>
    have ht : l.closed = false → l.Tracks (t.pending ++ rest.flatMap Task.pending) s.held := by
      simpa only [Progress.task?, Option.toList_some, List.flatMap_cons, List.flatMap_nil,
        List.append_nil, Progress.handsOut] using ht
    exact attended_of_listener hl ht hg
  | accepted h =>
    have ht : l.closed = false → l.Tracks (rest.flatMap Task.pending) (s.held ++ [h]) := by
      simpa using ht
    have hheld : ∀ c : Connection, c.handle = h → s.held ++ [h] =
        ({ s with connections := s.connections ++ [some c] } : State).held := by
      rintro c rfl
      simp [held]
    rw [hheld ⟨h, .pipe, s.config.strictLength⟩ rfl] at ht
    exact attended_closeUnheld (attended_of_listener hl ht hg)
  | done | failed e =>
    have ht : l.closed = false → l.Tracks (rest.flatMap Task.pending) s.held := by simpa using ht
    exact attended_closeUnheld (attended_of_listener hl ht hg)
  | _ =>
    have ht : l.closed = false → l.Tracks (rest.flatMap Task.pending) s.held := by simpa using ht
    exact attended_of_listener hl ht hg

theorem attended_of_construction (hl : s.listener = none) (hc : s.connections = []) :
    Attended s :=
  ⟨fun _ => hc, by simp [hl], by simp [hl]⟩

/-- A connection that is let go takes its instance along. -/
theorem held_letGo {i : Nat} {c : Connection} (hc : s.connection? i = some c) :
    s.held.Perm
      (c.handle :: ({ s with connections := s.connections.set i none } : State).held) := by
  have hget : s.connections[i]? = some (some c) := by
    simpa [connection?, Option.join_eq_some_iff] using hc
  obtain ⟨rest, hheld, hset⟩ := perm_flatMap_set hget fun c => c.toList.map (·.handle)
  exact hheld.trans ((hset none).symm.cons _)

end State

/-- A connection gives its instance back, and every other one stays tracked. -/
theorem Listener.Tracks.letGo {l : Listener} {pending held after : List Handle} {k : Handle}
    (h : l.Tracks pending held) (hp : held.Perm (k :: after)) (quiet : Bool) :
    (l.beginRelease k quiet).2.Tracks pending after := by
  have hperm : (pending ++ held).Perm (k :: (pending ++ after)) :=
    (hp.append_left pending).trans List.perm_middle
  obtain ⟨hk, hn⟩ := List.nodup_cons.mp (hperm.nodup_iff.mp h.nodup)
  -- every other instance in use is another handle, so the release does not strike it
  have hne : ∀ j ∈ pending ++ after, j ≠ k := fun j hj heq => hk (heq ▸ hj)
  refine ⟨hn, fun j hj => ?_, fun j hj => ?_⟩
  · exact (l.beginRelease_keeps k quiet (hne j (List.mem_append_left _ hj))).1 (h.pending j hj)
  · have hkeeps := l.beginRelease_keeps k quiet (hne j (List.mem_append_right _ hj))
    have hheld := h.held j (hp.mem_iff.mpr (List.mem_cons_of_mem _ hj))
    exact hheld.imp hkeeps.1 hkeeps.2

/-- Every turn keeps the instances in use in order, when the handles that are made are not open. -/
theorem Attended.turn {s s' : State} {e : Event} (h : Attended s) (ho : Orderly s) (hb : Books s)
    (ht : Turn s e s') (hf : account.OpensFresh s'.history) : Attended s' := by
  cases ht with
  | nothing r => exact h
  | gone op => exact ⟨h.unmade, h.tracks, h.gaveBack⟩
  | started op l l' p dropped hl hp hsame hdrop hkeep =>
    obtain ⟨hpending, hhands⟩ := hp.begun
    refine State.attended_advance rfl (fun hopen => ?_) (fun hclosed => ?_)
    · obtain rfl := hsame hopen
      rw [hpending, hhands, List.nil_append, List.append_nil]
      exact h.tracks _ hl hopen
    · refine hp.gaveBack hclosed (by rw [hhands]; simp) ?_
      -- a close that begins now has all that is tracked still before it
      cases hc : l.closed with
      | true => exact h.gaveBack l hl hc
      | false => exact (h.tracks l hl hc).gaveBack (hb.nodup_owes hl)
  | letGo op i c l quiet hl hc =>
    have hp := l.part_beginRelease c.handle quiet
    obtain ⟨hpending, hhands⟩ := hp.begun
    have hclosed := l.closed_beginRelease c.handle quiet
    refine State.attended_advance rfl (fun hopen => ?_) (fun hcl => ?_)
    · rw [hpending, hhands, List.nil_append, List.append_nil]
      exact (h.tracks l hl (hclosed ▸ hopen)).letGo (State.held_letGo hc) quiet
    · refine hp.gaveBack hcl (by rw [hhands]; simp) ?_
      exact h.gaveBack l hl (hclosed ▸ hcl)
  | resumed t r rest l l' p hl htasks hp =>
    refine State.attended_advance rfl (fun hopen => ?_) (fun hcl => ?_)
    · have hclose := fun ht => ho.closing l hl t (by simp [htasks]) ht
      refine hp.tracks hclose hopen (hb.not_owes_of_brings hl rfl hf) ?_
      have := h.tracks l hl (hp.closed_eq ▸ hopen)
      rwa [State.pending, htasks, List.flatMap_cons] at this
    · have hc : l.closed = true := hp.closed_eq ▸ hcl
      have hg := h.gaveBack l hl hc
      rw [htasks] at hg
      refine hp.gaveBack hcl ?_ hg
      rw [(ho.drained l hl hc).1]
      simp
  | made k u hl htasks =>
    refine State.attended_advance rfl (fun _ => ?_) (fun hc => trivial)
    refine ⟨?_, ?_, ?_⟩ <;> simp [State.held, State.note, h.unmade hl]
  | lockMade k hl htasks => exact State.attended_of_construction hl (h.unmade hl)
  | notReset k e hl htasks => exact State.attended_of_construction hl (h.unmade hl)
  | notMade e hl htasks =>
    rw [State.advance_failed_construction (s := s.note _) hl]
    exact State.attended_of_construction hl (h.unmade hl)
  | givenUp k e r hl htasks =>
    rw [State.advance_failed_construction (s := s.note _) hl]
    exact State.attended_of_construction hl (h.unmade hl)

theorem attended_construct (name : String) (config : PipeConfig) :
    Attended (State.construct name config) :=
  State.attended_of_construction rfl rfl

theorem Attended.run {s : State} (h : Attended s) (ho : Orderly s) (hb : Books s)
    (es : List Event) (hf : account.OpensFresh (s.run es).history) : Attended (s.run es) :=
  (ho.fresh_run_keeps (P := fun m => Books m ∧ Attended m) ⟨hb, h⟩
    (fun hm hkept ht hfresh =>
      ⟨hkept.1.turn ht hfresh, hkept.2.turn hm hkept.1 ht hfresh⟩) es hf).2

end LocalIpc.Pipe

import LocalIpc.Proofs.Pipe.Turn
/-!
# What every step of a pipe listener keeps

The listener comes into being once, is closed once and is never opened again. From its close on it
tracks no instance that waits for a client, and once the close is over it tracks none at all.
-/

namespace LocalIpc.Pipe

/-! ## What every part keeps -/

/-- The instances handed out are yet to be given back. -/
def After.clears : After → Bool
  | clearWaiting .. => true
  | _ => false

/-- The task belongs to a close that has yet to come to the instances handed out. -/
def Task.clears : Task → Bool
  | releasing _ _ next => next.clears
  | _ => false

/-- What follows belongs to a close of the listener. -/
def After.isClose : After → Bool
  | clearWaiting .. | clearHandedOut .. => true
  | refuse _ | settle _ => false

/-- The task belongs to a close of the listener. -/
def Task.isClose : Task → Bool
  | releasing _ _ next => next.isClose
  | closingLock .. => true
  | _ => false

/-- A closed listener tracks no instance that waits, and one handed out only while a close of it is
under way that has yet to come to those. -/
def Listener.Drained (l : Listener) (tasks : List Task) : Prop :=
  l.closed = true →
    l.registry.waiting = [] ∧ (l.registry.handedOut = [] ∨ ∃ t ∈ tasks, t.clears = true)

section Kept

variable {l l' : Listener} {old : Option Task} {r : Option Reply} {p : Progress} {next : After}

/-- After the lock nothing is left to be given back. -/
theorem Listener.task?_afterLock (e : Option IoError) (quiet : Bool) (r : Except IoError Unit) :
    (Listener.afterLock e quiet r).task? = none := by
  unfold Listener.afterLock
  split
  · rfl
  · split <;> rfl

/-- No operation of a listener goes back to its construction. -/
theorem Next.not_builds (h : Next l next p l') : ∀ t ∈ p.task?, t.builds = false := by
  cases h <;> simp [Task.builds]

theorem Part.not_builds (h : Part l old r p l') : ∀ t ∈ p.task?, t.builds = false := by
  cases h with
  | close quiet p l' hc hn => exact hn.not_builds
  | released h next r p l' hn => exact hn.not_builds
  | closeClosed quiet hc => cases quiet <;> simp
  | unlocked lock e quiet r =>
    rw [Listener.task?_afterLock]
    simp
  | _ => simp [Task.builds]

/-- A run through the instances always has a native call to make. -/
theorem Next.waits (h : Next l next p l') (hn : next.isClose = true) : ∃ t, p = .waits t := by
  cases h <;> simp_all [After.isClose]

theorem Next.lock_eq (h : Next l next p l') : l'.lock = l.lock := by cases h <;> rfl

/-- The lock of a listener is the same all the time. -/
theorem Part.lock_eq (h : Part l old r p l') : l'.lock = l.lock := by
  cases h with
  | close quiet p l' hc hn => exact hn.lock_eq
  | released h next r p l' hn => exact hn.lock_eq
  | _ => rfl

/-- A closed listener stays closed. -/
theorem Part.closed_mono (h : Part l old r p l') (hc : l.closed = true) : l'.closed = true := by
  cases h with
  | close quiet p l' hc hn => exact hn.closed_eq
  | released h next r p l' hn => rw [hn.closed_eq, hc]
  | _ => exact hc

/-- A close that has yet to come to the instances handed out waits with that still before it, or has
taken them out of the registry. -/
theorem Next.drained (h : Next l next p l') (rest : List Task)
    (hl : l.closed = true → l.registry.waiting = [] ∧
      (l.registry.handedOut = [] ∨ next.clears = true ∨ ∃ t ∈ rest, t.clears = true)) :
    l'.Drained (p.task?.toList ++ rest) := by
  intro hc
  rw [h.closed_eq] at hc
  obtain ⟨hw, ho⟩ := hl hc
  cases h with
  | firstHandedOut | noneHandedOut => exact ⟨hw, .inl rfl⟩
  | waiting => exact ⟨hw, .inr ⟨_, List.mem_cons_self .., rfl⟩⟩
  | refuse | settle | handedOut | lock =>
    refine ⟨hw, ho.imp_right fun ho => ?_⟩
    rcases ho with ho | ⟨t, ht, htc⟩
    · simp [After.clears] at ho
    · exact ⟨t, List.mem_append_right _ ht, htc⟩

theorem After.clears_keeping (next : After) (r : Except IoError Unit) :
    (next.keeping r).clears = next.clears := by cases next <;> rfl

/-- A part that changes no more than what is tracked of a closed listener, and does not leave the
place of a close that has yet to come to the instances handed out. -/
theorem Listener.Drained.change {l l' : Listener} {old new rest : List Task}
    (h : l.Drained (old ++ rest)) (hold : ∀ t ∈ old, t.clears = true → ∃ u ∈ new, u.clears = true)
    (hc : l'.closed = l.closed) (hw : l.registry.waiting = [] → l'.registry.waiting = [])
    (ho : l.registry.handedOut = [] → l'.registry.handedOut = []) : l'.Drained (new ++ rest) := by
  intro hc'
  obtain ⟨hw', ho'⟩ := h (hc ▸ hc')
  refine ⟨hw hw', ho'.imp ho ?_⟩
  rintro ⟨t, ht, htc⟩
  rcases List.mem_append.mp ht with ht | ht
  · obtain ⟨u, hu, huc⟩ := hold t ht htc
    exact ⟨u, List.mem_append_left _ hu, huc⟩
  · exact ⟨t, List.mem_append_right _ ht, htc⟩

/-- A handle that is enrolled and struck at once leaves nothing behind. -/
theorem Registry.waiting_enroll_strike (g : Registry) (h : Handle) (hw : g.waiting = []) :
    ((g.enroll h).2.strikeWaiting h).2.waiting = [] := by
  unfold Registry.enroll
  split <;> simp [HandleSet.remove, HandleSet.insert, hw]

theorem Part.drained (h : Part l old r p l') (rest : List Task)
    (hd : l.Drained (old.toList ++ rest)) : l'.Drained (p.task?.toList ++ rest) := by
  -- an instance that waits shows that the listener is open
  have hopen : ∀ {k}, k ∈ l.registry.waiting → l.closed ≠ true := by
    intro k hk hc
    simp [(hd hc).1] at hk
  cases h with
  | close quiet p l' hc hn => exact hn.drained rest fun _ => ⟨rfl, .inr (.inl rfl)⟩
  | released k next r p l' hn =>
    refine hn.drained rest fun hc => ⟨(hd hc).1, (hd hc).2.imp_right ?_⟩
    simp [Task.clears, After.clears_keeping]
  | quiesced k next r | calmed call k next r hcall =>
    refine hd.change ?_ rfl id id
    simp [Task.clears]
  | delivered t r k ha hh => exact fun hc => absurd hc (hopen hh)
  | created k hc => exact fun hc' => by simp [hc] at hc'
  | createdLate k hc hh | createdKnown k hc hh =>
    exact hd.change (by simp [Task.clears]) rfl (Registry.waiting_enroll_strike _ _)
      (fun ho => by simp [ho])
  | releaseHandedOut k quiet hh =>
    exact hd.change (by simp) rfl id (fun ho => by simp [ho])
  | releaseWaiting k quiet hh =>
    exact hd.change (by simp) rfl (fun hw => by simp [hw]) id
  | waitFailed k e hh | waitFailedLate k e hh =>
    exact hd.change (by simp [Task.clears]) rfl (fun hw => by simp [hw]) id
  | missed t r k ha hh => exact hd.change (by cases ha <;> simp [Task.clears]) rfl id id
  | _ => exact hd.change (by simp [Task.clears, After.clears]) rfl id id

theorem After.isClose_keeping (next : After) (r : Except IoError Unit) :
    (next.keeping r).isClose = next.isClose := by cases next <;> rfl

theorem Next.isClose (h : Next l next p l') (hl : next.isClose = true → l.closed = true) :
    ∀ t ∈ p.task?, t.isClose = true → l'.closed = true := by
  rw [h.closed_eq]
  cases h <;> simp_all [Task.isClose, After.isClose]

/-- Only a closed listener is being closed. -/
theorem Part.isClose (h : Part l old r p l')
    (hl : ∀ t ∈ old, t.isClose = true → l.closed = true) :
    ∀ t ∈ p.task?, t.isClose = true → l'.closed = true := by
  cases h with
  | close quiet p l' hc hn => exact hn.isClose fun _ => rfl
  | released k next r p l' hn =>
    refine hn.isClose fun hnext => hl _ rfl ?_
    rwa [After.isClose_keeping] at hnext
  | quiesced k next r | calmed call k next r hcall =>
    intro t ht htc
    obtain rfl := Option.some.inj ht
    exact hl _ rfl htc
  | closeClosed quiet hc => cases quiet <;> simp
  | unlocked lock e quiet r => simp [hl _ rfl rfl]
  | _ => simp [Task.isClose, After.isClose]

theorem Next.holdsListener (h : Next l next p l') (hp : p.reports = false) :
    ∃ t ∈ p.task?, t.holdsListener = true := by
  cases h <;> simp_all [Progress.reports, Task.holdsListener]

/-- An operation of the listener that does not end keeps the listener in being, until the listener
is closed. -/
theorem Part.holdsListener (h : Part l old r p l') (hp : p.reports = false)
    (hclose : ∀ t ∈ old, t.isClose = true → l.closed = true)
    (hl : ∃ t ∈ old, t.holdsListener = true) :
    l'.closed = true ∨ ∃ t ∈ p.task?, t.holdsListener = true := by
  obtain ⟨t, ht, hth⟩ := hl
  cases h with
  | released k next r p l' hn => exact .inr (hn.holdsListener hp)
  | quiesced k next r | calmed call k next r hcall =>
    obtain rfl := Option.some.inj ht
    exact .inr ⟨_, rfl, by cases next <;> simp_all [Task.holdsListener]⟩
  | unlocked lock e quiet r => exact .inl (hclose _ rfl rfl)
  | delivered _ _ _ ha | missed _ _ _ ha => simp [Progress.reports] at hp
  | _ => simp_all [Progress.reports, Task.holdsListener]

end Kept

/-! ## What every step keeps -/

/-- How the listener, the operations under way and the owner's wish go together. -/
structure Orderly (s : State) : Prop extends Staged s where
  drained : ∀ l, s.listener = some l → l.Drained s.tasks
  closing : ∀ l, s.listener = some l → ∀ t ∈ s.tasks, t.isClose = true → l.closed = true
  letGo : ∀ l, s.listener = some l → s.dropped = true →
    l.closed = true ∨ ∃ t ∈ s.tasks, t.holdsListener = true

/-- The close of an open listener has native calls to make. -/
theorem Listener.beginClose_waits (l : Listener) (hc : l.closed = false) (quiet : Bool) :
    ∃ t, (l.beginClose quiet).1 = .waits t := by
  unfold beginClose
  rw [if_neg (by simp [hc])]
  exact (next_proceed _ (.clearWaiting l.registry.waiting none quiet)).waits rfl

namespace State

variable {s : State} {l : Listener} {rest : List Task} {p : Progress}

/-- Letting go of a listener that is in use or closed does nothing. Otherwise its close begins. -/
theorem closeUnheld_cases (s : State) :
    (s.closeUnheld = s ∧ ∀ l, s.listener = some l → s.isUnheld = true → l.closed = true) ∨
      ∃ l t l', s.listener = some l ∧ s.isUnheld = true ∧ Part l none none (.waits t) l' ∧
        l'.closed = true ∧ s.closeUnheld = { s with listener := some l' }.push t := by
  unfold closeUnheld
  rcases hl : s.listener with _ | l
  · exact .inl ⟨rfl, by simp⟩
  simp only
  -- three ways out: somebody uses the listener, it is closed already, or its close begins
  by_cases hu : s.isUnheld = true
  rotate_left
  · rw [if_neg hu]
    exact .inl ⟨rfl, fun _ _ h => absurd h hu⟩
  rw [if_pos hu]
  rcases hb : l.beginClose true with ⟨p, l'⟩
  by_cases hc : l.closed = true
  · obtain ⟨rfl, rfl⟩ : Progress.over = p ∧ l = l' := by
      simpa [Listener.beginClose, hc] using hb
    refine .inl ⟨?_, fun k hk _ => Option.some.inj hk ▸ hc⟩
    show { s with listener := some l } = s
    rw [← hl]
  · obtain ⟨t, ht⟩ := l.beginClose_waits (by simpa using hc) true
    have hpart := l.part_beginClose true
    have hc' := l.closed_beginClose true
    rw [hb] at ht hc' hpart
    subst ht
    exact .inr ⟨l, t, l', rfl, hu, hpart, hc', rfl⟩

theorem orderly_of_construction (hl : s.listener = none)
    (ht : s.tasks = [] ∨ ∃ t, s.tasks = [t] ∧ t.builds = true) : Orderly s :=
  ⟨⟨fun _ => ht, by simp [hl]⟩, by simp [hl], by simp [hl], by simp [hl]⟩

/-- A construction that fails leaves no listener to close. -/
theorem advance_failed_construction (hl : s.listener = none) (e : ListenerError) :
    s.advance [] (.failed e) = { s with tasks := [] }.note (.finished (.failed e)) := by
  simp [advance, finish, closeUnheld, note, hl]

theorem orderly_of_listener (hl : s.listener = some l) (hb : ∀ t ∈ s.tasks, t.builds = false)
    (hd : l.Drained s.tasks) (hc : ∀ t ∈ s.tasks, t.isClose = true → l.closed = true)
    (hg : s.dropped = true → l.closed = true ∨ ∃ t ∈ s.tasks, t.holdsListener = true) :
    Orderly s := by
  refine ⟨⟨by simp [hl], fun _ => hb⟩, ?_, ?_, ?_⟩
  · exact fun k hk => Option.some.inj (hl.symm.trans hk) ▸ hd
  · exact fun k hk => Option.some.inj (hl.symm.trans hk) ▸ hc
  · exact fun k hk => Option.some.inj (hl.symm.trans hk) ▸ hg

theorem orderly_closeUnheld (hl : s.listener = some l) (hb : ∀ t ∈ s.tasks, t.builds = false)
    (hd : l.Drained s.tasks) (hc : ∀ t ∈ s.tasks, t.isClose = true → l.closed = true) :
    Orderly s.closeUnheld := by
  rcases s.closeUnheld_cases with ⟨heq, hclosed⟩ | ⟨k, t, l', hk, -, hp, hc', heq⟩ <;> rw [heq]
  · refine orderly_of_listener hl hb hd hc fun hdrop => ?_
    by_cases hu : s.isUnheld = true
    · exact .inl (hclosed l hl hu)
    · right
      simpa [isUnheld, hdrop] using hu
  · obtain rfl : l = k := Option.some.inj (hl.symm.trans hk)
    refine orderly_of_listener rfl ?_ (hp.drained _ hd) (fun _ _ _ => hc') (fun _ => .inl hc')
    intro u hu
    rcases List.mem_cons.mp hu with rfl | hu
    · exact hp.not_builds u rfl
    · exact hb u hu

/-- The state after a part of an operation, from what the part keeps. -/
theorem orderly_advance (hl : s.listener = some l)
    (hb : ∀ t ∈ p.task?.toList ++ rest, t.builds = false)
    (hd : l.Drained (p.task?.toList ++ rest))
    (hc : ∀ t ∈ p.task?.toList ++ rest, t.isClose = true → l.closed = true)
    (hg : p.reports = false → s.dropped = true →
      l.closed = true ∨ ∃ t ∈ p.task?.toList ++ rest, t.holdsListener = true) :
    Orderly (s.advance rest p) := by
  cases p with
  | waits t => exact orderly_of_listener hl hb hd hc (hg rfl)
  | accepted h => exact orderly_closeUnheld hl hb hd hc
  | done => exact orderly_closeUnheld hl hb hd hc
  | failed e => exact orderly_closeUnheld hl hb hd hc
  | _ => exact orderly_of_listener hl hb hd hc (hg rfl)

end State

/-- A part of an operation, run from an orderly state. -/
theorem Orderly.part {s : State} {l l' : Listener} {old : Option Task} {rest : List Task}
    {r : Option Reply} {p : Progress} {e : Entry} {dropped : Bool}
    {connections : List (Option Connection)} (h : Orderly s) (hl : s.listener = some l)
    (ht : s.tasks = old.toList ++ rest) (hp : Part l old r p l')
    (hdrop : p.reports = false → dropped = s.dropped) :
    Orderly ({ s.note e with listener := some l', dropped, connections }.advance rest p) := by
  have hb := h.built (by simp [hl])
  have hc := h.closing l hl
  have hg := h.letGo l hl
  rw [ht] at hb hc hg
  refine State.orderly_advance rfl ?_ (hp.drained rest (ht ▸ h.drained l hl)) ?_ ?_
  · intro t hmem
    rcases List.mem_append.mp hmem with hmem | hmem
    · exact hp.not_builds t (Option.mem_toList.mp hmem)
    · exact hb t (List.mem_append_right _ hmem)
  · intro t hmem htc
    rcases List.mem_append.mp hmem with hmem | hmem
    · refine hp.isClose (fun u hu => ?_) t (Option.mem_toList.mp hmem) htc
      exact hc u (List.mem_append_left _ (Option.mem_toList.mpr hu))
    · exact hp.closed_mono (hc t (List.mem_append_right _ hmem) htc)
  · intro hrep hd
    rcases hg (hdrop hrep ▸ hd) with hcl | ⟨t, hmem, hth⟩
    · exact .inl (hp.closed_mono hcl)
    -- either the operation itself holds the listener, or one that goes on later does
    rcases List.mem_append.mp hmem with hmem | hmem
    · have hmem := Option.mem_toList.mp hmem
      refine (hp.holdsListener hrep (fun u hu => ?_) ⟨t, hmem, hth⟩).imp_right ?_
      · exact hc u (List.mem_append_left _ (Option.mem_toList.mpr hu))
      · rintro ⟨u, hu, huh⟩
        exact ⟨u, List.mem_append_left _ (Option.mem_toList.mpr hu), huh⟩
    · exact .inr ⟨t, List.mem_append_right _ hmem, hth⟩

/-- Every step keeps the listener, its operations and the owner's wish together. -/
theorem Orderly.turn {s s' : State} {e : Event} (h : Orderly s) (ht : Turn s e s') :
    Orderly s' := by
  cases ht with
  | nothing r => exact h
  | gone op => exact ⟨⟨h.building, h.built⟩, h.drained, h.closing, h.letGo⟩
  | started op l l' p dropped hl hp hsame hdrop hkeep => exact h.part hl rfl hp hkeep
  | letGo op i c l quiet hl hc => exact h.part hl rfl (l.part_beginRelease _ _) fun _ => rfl
  | resumed t r rest l l' p hl htasks hp =>
    exact h.part hl (show s.tasks = (some t).toList ++ rest from htasks) hp fun _ => rfl
  | lockMade k hl htasks => exact State.orderly_of_construction hl (.inr ⟨_, rfl, rfl⟩)
  | notReset k e hl htasks => exact State.orderly_of_construction hl (.inr ⟨_, rfl, rfl⟩)
  | notMade e hl htasks =>
    rw [State.advance_failed_construction (s := s.note _) hl]
    exact State.orderly_of_construction hl (.inl rfl)
  | givenUp k e r hl htasks =>
    rw [State.advance_failed_construction (s := s.note _) hl]
    exact State.orderly_of_construction hl (.inl rfl)
  | made k u hl htasks =>
    exact State.orderly_advance (p := .done) rfl (by simp)
      (fun hc => by simp at hc) (by simp) (by simp [Progress.reports])

/-! ## Runs -/

/-- The construction begins orderly, and every step is a turn. -/
theorem orderly_construct (name : String) (config : PipeConfig) :
    Orderly (State.construct name config) :=
  State.orderly_of_construction rfl (.inr ⟨_, rfl, rfl⟩)

theorem Orderly.turn_step {s : State} (h : Orderly s) (e : Event) : Turn s e (s.step e) := by
  cases e with
  | start op => exact s.turn_start op
  | reply r => exact s.turn_reply h.toStaged r

/-- What every turn keeps, a run keeps. -/
theorem Orderly.run_keeps {s : State} (ho : Orderly s) {P : State → Prop} (h : P s)
    (hturn : ∀ {m m' : State} {e : Event}, Orderly m → P m → Turn m e m' → P m')
    (es : List Event) : P (s.run es) := by
  induction es generalizing s with
  | nil => exact h
  | cons e es ih =>
    have ht := ho.turn_step e
    exact ih (ho.turn ht) (hturn ho h ht)

theorem Orderly.run {s : State} (h : Orderly s) (es : List Event) : Orderly (s.run es) :=
  h.run_keeps h (fun _ hm ht => hm.turn ht) es

/-! ## The history grows -/

namespace State

variable {s : State} {rest : List Task} {p : Progress}

theorem history_closeUnheld (s : State) : s.history <+: s.closeUnheld.history := by
  rcases s.closeUnheld_cases with ⟨heq, _⟩ | ⟨_, _, _, _, _, _, _, heq⟩
  · exact ⟨[], by rw [heq, List.append_nil]⟩
  · rw [heq]
    exact List.prefix_append _ _

theorem history_finish (s : State) (o : Outcome) : s.history <+: (s.finish o).history := by
  have := List.prefix_append s.history [.finished o]
  exact this.trans (history_closeUnheld (s.note (.finished o)))

theorem history_advance (s : State) (rest : List Task) (p : Progress) :
    s.history <+: (s.advance rest p).history := by
  cases p with
  | waits t => exact List.prefix_append _ _
  | accepted h =>
    exact history_finish { s with tasks := rest, connections := s.connections ++ [some _] } _
  | done => exact history_finish { s with tasks := rest } _
  | failed e => exact history_finish { s with tasks := rest } _
  | _ => exact List.prefix_refl _

/-- What is noted first stands first. -/
theorem history_advance_note (s : State) (e : Entry) (rest : List Task) (p : Progress) {m : State}
    (hm : m.history = s.history ++ [e]) : s.history <+: (m.advance rest p).history := by
  have := List.prefix_append s.history [e]
  rw [← hm] at this
  exact this.trans (history_advance m rest p)

end State

theorem Turn.history {s s' : State} {e : Event} (h : Turn s e s') : s.history <+: s'.history := by
  cases h with
  | nothing r => exact List.prefix_refl _
  | gone op =>
    have heq : ((s.note (.began op)).note (.finished .gone)).history =
        s.history ++ [.began op, .finished .gone] := by simp [State.note]
    rw [heq]
    exact List.prefix_append _ _
  | _ => exact State.history_advance_note s _ _ _ rfl

theorem Orderly.history_run {s : State} (h : Orderly s) (es : List Event) :
    s.history <+: (s.run es).history :=
  h.run_keeps (P := fun m => s.history <+: m.history) (List.prefix_refl _)
    (fun _ hm ht => hm.trans ht.history) es

end LocalIpc.Pipe

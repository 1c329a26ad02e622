import LocalIpc.Pipe.State
/-!
# What a step of a pipe listener can do

A step runs one part of one operation, from the native call that has returned to the next one.
`Part` lists the parts, and `Turn` says what a part does to the whole state. Every step is a turn,
so what holds after every turn holds at every point of a run.
-/

namespace LocalIpc.Pipe

/-! ## Parts of operations -/

/-- The task belongs to the construction of the listener. -/
def Task.builds : Task → Bool
  | creatingLock | resettingLock _ | givingUpLock .. => true
  | _ => false

/-- The task that an operation goes on to wait in. -/
@[simp] def Progress.task? : Progress → Option Task
  | waits t => some t
  | _ => none

/-- The operation is over and somebody is told, so the owner's wish to let the listener go is looked
at again. -/
def Progress.reports : Progress → Bool
  | .waits _ | .over => false
  | accepted _ | done | failed _ => true

/-- The failure of a close is kept for the end of a run through the instances. -/
def After.keeping (r : Except IoError Unit) : After → After
  | clearWaiting rest e quiet => clearWaiting rest (e <|> failure? r) quiet
  | clearHandedOut rest e quiet => clearHandedOut rest (e <|> failure? r) quiet
  | next => next

/-- How the listener `l` goes on after a release. -/
inductive Next (l : Listener) : After → Progress → Listener → Prop
  | refuse (e : ListenerError) : Next l (.refuse e) (.failed e) l
  | settle (quiet : Bool) : Next l (.settle quiet) .done l
  | waiting (h : Handle) (rest : List Handle) (e : Option IoError) (quiet : Bool) :
      Next l (.clearWaiting (h :: rest) e quiet)
        (.waits (.releasing .cancel h (.clearWaiting rest e quiet))) l
  | firstHandedOut (h : Handle) (rest : List Handle) (e : Option IoError) (quiet : Bool)
      (hr : l.registry.handedOut = h :: rest) :
      Next l (.clearWaiting [] e quiet)
        (.waits (.releasing .disconnect h (.clearHandedOut rest e quiet)))
        { l with registry := l.registry.clearHandedOut.2 }
  | noneHandedOut (e : Option IoError) (quiet : Bool) (hr : l.registry.handedOut = []) :
      Next l (.clearWaiting [] e quiet) (.waits (.closingLock l.lock e quiet))
        { l with registry := l.registry.clearHandedOut.2 }
  | handedOut (h : Handle) (rest : List Handle) (e : Option IoError) (quiet : Bool) :
      Next l (.clearHandedOut (h :: rest) e quiet)
        (.waits (.releasing .disconnect h (.clearHandedOut rest e quiet))) l
  | lock (e : Option IoError) (quiet : Bool) :
      Next l (.clearHandedOut [] e quiet) (.waits (.closingLock l.lock e quiet)) l

theorem Next.closed_eq {l l' : Listener} {next : After} {p : Progress} (h : Next l next p l') :
    l'.closed = l.closed := by cases h <;> rfl

/-- A client has come to the instance, by the reply to the task. -/
inductive Arrives (h : Handle) : Task → Reply → Prop
  | connected : Arrives h (.connecting h) (.connect .connected)
  | alreadyConnected : Arrives h (.connecting h) (.connect .alreadyConnected)
  | waited (u : Unit) : Arrives h (.waiting h) (.done (.ok u))

/-- One part of an operation of the listener `l`: the task that it leaves, with the reply to it,
what it comes to, and the listener after it. -/
inductive Part (l : Listener) : Option Task → Option Reply → Progress → Listener → Prop
  -- what begins
  | acceptClosed (hc : l.closed = true) : Part l none none (.failed .alreadyClosed) l
  | accept (hc : l.closed = false) : Part l none none (.waits .creating) l
  | bind : Part l none none (.failed Listener.bindError) l
  | drop : Part l none none .done l
  | closeClosed (quiet : Bool) (hc : l.closed = true) :
      Part l none none (if quiet then .over else .failed .alreadyClosed) l
  | close (quiet : Bool) (p : Progress) (l' : Listener) (hc : l.closed = false)
      (hn : Next { l with closed := true, registry := l.registry.clearWaiting.2 }
        (.clearWaiting l.registry.waiting none quiet) p l') :
      Part l none none p l'
  | releaseHandedOut (h : Handle) (quiet : Bool) (hh : h ∈ l.registry.handedOut) :
      Part l none none (.waits (.releasing .quiesce h (.settle quiet)))
        { l with registry := (l.registry.strikeHandedOut h).2 }
  | releaseWaiting (h : Handle) (quiet : Bool) (hh : h ∈ l.registry.waiting) :
      Part l none none (.waits (.releasing .cancel h (.settle quiet)))
        { l with registry := (l.registry.strikeWaiting h).2 }
  | releaseUntracked : Part l none none .done l
  -- an accept
  | createFailed (e : IoError) :
      Part l (some .creating) (some (.created (.error e))) (.failed (.native .pipeCreate e)) l
  | created (h : Handle) (hc : l.closed = false) :
      Part l (some .creating) (some (.created (.ok h))) (.waits (.connecting h))
        { l with registry := (l.registry.enroll h).2 }
  | createdLate (h : Handle) (hc : l.closed = true) (hh : h ∈ (l.registry.enroll h).2.waiting) :
      Part l (some .creating) (some (.created (.ok h)))
        (.waits (.releasing .cancel h (.refuse .alreadyClosed)))
        { l with registry := ((l.registry.enroll h).2.strikeWaiting h).2 }
  | createdKnown (h : Handle) (hc : l.closed = true) (hh : h ∉ (l.registry.enroll h).2.waiting) :
      Part l (some .creating) (some (.created (.ok h))) (.failed .alreadyClosed)
        { l with registry := ((l.registry.enroll h).2.strikeWaiting h).2 }
  | delivered (t : Task) (r : Reply) (h : Handle) (ha : Arrives h t r)
      (hh : h ∈ l.registry.waiting) :
      Part l (some t) (some r) (.accepted h) { l with registry := (l.registry.handOut h).2 }
  | missed (t : Task) (r : Reply) (h : Handle) (ha : Arrives h t r) (hh : h ∉ l.registry.waiting) :
      Part l (some t) (some r) (.failed .alreadyClosed) l
  | noData (h : Handle) : Part l (some (.connecting h)) (some (.connect .noData)) (.accepted h) l
  | pending (h : Handle) :
      Part l (some (.connecting h)) (some (.connect .pending)) (.waits (.waiting h)) l
  | connectFailed (h : Handle) (e : IoError) :
      Part l (some (.connecting h)) (some (.connect (.failed e)))
        (.failed (.native .pipeConnect e)) l
  | waitFailed (h : Handle) (e : IoError) (hh : h ∈ l.registry.waiting) :
      Part l (some (.waiting h)) (some (.done (.error e)))
        (.waits (.releasing .cancel h (.refuse (.native .pipeWait e))))
        { l with registry := (l.registry.strikeWaiting h).2 }
  | waitFailedLate (h : Handle) (e : IoError) (hh : h ∉ l.registry.waiting) :
      Part l (some (.waiting h)) (some (.done (.error e))) (.failed (.native .pipeWait e))
        { l with registry := (l.registry.strikeWaiting h).2 }
  -- a release
  | quiesced (h : Handle) (next : After) (r : Except IoError Unit) :
      Part l (some (.releasing .quiesce h next)) (some (.done r))
        (.waits (.releasing .disconnect h next)) l
  | calmed (call : ReleaseCall) (h : Handle) (next : After) (r : Except IoError Unit)
      (hcall : call = .cancel ∨ call = .disconnect) :
      Part l (some (.releasing call h next)) (some (.done r)) (.waits (.releasing .close h next)) l
  | settleFailed (h : Handle) (e : IoError) :
      Part l (some (.releasing .close h (.settle false))) (some (.done (.error e)))
        (.failed (.native .close e)) l
  | released (h : Handle) (next : After) (r : Except IoError Unit) (p : Progress) (l' : Listener)
      (hn : Next l (next.keeping r) p l') :
      Part l (some (.releasing .close h next)) (some (.done r)) p l'
  | unlocked (lock : Handle) (e : Option IoError) (quiet : Bool) (r : Except IoError Unit) :
      Part l (some (.closingLock lock e quiet)) (some (.done r)) (Listener.afterLock e quiet r) l

namespace Listener

variable (l : Listener)

theorem next_proceed (next : After) : Next l next (l.proceed next).1 (l.proceed next).2 := by
  cases next with
  | refuse e => exact .refuse e
  | settle quiet => exact .settle quiet
  | clearWaiting rest e quiet =>
    cases rest with
    | cons h rest => exact .waiting h rest e quiet
    | nil =>
      rcases hr : l.registry.handedOut with _ | ⟨h, rest⟩
      · simp only [proceed, Registry.clearHandedOut, hr]
        exact .noneHandedOut e quiet hr
      · simp only [proceed, Registry.clearHandedOut, hr]
        exact .firstHandedOut h rest e quiet hr
  | clearHandedOut rest e quiet =>
    cases rest with
    | cons h rest => exact .handedOut h rest e quiet
    | nil => exact .lock e quiet

theorem part_beginAccept : Part l none none l.beginAccept l := by
  unfold beginAccept
  split
  · exact .acceptClosed ‹_›
  · exact .accept (by simpa using ‹¬ l.closed = true›)

theorem part_beginClose (quiet : Bool) :
    Part l none none (l.beginClose quiet).1 (l.beginClose quiet).2 := by
  unfold beginClose
  split
  · exact .closeClosed quiet ‹_›
  · exact .close quiet _ _ (by simpa using ‹¬ l.closed = true›) (next_proceed _ _)

/-- A close closes the listener when it begins. -/
theorem closed_beginClose (quiet : Bool) : (l.beginClose quiet).2.closed = true := by
  unfold beginClose
  split
  · assumption
  · exact (next_proceed { l with closed := true, registry := l.registry.clearWaiting.2 }
      (.clearWaiting l.registry.waiting none quiet)).closed_eq

theorem part_beginRelease (h : Handle) (quiet : Bool) :
    Part l none none (l.beginRelease h quiet).1 (l.beginRelease h quiet).2 := by
  unfold beginRelease
  split
  · rename_i hh
    exact .releaseHandedOut h quiet (by simpa [Registry.isHandedOut] using hh)
  split
  · rename_i hh
    exact .releaseWaiting h quiet (by simpa [Registry.isWaiting] using hh)
  · exact .releaseUntracked

theorem part_afterCreate (r : Except IoError Handle) :
    Part l (some .creating) (some (.created r)) (l.afterCreate r).1 (l.afterCreate r).2 := by
  cases r with
  | error e => exact .createFailed e
  | ok h =>
    unfold afterCreate
    by_cases hc : l.closed = true
    · by_cases hh : h ∈ (l.registry.enroll h).2.waiting
      · simpa [hc, hh, Registry.strikeWaiting, Registry.isWaiting] using Part.createdLate h hc hh
      · simpa [hc, hh, Registry.strikeWaiting, Registry.isWaiting] using Part.createdKnown h hc hh
    · simp only [if_neg hc]
      exact .created h (by simpa using hc)

theorem part_deliver {t : Task} {r : Reply} {h : Handle} (ha : Arrives h t r) :
    Part l (some t) (some r) (l.deliver h).1 (l.deliver h).2 := by
  unfold deliver
  by_cases hh : h ∈ l.registry.waiting
  · simpa [Registry.handOut, Registry.isWaiting, hh] using Part.delivered t r h ha hh
  · simpa [Registry.handOut, Registry.isWaiting, hh] using Part.missed t r h ha hh

theorem part_afterConnect (h : Handle) (c : ConnectStart) :
    Part l (some (.connecting h)) (some (.connect c)) (l.afterConnect h c).1
      (l.afterConnect h c).2 := by
  cases c with
  | connected => exact part_deliver l .connected
  | alreadyConnected => exact part_deliver l .alreadyConnected
  | noData => exact .noData h
  | pending => exact .pending h
  | failed e => exact .connectFailed h e

theorem part_afterWait (h : Handle) (r : Except IoError Unit) :
    Part l (some (.waiting h)) (some (.done r)) (l.afterWait h r).1 (l.afterWait h r).2 := by
  cases r with
  | ok u => exact part_deliver l (.waited u)
  | error e =>
    unfold afterWait
    by_cases hh : h ∈ l.registry.waiting
    · simpa [Registry.strikeWaiting, Registry.isWaiting, hh] using Part.waitFailed h e hh
    · simpa [Registry.strikeWaiting, Registry.isWaiting, hh] using Part.waitFailedLate h e hh

theorem part_afterClose (h : Handle) (next : After) (r : Except IoError Unit) :
    Part l (some (.releasing .close h next)) (some (.done r)) (l.afterClose r next).1
      (l.afterClose r next).2 := by
  have hnext := Part.released h next r _ _ (next_proceed l (next.keeping r))
  -- only a close that somebody asked for tells of the failure
  cases next with
  | settle quiet =>
    cases quiet with
    | true => exact hnext
    | false =>
      cases r with
      | ok u => exact hnext
      | error e => exact .settleFailed h e
  | _ => exact hnext

theorem part_afterRelease (call : ReleaseCall) (h : Handle) (next : After)
    (r : Except IoError Unit) :
    Part l (some (.releasing call h next)) (some (.done r)) (l.afterRelease call h next r).1
      (l.afterRelease call h next r).2 := by
  cases call with
  | quiesce => exact .quiesced h next r
  | cancel => exact .calmed .cancel h next r (.inl rfl)
  | disconnect => exact .calmed .disconnect h next r (.inr rfl)
  | close => exact part_afterClose l h next r

end Listener

/-! ## Turns -/

/-- What the step of `s` on an event can come to. -/
inductive Turn (s : State) : Event → State → Prop
  | nothing (r : Reply) : Turn s (.reply r) s
  | gone (op : Operation) : Turn s (.start op) ((s.note (.began op)).note (.finished .gone))
  /-- An operation begins. An open listener is as before, and only `drop` lets it go. -/
  | started (op : Operation) (l l' : Listener) (p : Progress) (dropped : Bool)
      (hl : s.listener = some l) (hp : Part l none none p l') (hsame : l'.closed = false → l' = l)
      (hdrop : s.dropped = true → dropped = true)
      (hkeep : p.reports = false → dropped = s.dropped) :
      Turn s (.start op) ({ s.note (.began op) with listener := some l', dropped }.advance
        s.tasks p)
  /-- A connection gives its instance back. -/
  | letGo (op : Operation) (i : Nat) (c : Connection) (l : Listener) (quiet : Bool)
      (hl : s.listener = some l) (hc : s.connection? i = some c) :
      Turn s (.start op) ({ s.note (.began op) with
        listener := some (l.beginRelease c.handle quiet).2
        connections := s.connections.set i none }.advance s.tasks
          (l.beginRelease c.handle quiet).1)
  | resumed (t : Task) (r : Reply) (rest : List Task) (l l' : Listener) (p : Progress)
      (hl : s.listener = some l) (ht : s.tasks = t :: rest) (hp : Part l (some t) (some r) p l') :
      Turn s (.reply r) ({ s.note (.replied r) with listener := some l' }.advance rest p)
  | lockMade (h : Handle) (hl : s.listener = none) (ht : s.tasks = [.creatingLock]) :
      Turn s (.reply (.created (.ok h)))
        ((s.note (.replied (.created (.ok h)))).advance [] (.waits (.resettingLock h)))
  | notMade (e : IoError) (hl : s.listener = none) (ht : s.tasks = [.creatingLock]) :
      Turn s (.reply (.created (.error e)))
        ((s.note (.replied (.created (.error e)))).advance [] (.failed (.native .pipeCreate e)))
  | made (h : Handle) (u : Unit) (hl : s.listener = none) (ht : s.tasks = [.resettingLock h]) :
      Turn s (.reply (.done (.ok u))) ({ s.note (.replied (.done (.ok u))) with
        listener := some ⟨s.path, s.config, h, false, .empty⟩ }.advance [] .done)
  | notReset (h : Handle) (e : IoError) (hl : s.listener = none)
      (ht : s.tasks = [.resettingLock h]) :
      Turn s (.reply (.done (.error e)))
        ((s.note (.replied (.done (.error e)))).advance [] (.waits (.givingUpLock h e)))
  | givenUp (h : Handle) (e : IoError) (r : Except IoError Unit) (hl : s.listener = none)
      (ht : s.tasks = [.givingUpLock h e]) :
      Turn s (.reply (.done r))
        ((s.note (.replied (.done r))).advance [] (.failed (.native .pipeDisconnect e)))

/-- Until there is a listener only its construction runs. After that the construction is over. -/
structure Staged (s : State) : Prop where
  building : s.listener = none → s.tasks = [] ∨ ∃ t, s.tasks = [t] ∧ t.builds = true
  built : s.listener.isSome → ∀ t ∈ s.tasks, t.builds = false

namespace State

theorem turn_letGo (s : State) (op : Operation) (i : Nat) (quiet : Bool) :
    Turn s (.start op) ((s.note (.began op)).letGo i quiet) := by
  unfold letGo
  split
  · rename_i l c hl hc
    exact .letGo op i c l quiet hl hc
  · exact .gone op

/-- An operation that the listener is only asked about, or that it does alone. -/
theorem turn_startOn (s : State) (op : Operation) (l : Listener) (hl : s.listener = some l)
    (hop : ∀ i, op ≠ .closeConnection i ∧ op ≠ .dropConnection i) :
    Turn s (.start op) ((s.note (.began op)).startOn l op) := by
  have hsame : ∀ p dropped, Part l none none p l → (s.dropped = true → dropped = true) →
      (p.reports = false → dropped = s.dropped) →
      Turn s (.start op) ({ s.note (.began op) with dropped }.advance s.tasks p) := by
    intro p dropped hp hd hr
    have := Turn.started op l l p dropped hl hp (fun _ => rfl) hd hr
    rwa [← hl] at this
  cases op with
  | closeConnection i => exact absurd rfl (hop i).1
  | dropConnection i => exact absurd rfl (hop i).2
  | accept => exact hsame _ s.dropped l.part_beginAccept id (fun _ => rfl)
  | bind => exact hsame _ s.dropped .bind id (fun _ => rfl)
  | drop => exact hsame .done true .drop (fun _ => rfl) (by simp [Progress.reports])
  | close =>
    refine .started .close l _ _ s.dropped hl (l.part_beginClose false) ?_ id (fun _ => rfl)
    simp [l.closed_beginClose false]

/-- An operation of the listener finds it, or finds that its owner has let it go. -/
theorem start_cases (s : State) (op : Operation)
    (hop : ∀ i, op ≠ .closeConnection i ∧ op ≠ .dropConnection i) :
    (∃ l, s.listener = some l ∧ s.start op = (s.note (.began op)).startOn l op) ∨
      s.start op = (s.note (.began op)).note (.finished .gone) := by
  cases op with
  | closeConnection i => exact absurd rfl (hop i).1
  | dropConnection i => exact absurd rfl (hop i).2
  | accept | bind | close | drop =>
    rcases hl : s.listener with _ | l
    · exact .inr (by simp [start, note, hl])
    · cases hd : s.dropped with
      | true => exact .inr (by simp [start, note, hl, hd])
      | false => exact .inl ⟨l, rfl, by simp [start, note, hl, hd]⟩

theorem turn_start (s : State) (op : Operation) : Turn s (.start op) (s.start op) := by
  have honListener : (∀ i, op ≠ .closeConnection i ∧ op ≠ .dropConnection i) →
      Turn s (.start op) (s.start op) := by
    intro hop
    rcases start_cases s op hop with ⟨l, hl, heq⟩ | heq
    · rw [heq]
      exact turn_startOn s op l hl hop
    · rw [heq]
      exact .gone op
  cases op with
  | closeConnection i => exact turn_letGo s _ i false
  | dropConnection i => exact turn_letGo s _ i true
  | accept | bind | close | drop => exact honListener (by simp)

variable {s : State} {t : Task} {rest : List Task} {r : Reply}

theorem turn_resumeConstruction (s : State) (h : Staged s) (ht : s.tasks = t :: rest)
    (htakes : t.takes r = true) (hl : s.listener = none) :
    Turn s (.reply r) ((s.note (.replied r)).resumeConstruction rest t r) := by
  -- nothing but the construction is under way
  obtain ⟨hbuilds, rfl⟩ : t.builds = true ∧ rest = [] := by
    rcases h.building hl with hnil | ⟨u, hu, hbuilds⟩
    · simp [ht] at hnil
    · obtain ⟨rfl, rfl⟩ : t = u ∧ rest = [] := by simpa [ht] using hu
      exact ⟨hbuilds, rfl⟩
  cases t with
  | creatingLock =>
    rcases r with (_ | _) | _ | _
    · exact .notMade _ hl ht
    · exact .lockMade _ hl ht
    all_goals simp [Task.takes] at htakes
  | resettingLock k =>
    rcases r with _ | _ | (_ | _)
    · simp [Task.takes] at htakes
    · simp [Task.takes] at htakes
    · exact .notReset k _ hl ht
    · exact .made k _ hl ht
  | givingUpLock k e =>
    rcases r with _ | _ | r
    · simp [Task.takes] at htakes
    · simp [Task.takes] at htakes
    · exact .givenUp k e r hl ht
  | _ => simp [Task.builds] at hbuilds

/-- An operation of the listener goes on with one part. -/
theorem resume_part (s : State) {l : Listener} (hl : s.listener = some l)
    (hbuilds : t.builds = false) (htakes : t.takes r = true) (rest : List Task) :
    ∃ p l', Part l (some t) (some r) p l' ∧
      s.resume l rest t r = { s with listener := some l' }.advance rest p := by
  cases t with
  | creating =>
    rcases r with r | _ | _
    · exact ⟨_, _, l.part_afterCreate r, rfl⟩
    all_goals simp [Task.takes] at htakes
  | connecting k =>
    rcases r with _ | c | _
    · simp [Task.takes] at htakes
    · exact ⟨_, _, l.part_afterConnect k c, rfl⟩
    · simp [Task.takes] at htakes
  | waiting k =>
    rcases r with _ | _ | r
    · simp [Task.takes] at htakes
    · simp [Task.takes] at htakes
    · exact ⟨_, _, l.part_afterWait k r, rfl⟩
  | releasing call k next =>
    rcases r with _ | _ | r
    · simp [Task.takes] at htakes
    · simp [Task.takes] at htakes
    · exact ⟨_, _, l.part_afterRelease call k next r, rfl⟩
  | closingLock k e quiet =>
    rcases r with _ | _ | r
    · simp [Task.takes] at htakes
    · simp [Task.takes] at htakes
    · refine ⟨_, l, .unlocked k e quiet r, ?_⟩
      rw [← hl]
      rfl
  | _ => simp [Task.builds] at hbuilds

theorem turn_resume (s : State) (h : Staged s) (ht : s.tasks = t :: rest)
    (htakes : t.takes r = true) {l : Listener} (hl : s.listener = some l) :
    Turn s (.reply r) ((s.note (.replied r)).resume l rest t r) := by
  have hbuilds : t.builds = false := h.built (by simp [hl]) t (by simp [ht])
  obtain ⟨p, l', hp, heq⟩ := resume_part (s.note (.replied r)) hl hbuilds htakes rest
  rw [heq]
  exact .resumed t r rest l l' p hl ht hp

theorem turn_reply (s : State) (h : Staged s) (r : Reply) : Turn s (.reply r) (s.reply r) := by
  unfold reply
  split
  · exact .nothing r
  rename_i t rest ht
  by_cases htakes : t.takes r = true
  · rw [if_pos htakes]
    split
    · rename_i l hl
      exact turn_resume s h ht htakes hl
    · rename_i hl
      exact turn_resumeConstruction s h ht htakes hl
  · rw [if_neg htakes]
    exact .nothing r

end State

end LocalIpc.Pipe

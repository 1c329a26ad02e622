import LocalIpc.Proofs.Unix.Accepting
import LocalIpc.Proofs.Unix.Recorded
/-!
# The ledger of native calls

Which operations came to wait in which calls, step by step. The descriptor of a listener passes from
the listener to the task that shuts it down, and from there to the native close, which is called
once. That holds of every run, whatever the native calls reply.
-/

namespace LocalIpc.Unix

/-! ## What a step adds -/

/-- The operations that go on waiting when the event happens. -/
def State.under (s : State) : Event → List Frame
  | .reply r => match s.tasks with
    | f :: rest => if Frame.takes f r then rest else f :: rest
    | [] => []
  | .start _ | .world _ => s.tasks

/-- The operations that came to wait when the event happened. -/
def State.added (s : State) (e : Event) : List Frame :=
  (s.step e).tasks.take ((s.step e).tasks.length - (s.under e).length)

/-- The descriptor that an operation of listener `l` closes, in the call that it waits in. -/
def Frame.closes? (l : Nat) : Frame → Option Fd
  | .working k (.closing fd _) | .working k (.givingUp fd _ _ _) => if k = l then some fd else none
  | _ => none

/-- The descriptor that an operation of listener `l` shuts down, and closes after that. -/
def Frame.shuts? (l : Nat) : Frame → Option Fd
  | .working k (.shuttingDown fd _) => if k = l then some fd else none
  | _ => none

theorem Frame.shuts?_eq_some {l : Nat} {f : Frame} {fd : Fd} (h : f.shuts? l = some fd) :
    ∃ quiet, f = .working l (.shuttingDown fd quiet) := by
  unfold shuts? at h
  split at h
  · split at h
    · rename_i hkl
      subst hkl
      exact ⟨_, by rw [Option.some.inj h]⟩
    · simp at h
  · simp at h

/-- The operations that came to wait, as often as they did. -/
def State.entered : State → List Event → List Frame
  | _, [] => []
  | s, e :: es => s.added e ++ (s.step e).entered es

/-- The descriptors that the native close was called for as that of listener `l`. -/
def State.nativeCloses (l : Nat) (s : State) (es : List Event) : List Fd :=
  (s.entered es).filterMap (Frame.closes? l)

/-- The descriptors that the native shutdown was called for as that of listener `l`. -/
def State.nativeShutdowns (l : Nat) (s : State) (es : List Event) : List Fd :=
  (s.entered es).filterMap (Frame.shuts? l)

/-- The task, when the operation is one of listener `l`. -/
def Frame.task? (l : Nat) : Frame → Option Task
  | .working k t => if k = l then some t else none
  | _ => none

/-- The tasks of listener `l` that came to wait, in order. -/
def State.tasksOf (l : Nat) (s : State) (es : List Event) : List Task :=
  (s.entered es).filterMap (Frame.task? l)

/-- The descriptor that the native close is still to be called for as that of listener `l`. -/
def State.due (l : Nat) (s : State) : List Fd :=
  (s.listeners[l]?.bind fun x => x.slot.get).toList ++ s.tasks.filterMap (Frame.shuts? l)

section Ledger

variable (s : State) (l : Nat) (es fs : List Event)

theorem State.run_append : s.run (es ++ fs) = (s.run es).run fs := List.foldl_append

theorem State.entered_append : s.entered (es ++ fs) = s.entered es ++ (s.run es).entered fs := by
  induction es generalizing s with
  | nil => rfl
  | cons e es ih =>
    have hrun := ih (s.step e)
    rw [List.cons_append, entered, hrun, ← List.append_assoc]
    rfl

theorem State.nativeCloses_append :
    s.nativeCloses l (es ++ fs) = s.nativeCloses l es ++ (s.run es).nativeCloses l fs := by
  rw [nativeCloses, entered_append, List.filterMap_append]
  rfl

theorem State.nativeShutdowns_append :
    s.nativeShutdowns l (es ++ fs) = s.nativeShutdowns l es ++ (s.run es).nativeShutdowns l fs := by
  rw [nativeShutdowns, entered_append, List.filterMap_append]
  rfl

@[simp] theorem State.tasksOf_nil : s.tasksOf l [] = [] := rfl

theorem State.tasksOf_append :
    s.tasksOf l (es ++ fs) = s.tasksOf l es ++ (s.run es).tasksOf l fs := by
  rw [tasksOf, entered_append, List.filterMap_append]
  rfl

theorem State.tasksOf_cons (e : Event) :
    s.tasksOf l (e :: es) = (s.added e).filterMap (Frame.task? l) ++ (s.step e).tasksOf l es := by
  rw [tasksOf, entered, List.filterMap_append]
  rfl

variable {s l es}

/-- Where no shutdown is among the calls of a listener, its descriptor is not shut down. -/
theorem State.nativeShutdowns_eq_nil (config : UnixConfig)
    (h : ∀ fd, .shutdown fd ∉ (s.tasksOf l es).filterMap (Task.call config)) :
    s.nativeShutdowns l es = [] := by
  rw [nativeShutdowns, List.filterMap_eq_nil_iff]
  intro f hf
  cases hs : f.shuts? l with
  | none => rfl
  | some fd =>
    obtain ⟨quiet, rfl⟩ := Frame.shuts?_eq_some hs
    have hmem : .shuttingDown fd quiet ∈ s.tasksOf l es :=
      List.mem_filterMap.mpr ⟨_, hf, by simp [Frame.task?]⟩
    exact (h fd (List.mem_filterMap.mpr ⟨_, hmem, rfl⟩)).elim

end Ledger

/-! ## What a step is made of -/

/-- The step of `s` on the event lets listener `k` react, in `m`. -/
inductive State.Lets (s : State) : Event → State → Nat → Trigger → Prop
  | asked (op : Operation) (m : State) (k : Nat) (g : Trigger) (hop : op.asks? = some (k, g))
      (hl : s.isLocked k = false) : s.Lets (.start op) m k g
  | answered (m : State) (k : Nat) (t : Task) (rest : List Frame) (r : Reply)
      (ht : s.tasks = .working k t :: rest) (htakes : State.Frame.takes (.working k t) r = true) :
      s.Lets (.reply r) m k (.reply t r)
  | letGo (e : Event) (m : State) (k : Nat) (hu : m.isUnheld k = true) :
      s.Lets e m k (.close true)

/-- `s'` comes from `s` by reactions that `p` allows, and by what is the business of no listener. -/
inductive State.Parts (p : State → Nat → Trigger → Prop) (s : State) : State → Prop
  | same {s' : State} (ht : s'.tasks = s.tasks) (hl : s'.listeners = s.listeners) : Parts p s s'
  | made {s' : State} (x : Listener) (ht : s'.tasks = s.tasks)
      (hl : s'.listeners = s.listeners ++ [x]) : Parts p s s'
  | called {m : State} (f : Frame) (c : Call) (h : Parts p s m) (hf : ∀ k t, f ≠ .working k t) :
      Parts p s (m.push f c)
  | reacted {m : State} (k : Nat) (x : Listener) (g : Trigger) (host : Host) (h : Parts p s m)
      (hx : m.listeners[k]? = some x) (hp : p m k g) : Parts p s (m.take k (x.react host g))

section Made

variable {p : State → Nat → Trigger → Prop} {s m : State} {k : Nat} {x : Listener} {g : Trigger}
  {host : Host}

theorem State.Parts.closeUnheld (h : Parts p s m)
    (hu : ∀ m k, m.isUnheld k = true → p m k (.close true)) (k : Nat) :
    Parts p s (m.closeUnheld k) := by
  cases hheld : m.isUnheld k with
  | false =>
    rw [closeUnheld_of_held hheld]
    exact h
  | true =>
    rcases m.closeUnheld_cases k with heq | ⟨x, hr, heq⟩ <;> rw [heq]
    · exact h
    · exact .reacted k x _ m.host h hr.listener (hu m k hheld)

theorem State.Parts.advanceWith (h : Parts p s m) (hx : m.listeners[k]? = some x) (hp : p m k g)
    (hu : ∀ m k, m.isUnheld k = true → p m k (.close true)) :
    Parts p s (m.advanceWith k (x.react host g)) := by
  have htake : Parts p s (m.take k (x.react host g)) := .reacted k x g host h hx hp
  rcases m.advanceWith_cases k (x.react host g) with heq | heq <;> rw [heq]
  · exact htake
  · exact htake.closeUnheld hu k

theorem State.under_of_takes {f : Frame} {rest : List Frame} {r : Reply} (ht : s.tasks = f :: rest)
    (htakes : Frame.takes f r = true) : s.under (.reply r) = rest := by
  simp [under, ht, htakes]

/-- A step is made of reactions that the event brings about, above what it leaves to wait. -/
theorem State.parts_step (s : State) (e : Event) :
    ∃ m, m.tasks = s.under e ∧ m.listeners = s.listeners ∧ Parts (s.Lets e) m (s.step e) := by
  have hunheld : ∀ m k, m.isUnheld k = true → s.Lets e m k (.close true) :=
    fun m k hu => .letGo e m k hu
  have heffect := s.effect_step e
  generalize s.step e = s' at heffect ⊢
  cases heffect with
  | creates config =>
    exact ⟨s.note (.began (.create config)), rfl, rfl, .called _ _ (.same rfl rfl) (by simp)⟩
  | asks op k x g hop hx hfree =>
    exact ⟨s.note (.began op), rfl, rfl, State.Parts.advanceWith (.same rfl rfl)
      (listener?_eq_some hx).2 (.asked op _ k g hop hfree) hunheld⟩
  | drops k x hx =>
    refine ⟨s, rfl, rfl, State.Parts.closeUnheld ?_ hunheld k⟩
    exact .same rfl rfl
  | releases op i quiet c =>
    exact ⟨s, rfl, rfl, .called (m := { s.note (.began op) with
      connections := s.connections.set i none }) _ _ (.same rfl rfl) (by simp)⟩
  | ignored r hno =>
    refine ⟨s, ?_, rfl, .same rfl rfl⟩
    rcases ht : s.tasks with _ | ⟨f, rest⟩
    · simp [under, ht]
    · simp [under, ht, hno f rest ht]
  | notMade config err rest ht =>
    exact ⟨{ s with tasks := rest }, (under_of_takes ht rfl).symm, rfl, .same rfl rfl⟩
  | made config fd rest ht =>
    exact ⟨{ s with tasks := rest }, (under_of_takes ht rfl).symm, rfl, .made _ rfl rfl⟩
  | answered k x t r rest ht htakes hx =>
    exact ⟨{ s with tasks := rest }.note (.replied r), (under_of_takes ht htakes).symm, rfl,
      State.Parts.advanceWith (.same rfl rfl) hx (.answered _ k t rest r ht htakes) hunheld⟩
  | lost k t r rest ht htakes =>
    exact ⟨{ s with tasks := rest }, (under_of_takes ht htakes).symm, rfl, .same rfl rfl⟩
  | released fd quiet r rest o ht =>
    exact ⟨{ s with tasks := rest }, (under_of_takes ht rfl).symm, rfl, .same rfl rfl⟩
  | _ => exact ⟨s, rfl, rfl, .same rfl rfl⟩

end Made

/-! ## Reactions -/

/-- The descriptor of its listener that a task has taken over. -/
def Task.own? : Task → Option Fd
  | .givingUp fd _ _ _ | .shuttingDown fd _ | .closing fd _ => some fd
  | .binding .. | .listening .. | .accepting _ | .refusing _ => none
  | .looking .. | .probing .. | .clearing .. | .sweeping .. => none

def Progress.own? : Progress → Option Fd
  | .waits t => t.own?
  | .accepted _ | .done | .failed _ | .over => none

section Reactions

variable {x : Listener} {host : Host} {g : Trigger}

theorem Listener.get_retired (x : Listener) : x.retired.slot.get = none := rfl

/-- A listener that is given up passes its descriptor on. -/
theorem Listener.giveUp_passes (x : Listener) (host : Host) (path : Path)
    (created : Option FileId) (cause : ListenerError) :
    x.slot.get.toList = (x.giveUp host path created cause).1.own?.toList ++
      (x.giveUp host path created cause).2.1.slot.get.toList := by
  rw [giveUp_retires, get_retired]
  unfold giveUp
  split
  · rename_i fd hfd
    simp [hfd, Progress.own?, Task.own?]
  · rename_i hnone
    simp [hnone, finishGiveUp, finishEnd, told, Progress.own?]

/-- An operation at its end has nothing left to close. -/
theorem Listener.finishEndSlowly_own? (host : Host) (own : Option (Path × FileId)) (quiet : Bool)
    (result : Except ListenerError Unit) :
    (finishEndSlowly host own quiet result).own?.toList = [] := by
  rcases finishEndSlowly_cases host own quiet result with ⟨path, f, -, -, heq⟩ | heq <;> rw [heq]
  · rfl
  · cases result <;> cases quiet <;> rfl

theorem Listener.reply_passes {t : Task} {r : Reply} (x : Listener) (host : Host) (hm : t.Meets r)
    (ht : ∀ fd quiet, t ≠ .shuttingDown fd quiet) :
    x.slot.get.toList = (x.react host (.reply t r)).1.own?.toList ++
      (x.react host (.reply t r)).2.1.slot.get.toList := by
  cases hm with
  | listening fd path created r =>
    simp only [react]
    unfold afterListen
    split
    · exact giveUp_passes ..
    · split
      · exact giveUp_passes ..
      · rfl
  | shuttingDown fd quiet r => exact absurd rfl (ht fd quiet)
  | binding fd path address r => cases r <;> rfl
  | accepting fd r =>
    simp only [react, afterAccept]
    split
    · rfl
    · split <;> rfl
  | refusing client r => rfl
  | givingUp fd path created cause r => rfl
  | closing fd quiet r | sweeping path f quiet r => cases r <;> cases quiet <;> rfl
  | givingUpSlowly fd path created cause r =>
    exact congrArg (· ++ _) (finishEndSlowly_own? ..).symm
  | closingSlowly fd quiet r => exact congrArg (· ++ _) (finishEndSlowly_own? ..).symm
  | looking fd path address =>
    simp only [react, afterLook]
    split <;> rfl
  | probing fd path address =>
    simp only [react, afterProbe]
    split <;> rfl
  | clearing fd path address =>
    simp only [react, afterClear]
    split <;> rfl

/-- A reaction passes the descriptor of its listener to the task that it goes on with, or leaves it
to the listener. -/
theorem Listener.react_passes (x : Listener) (host : Host)
    (hg : ∀ fd quiet r, g ≠ .reply (.shuttingDown fd quiet) r) :
    x.slot.get.toList = (x.react host g).1.own?.toList ++
      (x.react host g).2.1.slot.get.toList := by
  cases g with
  | bind path =>
    simp only [react, beginBind]
    split
    · rfl
    · split <;> rfl
  | accept =>
    simp only [react, beginAccept]
    split
    · rfl
    · rfl
    · split <;> rfl
  | close quiet =>
    simp only [react, beginClose]
    split
    · cases quiet <;> rfl
    split
    · rename_i fd hfd
      rw [hfd]
      split <;> rfl
    · rename_i hnone
      rw [hnone]
      cases quiet <;> rfl
  | bindSlowly path =>
    simp only [react, beginBindSlowly]
    split <;> rfl
  | reply t r =>
    cases htakes : t.takes r with
    | false =>
      rw [react_untaken htakes]
      rfl
    | true =>
      exact x.reply_passes host (Task.meets_of_takes htakes)
        fun fd quiet ht => hg fd quiet r (ht ▸ rfl)

end Reactions

/-! ## One step -/

/-- Tasks come on top of those of `s`, and what was due in `s` is closed by one of them, or is due
still. -/
def State.Pays (l : Nat) (s s' : State) : Prop :=
  ∃ new, s'.tasks = new ++ s.tasks ∧
    (s.due l).Perm (new.filterMap (Frame.closes? l) ++ s'.due l)

section Paid

variable {s s' m : State} {l k : Nat} {x : Listener} {g : Trigger} {host : Host}

theorem State.Pays.trans (h : State.Pays l s m) (h' : State.Pays l m s') : State.Pays l s s' := by
  obtain ⟨new, ht, hp⟩ := h
  obtain ⟨new', ht', hp'⟩ := h'
  refine ⟨new' ++ new, by rw [ht', ht, List.append_assoc], hp.trans ?_⟩
  rw [List.filterMap_append, List.append_assoc]
  exact (hp'.append_left _).trans (List.perm_append_comm_assoc ..)

/-- Neither the tasks nor the listeners have changed. -/
theorem State.Pays.same (ht : s'.tasks = s.tasks) (hl : s'.listeners = s.listeners) :
    State.Pays l s s' :=
  ⟨[], ht, by simp [due, ht, hl]⟩

theorem State.Pays.push (s : State) (f : Frame) (c : Call) (hc : f.closes? l = none)
    (hs : f.shuts? l = none) : State.Pays l s (s.push f c) :=
  ⟨[f], rfl, by simp [due, State.push, note, hc, hs]⟩

/-- The task of listener `l` that a reaction goes on with. -/
def Progress.frames (l : Nat) : Progress → List Frame
  | .waits t => [.working l t]
  | .accepted _ | .done | .failed _ | .over => []

theorem State.tasks_take {p : Progress × Listener × Host} :
    (s.take l p).tasks = p.1.frames l ++ s.tasks := by
  rcases p with ⟨_ | _ | _ | _ | _, y, host⟩ <;> rfl

/-- What a reaction has taken over from its listener is closed, or is shut down first. -/
theorem Progress.own?_perm (l : Nat) (p : Progress) :
    p.own?.toList.Perm ((p.frames l).filterMap (Frame.closes? l) ++
      (p.frames l).filterMap (Frame.shuts? l)) := by
  cases p with
  | waits t => cases t <;> simp [Progress.own?, frames, Task.own?, Frame.closes?, Frame.shuts?]
  | _ => exact .refl _

theorem Progress.frames_ne (h : k ≠ l) (p : Progress) :
    (p.frames k).filterMap (Frame.closes? l) = [] ∧
      (p.frames k).filterMap (Frame.shuts? l) = [] := by
  cases p with
  | waits t => cases t <;> simp [frames, Frame.closes?, Frame.shuts?, h]
  | _ => exact ⟨rfl, rfl⟩

/-- A reaction. -/
theorem State.Pays.take (hx : s.listeners[k]? = some x)
    (hg : ∀ fd quiet r, k = l → g ≠ .reply (.shuttingDown fd quiet) r) :
    State.Pays l s (s.take k (x.react host g)) := by
  refine ⟨(x.react host g).1.frames k, tasks_take, ?_⟩
  rw [due, due, tasks_take, List.filterMap_append]
  by_cases hkl : k = l
  rotate_left
  · -- another listener, and another one's task
    rw [get_take_ne (Ne.symm hkl), (Progress.frames_ne hkl _).1, (Progress.frames_ne hkl _).2]
    exact .refl _
  subst hkl
  have hpasses := x.react_passes host fun fd quiet r => hg fd quiet r rfl
  generalize x.react host g = p at hpasses ⊢
  rw [get_take hx, hx]
  simp only [Option.bind_some, hpasses]
  rw [List.append_assoc]
  have hown := p.1.own?_perm k
  refine ((hown.append_right _).trans ?_)
  rw [List.append_assoc]
  exact (List.perm_append_comm_assoc ..).append_left _

/-- What is due is closed, or due still, after parts of which none is the return of a shutdown. -/
theorem State.Parts.pays {p : State → Nat → Trigger → Prop} (h : Parts p s s')
    (hl : l < s.listeners.length)
    (hp : ∀ m fd quiet r, ¬ p m l (.reply (.shuttingDown fd quiet) r)) : State.Pays l s s' := by
  induction h with
  | same ht hls => exact .same ht hls
  | made x ht hls =>
    have hget : (s.listeners ++ [x])[l]? = s.listeners[l]? := List.getElem?_append_left hl
    exact ⟨[], ht, by simp [due, ht, hls, hget]⟩
  | called f c h hf ih =>
    apply ih.trans
    apply State.Pays.push
    · cases f <;> simp_all [Frame.closes?]
    · cases f <;> simp_all [Frame.shuts?]
  | reacted k x g host h hx hallowed ih =>
    apply ih.trans
    apply State.Pays.take hx
    rintro fd quiet r rfl rfl
    exact hp _ fd quiet r hallowed

/-- When a shutdown has returned, the native close is called for what was shut down. -/
theorem State.pays_shut {fd : Fd} {quiet : Bool} {rest : List Frame} {r : Except IoError Unit}
    (ht : s.tasks = .working l (.shuttingDown fd quiet) :: rest) (hl : l < s.listeners.length) :
    ∃ new, (s.step (.reply (.done r))).tasks = new ++ rest ∧
      (s.due l).Perm (new.filterMap (Frame.closes? l) ++ (s.step (.reply (.done r))).due l) := by
  have hstep : s.step (.reply (.done r)) = ({ s with tasks := rest }.note (.replied (.done r))).push
      (.working l (.closing fd quiet)) (.close fd) := by
    have hx : ({ s with tasks := rest }.note (.replied (.done r))).listeners[l]? =
        some s.listeners[l] := List.getElem?_eq_getElem hl
    simp only [step, State.reply, ht, Frame.takes, Task.takes, if_true, resumeFrame, hx]
    rfl
  rw [hstep]
  refine ⟨[.working l (.closing fd quiet)], rfl, ?_⟩
  simp [due, ht, Frame.shuts?, Frame.closes?, State.push, note, List.filterMap_cons,
    List.perm_middle]

/-- A shutdown waits for its native call alone. -/
theorem State.takes_shuttingDown {fd : Fd} {quiet : Bool} {r : Reply}
    (h : Frame.takes (.working l (.shuttingDown fd quiet)) r = true) : ∃ r', r = .done r' := by
  cases r with
  | done r => exact ⟨r, rfl⟩
  | _ => simp [Frame.takes, Task.takes] at h

/-- What is due stays due when an operation goes on that shuts nothing down. -/
theorem State.due_under {e : Event} (ht : m.tasks = s.under e) (hm : m.listeners = s.listeners)
    (hshut : ∀ fd quiet rest r, s.tasks = .working l (.shuttingDown fd quiet) :: rest →
      e ≠ .reply (.done r)) : m.due l = s.due l := by
  rw [due, due, ht, hm]
  cases e with
  | start | world => rfl
  | reply r =>
    unfold under
    rcases htasks : s.tasks with _ | ⟨f, rest⟩
    · rfl
    simp only
    split
    rotate_left
    · rfl
    rename_i htakes
    rw [List.filterMap_cons]
    rcases hf : f.shuts? l with _ | fd
    · rfl
    obtain ⟨quiet, rfl⟩ := Frame.shuts?_eq_some hf
    obtain ⟨r, rfl⟩ := takes_shuttingDown htakes
    exact absurd rfl (hshut fd quiet rest r htasks)

/-- What is due is closed once, in the step that calls the native close for it. -/
theorem State.pays_step (hl : l < s.listeners.length) (e : Event) :
    (s.step e).tasks = s.added e ++ s.under e ∧
      (s.due l).Perm ((s.added e).filterMap (Frame.closes? l) ++ (s.step e).due l) := by
  have hpays : ∃ new, (s.step e).tasks = new ++ s.under e ∧
      (s.due l).Perm (new.filterMap (Frame.closes? l) ++ (s.step e).due l) := by
    -- the return of a shutdown closes what was due; every other part keeps the balance by itself
    by_cases hshut : ∃ fd quiet rest r,
        s.tasks = .working l (.shuttingDown fd quiet) :: rest ∧ e = .reply (.done r)
    · obtain ⟨fd, quiet, rest, r, ht, rfl⟩ := hshut
      have hunder : s.under (.reply (.done r)) = rest := under_of_takes ht rfl
      rw [hunder]
      exact pays_shut ht hl
    obtain ⟨m, ht, hm, hparts⟩ := s.parts_step e
    have hdue : m.due l = s.due l := by
      apply due_under ht hm
      rintro fd quiet rest r htasks rfl
      exact hshut ⟨fd, quiet, rest, r, htasks, rfl⟩
    rw [← hdue, ← ht]
    apply hparts.pays (by rwa [hm])
    rintro m fd quiet r hlets
    cases hlets with
    | answered _ _ _ rest r htasks htakes =>
      obtain ⟨r, rfl⟩ := takes_shuttingDown htakes
      exact hshut ⟨fd, quiet, rest, r, htasks, rfl⟩
    | asked op _ _ _ hop _ => exact Operation.asks?_ne_reply hop _ r rfl
  obtain ⟨new, hnew, hp⟩ := hpays
  have hadded : s.added e = new := by simp [added, hnew]
  rw [hadded]
  exact ⟨hnew, hp⟩

end Paid

/-! ## Every run -/

section Runs

variable {l : Nat}

theorem State.length_take (s : State) (k : Nat) (p : Progress × Listener × Host) :
    (s.take k p).listeners.length = s.listeners.length := by
  rw [listeners_take, List.length_set]

theorem State.length_step (s : State) (e : Event) :
    s.listeners.length ≤ (s.step e).listeners.length := by
  have hturn := s.turn_step e
  generalize s.step e = s' at hturn
  induction hturn with
  | aside e ha => exact Nat.le_of_eq (congrArg List.length ha.listeners.symm)
  | world host => exact Nat.le_refl _
  | made config fd rest ht => simp [finish, note]
  | asked op k x g hop hd hr => rw [length_take]; exact Nat.le_refl _
  | answered k x t r rest ht htakes hx => rw [length_take]; exact Nat.le_refl _
  | dropped k hk => exact Nat.le_refl _
  | letGo e m k x ht hr ih => rwa [length_take]

/-- What is due is closed once, or it is due still. -/
theorem State.pays_run (s : State) (hl : l < s.listeners.length) (es : List Event) :
    (s.due l).Perm (s.nativeCloses l es ++ (s.run es).due l) := by
  induction es generalizing s with
  | nil => exact .refl _
  | cons e es ih =>
    have hstep := (pays_step hl e).2
    have hrun := ih (s.step e) (Nat.lt_of_lt_of_le hl (s.length_step e))
    rw [nativeCloses, entered, List.filterMap_append, List.append_assoc]
    exact hstep.trans (hrun.append_left _)

/-- When nothing is due any more, nothing is shut down or closed any more. -/
theorem State.settled_of_due (s : State) (hl : l < s.listeners.length) (hdue : s.due l = [])
    (es : List Event) : s.nativeCloses l es = [] ∧ s.nativeShutdowns l es = [] := by
  induction es generalizing s with
  | nil => exact ⟨rfl, rfl⟩
  | cons e es ih =>
    obtain ⟨htasks, hpays⟩ := pays_step hl e
    rw [hdue, List.nil_perm, List.append_eq_nil_iff] at hpays
    obtain ⟨hcloses, hdue'⟩ := hpays
    obtain ⟨hclosed, hshut⟩ := ih (s.step e) (Nat.lt_of_lt_of_le hl (s.length_step e)) hdue'
    -- what a step begins is under way after it
    have hshuts : (s.added e).filterMap (Frame.shuts? l) = [] := by
      rw [due, List.append_eq_nil_iff, htasks, List.filterMap_append,
        List.append_eq_nil_iff] at hdue'
      exact hdue'.2.1
    constructor
    · rw [nativeCloses, entered, List.filterMap_append, hcloses]
      exact hclosed
    · rw [nativeShutdowns, entered, List.filterMap_append, hshuts]
      exact hshut

end Runs

end LocalIpc.Unix

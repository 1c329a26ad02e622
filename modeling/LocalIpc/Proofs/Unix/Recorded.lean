import LocalIpc.Proofs.Unix.Turn
import Mathlib.Data.List.Induction
import Mathlib.Data.List.Perm.Basic
/-!
# The file that a listener takes for its own

When its native bind returns, a listener takes the file at the path for the one that the bind has
made. What it takes for its own never changes after that: not while the bind goes on, is given up or
comes to its end, not by a close, and not by what other processes do to the path.
-/

namespace LocalIpc.Unix

/-! ## What is recorded -/

/-- The task belongs to a bind of a listener that is not bound yet. -/
def Task.binds : Task → Bool
  | binding .. | listening .. | looking .. | probing .. | clearing .. => true
  | _ => false

/-- The file that an operation takes for the one that the native bind has made. -/
def Task.made? : Task → Option (Path × FileId)
  | listening _ path (some f) | givingUp _ path (some f) _ | sweeping path f _ _ => some (path, f)
  | _ => none

/-- A bind at the file system has made no file yet. -/
theorem Task.Leads.binds {t u : Task} (h : t.Leads u) : t.binds = true ∧ u.made? = none := by
  cases h <;> exact ⟨rfl, rfl⟩

/-- When a native bind of listener `l` to the path returned, the file was there. -/
def Recorded (host : Host) (es : List (Nat × Event)) (l : Nat) (path : Path) (f : FileId) : Prop :=
  ∃ before i fd address rest, before ++ [(i, .reply (.done (.ok ())))] <+: es ∧
    (((State.start host).interleave before).raise i).tasks =
      .working l (.binding fd path address) :: rest ∧
    identity? ((State.start host).interleave before).host path = some f

theorem Listener.own?_eq_some {x : Listener} {path : Path} {f : FileId} :
    x.own? = some (path, f) ↔
      x.config.cleanupOnClose = true ∧ x.path = some path ∧ x.created = some f := by
  unfold own?
  split
  · cases hcreated : x.created <;> simp_all [madeAt]
  · rename_i hno
    refine ⟨by simp, fun h => absurd h.2.1 (hno path h.1)⟩

/-- A bind of the listener can go on. -/
def Listener.Binding (x : Listener) : Prop := x.phase = .unbound ∧ x.slot.get.isSome = true

/-- A bound listener has its descriptor, only a listener that was bound has a path, and what it
takes for its own is what `r` says. -/
structure Listener.Owns (x : Listener) (r : Path → FileId → Prop) : Prop where
  live : x.phase = .bound → x.slot.get.isSome = true
  named : x.phase = .unbound → x.path = none
  file : ∀ path f, x.path = some path → x.created = some f → r path f

/-- What binds and listeners take for their own is what `r` says, and a lock is held by one
operation at most. -/
structure Traced (r : Nat → Path → FileId → Prop) (s : State) : Prop where
  locks : s.locks.Nodup
  owns : ∀ (l : Nat) (x : Listener), s.listeners[l]? = some x → x.Owns (r l)
  binds : ∀ l t, .working l t ∈ s.tasks → t.binds = true →
    ∃ x, s.listeners[l]? = some x ∧ x.Binding
  made : ∀ l t path f, .working l t ∈ s.tasks → t.made? = some (path, f) → r l path f

/-- The task that a reaction goes on with is as `Traced` has it, and what a native bind has made is
what `r` says. -/
structure Fits (r : Path → FileId → Prop) (host : Host) (x : Listener) (g : Trigger) : Prop where
  binds : ∀ t reply, g = .reply t reply → t.binds = true → x.Binding
  made : ∀ t reply path f, g = .reply t reply → t.made? = some (path, f) → r path f
  recorded : ∀ fd path address u f, g = .reply (.binding fd path address) (.done (.ok u)) →
    identity? host path = some f → r path f

section Kept

variable {r q : Nat → Path → FileId → Prop} {s s' : State} {l : Nat} {x y : Listener} {g : Trigger}
  {e : Event} {t : Task} {host : Host}

theorem Traced.mono (h : Traced r s) (hrq : ∀ l path f, r l path f → q l path f) : Traced q s := by
  refine { locks := h.locks, owns := ?owns, binds := h.binds, made := ?made }
  case owns =>
    intro l x hx
    have hown := h.owns l x hx
    exact ⟨hown.live, hown.named, fun path f hp hc => hrq l path f (hown.file path f hp hc)⟩
  case made =>
    intro l t path f ht hm
    exact hrq l path f (h.made l t path f ht hm)

/-- Fewer tasks, and the same listeners. -/
theorem Traced.of_sublist {m : State} (h : Traced r s) (hl : m.listeners = s.listeners)
    (ht : ∀ l t, .working l t ∈ m.tasks → .working l t ∈ s.tasks)
    (hk : m.locks.Sublist s.locks) : Traced r m := by
  refine { locks := h.locks.sublist hk, owns := ?owns, binds := ?binds, made := ?made }
  case owns =>
    rw [hl]
    exact h.owns
  case binds =>
    intro l t hmem hb
    rw [hl]
    exact h.binds l t (ht l t hmem) hb
  case made =>
    intro l t path f hmem
    exact h.made l t path f (ht l t hmem)

theorem State.locks_take {p : Progress × Listener × Host} :
    (s.take l p).locks = (match p.1 with
      | .waits t => (Frame.working l t).locks
      | _ => []) ++ s.locks := by
  rcases p with ⟨_ | _ | _ | _ | _, y, host⟩ <;> rfl

theorem State.nodup_locks_take {p : Progress × Listener × Host} (h : s.locks.Nodup)
    (hl : ∀ t, p.1 = .waits t → t.holdsLock = true → l ∉ s.locks) : (s.take l p).locks.Nodup := by
  rw [locks_take]
  rcases p with ⟨t | _ | _ | _ | _, y, host⟩
  · refine List.nodup_append.mpr ⟨Frame.nodup_locks _, h, fun k hk j hj heq => ?_⟩
    cases ht : t.holdsLock with
    | false => simp [Frame.locks, ht] at hk
    | true =>
      obtain rfl := Frame.eq_of_mem_locks hk
      exact hl t rfl ht (heq ▸ hj)
  all_goals exact h

/-- A task that binds holds the lock of its listener. -/
theorem Task.holdsLock_of_binds (h : t.binds = true) : t.holdsLock = true := by
  cases t <;> simp_all [Task.binds, Task.holdsLock]

/-- Only a listener that is bound takes something else for its own. -/
theorem Listener.Owns.becomes {r : Path → FileId → Prop} (h : x.Owns r) (hf : Fits r host x g)
    (hb : Becomes x g y) : y.Owns r := by
  cases hb with
  | same g => exact h
  | closed quiet => exact ⟨by simp [Listener.retired], by simp [Listener.retired], h.file⟩
  | givenUp k path created r =>
    exact ⟨by simp [Listener.retired], by simp [Listener.retired], h.file⟩
  | bound k path created r =>
    refine ⟨fun _ => (hf.binds _ r rfl rfl).2, by simp, fun p f hp hc => ?_⟩
    obtain rfl := Option.some.inj hp
    have hc : created = some f := hc
    exact hf.made _ r path f rfl (by simp [Task.made?, hc])

/-- A reaction without the lock leaves the listener as it was. -/
theorem Becomes.eq_of_needsLock (hb : Becomes x g y) (hg : g.needsLock = false) : y = x := by
  cases hb <;> simp_all [Trigger.needsLock, Task.holdsLock]

/-- A bind that goes on does so with the listener that it found. -/
theorem Follows.binds_on {r : Path → FileId → Prop} (h : Follows x host g t) (hb : Becomes x g y)
    (hf : Fits r host x g) (ht : t.binds = true) : y.Binding := by
  cases h with
  | binding path fd address hc =>
    cases hb
    obtain ⟨hu, -, -, hslot⟩ := Listener.checkBind_eq_ok.mp hc
    exact ⟨hu, by simp [hslot]⟩
  | looking path fd address hc =>
    cases hb
    obtain ⟨hu, -, -, hslot⟩ := Listener.checkBind_eq_ok.mp hc
    exact ⟨hu, by simp [hslot]⟩
  | listening fd path address u =>
    cases hb
    exact hf.binds _ _ rfl rfl
  | led t u h =>
    cases hb with
    | same => exact hf.binds _ _ rfl h.binds.1
    | givenUp | bound => nomatch h
  | _ => simp [Task.binds] at ht

theorem Follows.made_by {r : Path → FileId → Prop} {path : Path} {f : FileId}
    (h : Follows x host g t) (ho : x.Owns r) (hf : Fits r host x g)
    (ht : t.made? = some (path, f)) : r path f := by
  cases h with
  | listening fd p address u =>
    have hid : identity? host p = some f ∧ p = path := by
      cases hid : identity? host p with
      | none => simp [Task.made?, hid] at ht
      | some i => simpa [Task.made?, hid, and_comm] using ht
    obtain ⟨hid, rfl⟩ := hid
    exact hf.recorded fd p address u f rfl hid
  | givingUp fd k p created reply cause hc =>
    refine hf.made _ _ path f rfl ?_
    cases created with
    | none => simp [Task.made?] at ht
    | some i => exact ht
  | led t u h => simp [h.binds.2] at ht
  | givenUp fd p i cause reply hs => exact hf.made _ _ path f rfl ht
  | closed fd quiet p i reply hown hs =>
    obtain ⟨rfl, rfl⟩ := Prod.mk.inj (Option.some.inj ht)
    obtain ⟨-, hpath, hcreated⟩ := Listener.own?_eq_some.mp hown
    exact ho.file _ _ hpath hcreated
  | _ => simp [Task.made?] at ht

/-- A reaction keeps what is taken for whose own. -/
theorem Traced.take (h : Traced r s) (hr : s.Ready l x g) (hf : Fits (r l) s.host x g) :
    Traced r (s.take l (x.react s.host g)) := by
  have hbecomes := x.react_becomes s.host g
  have hget := State.get_take (p := x.react s.host g) hr.listener
  generalize hy : (x.react s.host g).2.1 = y at hbecomes hget
  refine { locks := ?locks, owns := ?owns, binds := ?binds, made := ?made }
  case locks =>
    apply State.nodup_locks_take h.locks
    intro t ht hold
    exact hr.free ((Listener.react_waits ht).needsLock hold)
  case owns =>
    intro k z hz
    obtain ⟨rfl, rfl⟩ | ⟨-, hz⟩ := State.take_cases hr.listener hz
    · exact (h.owns l x hr.listener).becomes hf (hy ▸ hbecomes)
    · exact h.owns k z hz
  case binds =>
    intro k u hmem hb
    rcases State.mem_tasks_take.mp hmem with ⟨t, ht, heq⟩ | hold
    · obtain ⟨rfl, rfl⟩ := Frame.working.inj heq
      exact ⟨y, hget, (Listener.react_waits ht).binds_on hbecomes hf hb⟩
    · obtain ⟨z, hz, hbinding⟩ := h.binds k u hold hb
      by_cases hkl : k = l
      · -- another bind of this listener holds the lock, so this is no reaction that changes it
        subst hkl
        have hlock : k ∈ s.locks := State.mem_locks.mpr ⟨u, hold, Task.holdsLock_of_binds hb⟩
        have hg : g.needsLock = false := by
          cases hg : g.needsLock with
          | false => rfl
          | true => exact absurd hlock (hr.free hg)
        obtain rfl := hbecomes.eq_of_needsLock hg
        obtain rfl := Option.some.inj (hr.listener.symm.trans hz)
        exact ⟨_, hget, hbinding⟩
      · exact ⟨z, (State.get_take_ne hkl).trans hz, hbinding⟩
  case made =>
    intro k u path f hmem hm
    rcases State.mem_tasks_take.mp hmem with ⟨t, ht, heq⟩ | hmem
    · obtain ⟨rfl, rfl⟩ := Frame.working.inj heq
      exact (Listener.react_waits ht).made_by (h.owns _ x hr.listener) hf hm
    · exact h.made k u path f hmem hm

/-- A reaction to an operation, which goes on with no task. -/
theorem Fits.of_begun {r : Path → FileId → Prop} (hg : ∀ t reply, g ≠ .reply t reply) :
    Fits r host x g where
  binds t reply heq := absurd heq (hg t reply)
  made t reply _ _ heq := absurd heq (hg t reply)
  recorded _ _ _ _ _ heq := absurd heq (hg _ _)

/-- What an innermost task of `s` is about when it goes on. -/
theorem Traced.fits (h : Traced r s) {rest : List Frame} {reply : Reply}
    (ht : s.tasks = .working l t :: rest) (hx : s.listeners[l]? = some x)
    (hr : ∀ fd path address u f, t = .binding fd path address → reply = .done (.ok u) →
      identity? s.host path = some f → r l path f) : Fits (r l) s.host x (.reply t reply) := by
  have hmem : .working l t ∈ s.tasks := by simp [ht]
  refine { binds := ?binds, made := ?made, recorded := ?recorded }
  case binds =>
    intro u reply heq hb
    obtain ⟨rfl, rfl⟩ := Trigger.reply.inj heq
    obtain ⟨y, hy, hbinding⟩ := h.binds l t hmem hb
    obtain rfl := Option.some.inj (hy.symm.trans hx)
    exact hbinding
  case made =>
    intro u reply path f heq hm
    obtain ⟨rfl, rfl⟩ := Trigger.reply.inj heq
    exact h.made l t path f hmem hm
  case recorded =>
    intro fd path address u f heq hid
    obtain ⟨rfl, rfl⟩ := Trigger.reply.inj heq
    exact hr fd path address u f rfl rfl hid

theorem Traced.turn (h : Traced r s) (ht : Turn s e s')
    (hr : ∀ l fd path address rest f, s.tasks = .working l (.binding fd path address) :: rest →
      e = .reply (.done (.ok ())) → identity? s.host path = some f → r l path f) : Traced r s' := by
  have hpop : ∀ {f : Frame} {rest : List Frame} {m : State}, s.tasks = f :: rest →
      m.tasks = rest → m.listeners = s.listeners → Traced r m := by
    intro f rest m ht hm hl
    refine h.of_sublist hl (fun l t hmem => ht ▸ List.mem_cons_of_mem _ (hm ▸ hmem)) ?_
    rw [State.locks, State.locks, hm, ht, List.flatMap_cons]
    exact List.sublist_append_right _ _
  induction ht with
  | aside e ha => exact h.of_sublist ha.listeners ha.working ha.locks
  | world host => exact ⟨h.locks, h.owns, h.binds, h.made⟩
  | made config fd rest ht =>
    have hm := hpop (m := { s with tasks := rest }) ht rfl rfl
    refine { locks := hm.locks, owns := ?owns, binds := ?binds, made := hm.made }
    case owns =>
      intro l x hx
      rcases Nat.lt_or_ge l s.listeners.length with hlt | hge
      · exact h.owns l x ((List.getElem?_append_left hlt).symm.trans hx)
      · -- the new listener has not been bound
        have hnew := (List.getElem?_append_right hge).symm.trans hx
        obtain rfl := List.mem_singleton.mp (List.mem_of_getElem? hnew)
        exact ⟨by simp [Listener.fresh], by simp [Listener.fresh], by simp [Listener.fresh]⟩
    case binds =>
      intro l t hmem hb
      obtain ⟨x, hx, hbinding⟩ := hm.binds l t hmem hb
      exact ⟨x, (List.getElem?_append_left (List.getElem?_eq_some_iff.mp hx).1).trans hx, hbinding⟩
  | asked op l x g hop hd hready =>
    exact Traced.take (s := s.note (.began op)) ⟨h.locks, h.owns, h.binds, h.made⟩
      ⟨hready.listener, hready.free⟩ (.of_begun (Operation.asks?_ne_reply hop))
  | answered l x t reply rest ht htakes hx =>
    refine Traced.take (s := { s with tasks := rest }.note (.replied reply)) (hpop ht rfl rfl)
      ⟨hx, fun hlock hmem => ?_⟩ (h.fits ht hx fun fd path address u f htask hreply => ?_)
    · -- a lock that the task held is held by no task below
      have hn := h.locks
      rw [State.locks, ht, List.flatMap_cons] at hn
      have hl : l ∈ (Frame.working l t).locks := by
        have : t.holdsLock = true := hlock
        simp [Frame.locks, this]
      exact (List.nodup_append.mp hn).2.2 l hl l hmem rfl
    · subst htask hreply
      exact hr l fd path address rest f ht rfl
  | dropped l hl => exact ⟨h.locks, h.owns, h.binds, h.made⟩
  | letGo e m l x ht hready ih =>
    exact (ih hr).take hready (.of_begun (by simp))

/-! ## What a bound listener keeps -/

/-- The listener has been bound or closed, and `y` has the file and the settings of it. -/
structure Listener.Keeps (x y : Listener) : Prop where
  phase : y.phase ≠ .unbound
  path : y.path = x.path
  created : y.created = x.created
  config : y.config = x.config

theorem Listener.Keeps.trans {z : Listener} (h : x.Keeps y) (h' : y.Keeps z) : x.Keeps z :=
  ⟨h'.phase, h'.path.trans h.path, h'.created.trans h.created, h'.config.trans h.config⟩

theorem Becomes.keeps (hb : Becomes x g y) (hp : x.phase ≠ .unbound)
    (hbinds : ∀ t reply, g = .reply t reply → t.binds = true → x.Binding) : x.Keeps y := by
  cases hb with
  | same g => exact ⟨hp, rfl, rfl, rfl⟩
  | closed quiet => exact ⟨by simp [Listener.retired], rfl, rfl, rfl⟩
  | givenUp k path created r => exact ⟨by simp [Listener.retired], rfl, rfl, rfl⟩
  | bound k path created r => exact absurd (hbinds _ r rfl rfl).1 hp

theorem State.keeps_take {k : Nat} {z : Listener} (hz : s.listeners[k]? = some z)
    (hp : z.phase ≠ .unbound) (hx : s.listeners[l]? = some x)
    (hbinds : ∀ t reply, g = .reply t reply → t.binds = true → x.Binding) :
    ∃ y, (s.take l (x.react host g)).listeners[k]? = some y ∧ z.Keeps y := by
  by_cases hkl : k = l
  · subst hkl
    obtain rfl := Option.some.inj (hx.symm.trans hz)
    exact ⟨_, State.get_take hx, (x.react_becomes host g).keeps hp hbinds⟩
  · exact ⟨z, (State.get_take_ne hkl).trans hz, hp, rfl, rfl, rfl⟩

theorem Traced.keeps_turn {k : Nat} {z : Listener} (h : Traced r s) (ht : Turn s e s')
    (hz : s.listeners[k]? = some z) (hp : z.phase ≠ .unbound) :
    ∃ y, s'.listeners[k]? = some y ∧ z.Keeps y := by
  have hsame : ∃ y, s.listeners[k]? = some y ∧ z.Keeps y := ⟨z, hz, hp, rfl, rfl, rfl⟩
  induction ht with
  | aside e ha => rwa [ha.listeners]
  | world host => exact hsame
  | made config fd rest ht =>
    obtain ⟨y, hy, hkeeps⟩ := hsame
    exact ⟨y, (List.getElem?_append_left (List.getElem?_eq_some_iff.mp hy).1).trans hy, hkeeps⟩
  | asked op l x g hop hd hready =>
    exact State.keeps_take (s := s.note _) hz hp hready.listener fun t reply heq =>
      absurd heq (Operation.asks?_ne_reply hop t reply)
  | answered l x t reply rest ht htakes hx =>
    refine State.keeps_take (s := { s with tasks := rest }.note _) hz hp hx
      fun u reply' heq hb => ?_
    obtain ⟨rfl, -⟩ := Trigger.reply.inj heq
    obtain ⟨y, hy, hbinding⟩ := h.binds l t (by simp [ht]) hb
    exact Option.some.inj (hy.symm.trans hx) ▸ hbinding
  | dropped l hl => exact hsame
  | letGo e m l x ht hready ih =>
    obtain ⟨y, hy, hkeeps⟩ := ih
    obtain ⟨y', hy', hkeeps'⟩ : ∃ y', (m.take l (x.react m.host (.close true))).listeners[k]? =
        some y' ∧ y.Keeps y' :=
      State.keeps_take hy hkeeps.phase hready.listener (by simp)
    exact ⟨y', hy', hkeeps.trans hkeeps'⟩

end Kept

/-! ## Runs -/

section Raised

variable {s : State} {i : Nat}

@[simp] theorem State.listeners_raise : (s.raise i).listeners = s.listeners := by
  unfold raise
  split <;> rfl

@[simp] theorem State.host_raise : (s.raise i).host = s.host := by
  unfold raise
  split <;> rfl

theorem State.tasks_raise : (s.raise i).tasks.Perm s.tasks := by
  unfold raise
  split
  · rename_i f hf
    obtain ⟨hlt, rfl⟩ := List.getElem?_eq_some_iff.mp hf
    exact List.getElem_cons_eraseIdx_perm hlt
  · exact .refl _

/-- Who goes on next changes nothing yet. -/
theorem Traced.raise {r : Nat → Path → FileId → Prop} (h : Traced r s) (i : Nat) :
    Traced r (s.raise i) := by
  have hmem : ∀ l t, .working l t ∈ (s.raise i).tasks → .working l t ∈ s.tasks :=
    fun _ _ ht => State.tasks_raise.mem_iff.mp ht
  refine { locks := ?locks, owns := ?owns, binds := ?binds, made := ?made }
  case locks => exact (State.tasks_raise.flatMap_right Frame.locks).nodup_iff.mpr h.locks
  case owns =>
    rw [State.listeners_raise]
    exact h.owns
  case binds =>
    rw [State.listeners_raise]
    exact fun l t ht => h.binds l t (hmem l t ht)
  case made => exact fun l t path f ht => h.made l t path f (hmem l t ht)

end Raised

theorem State.interleave_append (s : State) (es fs : List (Nat × Event)) :
    s.interleave (es ++ fs) = (s.interleave es).interleave fs := List.foldl_append

theorem Recorded.mono {host : Host} {es fs : List (Nat × Event)} {l : Nat} {path : Path}
    {f : FileId} (h : Recorded host es l path f) : Recorded host (es ++ fs) l path f := by
  obtain ⟨before, i, fd, address, rest, hp, ht, hid⟩ := h
  exact ⟨before, i, fd, address, rest, hp.trans (List.prefix_append _ _), ht, hid⟩

/-- One event more, and what it records. -/
theorem Traced.step {host : Host} {before : List (Nat × Event)}
    (h : Traced (Recorded host before) ((State.start host).interleave before)) (i : Nat)
    (e : Event) : Traced (Recorded host (before ++ [(i, e)]))
      ((State.start host).interleave (before ++ [(i, e)])) := by
  rw [State.interleave_append]
  refine ((h.mono fun l path f hr => hr.mono).raise i).turn (State.turn_step _ e) ?_
  rintro l fd path address rest f ht rfl hid
  rw [State.host_raise] at hid
  exact ⟨before, i, fd, address, rest, List.prefix_refl _, ht, hid⟩

/-- At every point of a run, what is taken for whose own is what was at the path when the native
bind returned, in whatever order the operations go on. -/
theorem traced_interleave (host : Host) (es : List (Nat × Event)) :
    Traced (Recorded host es) ((State.start host).interleave es) := by
  induction es using List.reverseRecOn with
  | nil =>
    exact ⟨List.nodup_nil, by simp [State.interleave, State.start],
      by simp [State.interleave, State.start], by simp [State.interleave, State.start]⟩
  | append_singleton es e ih => exact ih.step e.1 e.2

/-- Whatever is recorded, a listener that was bound or closed keeps its file. -/
theorem Traced.keeps_run {s : State} {l : Nat} {x : Listener} (h : Traced (fun _ _ _ => True) s)
    (hx : s.listeners[l]? = some x) (hp : x.phase ≠ .unbound) (es : List Event) :
    ∃ y, (s.run es).listeners[l]? = some y ∧ x.Keeps y := by
  induction es generalizing s x with
  | nil => exact ⟨x, hx, hp, rfl, rfl, rfl⟩
  | cons e es ih =>
    obtain ⟨y, hy, hkeeps⟩ := h.keeps_turn (s.turn_step e) hx hp
    have hstep := h.turn (s.turn_step e) fun _ _ _ _ _ _ _ _ _ => trivial
    obtain ⟨z, hz, hkeeps'⟩ := ih hstep hy hkeeps.phase
    exact ⟨z, hz, hkeeps.trans hkeeps'⟩

end LocalIpc.Unix

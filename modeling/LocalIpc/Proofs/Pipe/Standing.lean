import Mathlib.Data.List.Nodup
import LocalIpc.Proofs.Pipe.Bookkeeping
/-!
# How handles stand

Each handle that is owed has a standing: what it went through, as far as giving it back goes. It is
read off the place that has the handle, the registry or a task. A step closes a handle that is ready
for it, or it moves the standing along by the calls that it makes.
-/

namespace LocalIpc.Pipe

/-! ## Calls that give a handle back -/

/-- The call prepares the handle for its close. -/
def Call.partsWith (h : Handle) : Call → Bool
  | cancel k | quiesce k _ | disconnect k => k = h
  | _ => false

/-- The calls that prepare the handle for its close, in order. -/
def partings (h : Handle) (es : List Entry) : List Call :=
  es.filterMap fun e => match e with
    | .called c => if c.partsWith h then some c else none
    | _ => none

theorem partings_append (h : Handle) (es fs : List Entry) :
    partings h (es ++ fs) = partings h es ++ partings h fs := List.filterMap_append

/-! ## Standings -/

/-- What a handle went through, as far as giving it back goes. -/
inductive Standing
  /-- It waits for a client. -/
  | waiting
  /-- It was handed out to a client that is connected. -/
  | served
  | cancelled
  | quiesced
  /-- It is disconnected; `own` says that its own connection has seen to that. -/
  | parted (own : Bool)
  /-- It reserves the name of the listener. -/
  | locked
  deriving DecidableEq

namespace Standing

/-- The calls that have prepared the handle for its close. -/
def calls (timeout : Nat) (h : Handle) : Standing → List Call
  | waiting | served => []
  | cancelled => [.cancel h]
  | quiesced => [.quiesce h timeout]
  | parted true => [.quiesce h timeout, .disconnect h]
  | parted false | locked => [.disconnect h]

def isPromoted : Standing → Bool
  | served | quiesced | parted _ => true
  | waiting | cancelled | locked => false

/-- Only the close is left. -/
def isFinal : Standing → Bool
  | cancelled | parted _ | locked => true
  | waiting | served | quiesced => false

end Standing

/-- How a handle stands while its release is in a call. -/
def ReleaseCall.standing? : ReleaseCall → After → Option Standing
  | cancel, _ => some .cancelled
  | quiesce, .settle _ => some .quiesced
  | disconnect, .settle _ => some (.parted true)
  | disconnect, .clearHandedOut .. => some (.parted false)
  | _, _ => none

/-- How the handles stand that are still to be closed after a release. -/
def After.standings (lock : Option Handle) : After → List (Handle × Standing)
  | refuse _ | settle _ => []
  | clearWaiting rest _ _ => rest.map (·, .waiting) ++ lock.toList.map (·, .locked)
  | clearHandedOut rest _ _ => rest.map (·, .served) ++ lock.toList.map (·, .locked)

def Task.standings (lock : Option Handle) : Task → List (Handle × Standing)
  | resettingLock h => [(h, .locked)]
  | releasing call h next => (call.standing? next).toList.map (h, ·) ++ next.standings lock
  | _ => []

def Listener.standings (l : Listener) : List (Handle × Standing) :=
  (if l.closed then [] else [(l.lock, .locked)]) ++
    (l.registry.waiting.map (·, .waiting) ++ l.registry.handedOut.map (·, .served))

def State.standings (s : State) : List (Handle × Standing) :=
  s.tasks.flatMap (Task.standings s.lock?) ++ (s.listener.map Listener.standings).getD []

/-! ## Standings belong to handles that are owed -/

section Owing

variable {l : Listener}

theorem Listener.fst_standings (l : Listener) : l.standings.map Prod.fst = l.owes := by
  unfold standings owes
  split <;> simp [Function.comp_def]

theorem After.fst_standings (next : After) (lock : Option Handle) :
    (next.standings lock).map Prod.fst = next.owes lock := by
  cases next <;> simp [standings, Function.comp_def]

theorem Task.fst_standings (t : Task) (lock : Option Handle) :
    ((t.standings lock).map Prod.fst).Sublist (t.owes lock) := by
  cases t with
  | releasing call h next =>
    rw [standings, List.map_append, next.fst_standings]
    cases call <;> cases next <;> simp [ReleaseCall.standing?]
  | _ => simp [standings]

theorem Task.fst_standings_flatMap (ts : List Task) (lock : Option Handle) :
    ((ts.flatMap (Task.standings lock)).map Prod.fst).Sublist (ts.flatMap (Task.owes lock)) := by
  induction ts with
  | nil => simp
  | cons t ts ih =>
    rw [List.flatMap_cons, List.map_append, List.flatMap_cons]
    exact (t.fst_standings lock).append ih

theorem State.fst_standings (s : State) : (s.standings.map Prod.fst).Sublist s.owed := by
  unfold standings owed
  rw [List.map_append]
  refine (Task.fst_standings_flatMap _ _).append ?_
  cases s.listener with
  | none => simp
  | some l => simp [l.fst_standings]

end Owing

/-- A handle that is owed once has one standing. -/
theorem standing_unique {xs : List (Handle × Standing)} (hn : (xs.map Prod.fst).Nodup) {h : Handle}
    {κ μ : Standing} (hκ : (h, κ) ∈ xs) (hμ : (h, μ) ∈ xs) : κ = μ :=
  congrArg Prod.snd (List.inj_on_of_nodup_map hn hκ hμ rfl)

/-! ## What a part does to a standing -/

/-- A task that comes to its call takes over a handle that stands as it should. -/
inductive Task.Receives : Task → Handle → Standing → Prop
  | cancel (h : Handle) (next : After) : Receives (.releasing .cancel h next) h .waiting
  | quiesce (h : Handle) (quiet : Bool) :
      Receives (.releasing .quiesce h (.settle quiet)) h .served
  | part (h : Handle) (quiet : Bool) :
      Receives (.releasing .disconnect h (.settle quiet)) h .quiesced
  | shed (h : Handle) (rest : List Handle) (e : Option IoError) (quiet : Bool) :
      Receives (.releasing .disconnect h (.clearHandedOut rest e quiet)) h .served
  | close (h : Handle) (next : After) (κ : Standing) (hκ : κ.isFinal = true) (hlock : κ ≠ .locked) :
      Receives (.releasing .close h next) h κ
  | closeLock (lock : Handle) (e : Option IoError) (quiet : Bool) :
      Receives (.closingLock lock e quiet) lock .locked
  | giveUp (lock : Handle) (e : IoError) : Receives (.givingUpLock lock e) lock .locked

/-- The handle that the call of a task is about to give back. -/
def Task.subject? : Task → Option Handle
  | releasing _ h _ | resettingLock h | givingUpLock h _ | closingLock h _ _ => some h
  | creatingLock | creating | connecting _ | waiting _ => none

/-- An accept that comes to `p` by the reply hands out the handle to a client that is connected. -/
def Progress.Promotes (p : Progress) (r : Option Reply) (h : Handle) : Prop :=
  p = .accepted h ∧ ∃ reply ∈ r, reply.completes = true

/-- What a part that comes to `p` by the reply makes of a handle that stands as it does. -/
inductive Handled (l' : Listener) (p : Progress) (r : Option Reply) (h : Handle) (κ : Standing) :
    Prop
  | received (t : Task) (hp : p = .waits t) (ht : t.Receives h κ)
  | kept
      (hm : (h, κ) ∈ p.task?.toList.flatMap (Task.standings (some l'.lock)) ++ l'.standings)
      (hs : ∀ t ∈ p.task?, t.subject? ≠ some h) (hr : ¬ p.Promotes r h)
  | served (hκ : κ = .waiting) (hp : p.Promotes r h) (hm : (h, .served) ∈ l'.standings)

section Parts

variable {l l' : Listener} {old : Option Task} {r : Option Reply} {p : Progress} {next : After}
  {h : Handle} {κ : Standing}

/-- A part that comes to a call leaves a handle as it stands that the call is not about. -/
theorem Handled.of_ne {t : Task} {k : Handle} (hs : t.subject? = some k) (hk : h ≠ k)
    (hm : (h, κ) ∈ t.standings (some l'.lock) ++ l'.standings) : Handled l' (.waits t) r h κ :=
  .kept (by simpa using hm) (by simpa [hs] using Ne.symm hk) (by simp [Progress.Promotes])

/-- A part that comes to a call takes over the handle that the call is about, and leaves any other
as it stands. -/
theorem Handled.of_waits {t : Task} {k : Handle} {μ : Standing} (hs : t.subject? = some k)
    (ht : t.Receives k μ) (hself : h = k → κ = μ)
    (hother : h ≠ k → (h, κ) ∈ t.standings (some l'.lock) ++ l'.standings) :
    Handled l' (.waits t) r h κ := by
  by_cases hk : h = k
  · obtain rfl := hself hk
    exact .received t rfl (hk ▸ ht)
  · exact .of_ne hs hk (hother hk)

/-- A run through the instances takes them over one by one, and the lock after them. -/
theorem Next.handled (hnext : Next l next p l') (hn : (next.owes (some l.lock) ++ l.owes).Nodup)
    (hm : (h, κ) ∈ next.standings (some l.lock) ++ l.standings) (r : Option Reply) :
    Handled l' p r h κ := by
  rw [← next.fst_standings, ← l.fst_standings, ← List.map_append] at hn
  -- where the handle is found, there it stands
  have hstands : ∀ μ, (h, μ) ∈ next.standings (some l.lock) ++ l.standings → κ = μ := fun μ =>
    standing_unique hn hm
  cases hnext with
  | refuse e | settle quiet => exact .kept hm (by simp) (by simp [Progress.Promotes])
  | waiting k rest e quiet =>
    refine .of_waits rfl (.cancel k _) (fun hk => hstands .waiting ?_) fun hk => ?_
    · simp [After.standings, hk]
    · simpa [After.standings, Task.standings, ReleaseCall.standing?, hk] using hm
  | firstHandedOut k rest e quiet hr =>
    refine .of_waits rfl (.shed k rest e quiet) (fun hk => hstands .served ?_) fun hk => ?_
    · simp [Listener.standings, hr, hk]
    · simp [After.standings, Task.standings, ReleaseCall.standing?, Listener.standings, hk, hr,
        Registry.clearHandedOut] at hm ⊢
      grind
  | handedOut k rest e quiet =>
    refine .of_waits rfl (.shed k rest e quiet) (fun hk => hstands .served ?_) fun hk => ?_
    · simp [After.standings, hk]
    · simpa [After.standings, Task.standings, ReleaseCall.standing?, hk] using hm
  | noneHandedOut e quiet hr =>
    refine .of_waits rfl (.closeLock l.lock e quiet) (fun hk => hstands .locked ?_) fun hk => ?_
    · simp [After.standings, hk]
    · simpa [After.standings, Task.standings, Listener.standings, hk, hr, Registry.clearHandedOut]
        using hm
  | lock e quiet =>
    refine .of_waits rfl (.closeLock l.lock e quiet) (fun hk => hstands .locked ?_) fun hk => ?_
    · simp [After.standings, hk]
    · simpa [After.standings, Task.standings, hk] using hm

theorem Listener.mem_standings : (h, κ) ∈ l.standings ↔
    (l.closed = false ∧ h = l.lock ∧ κ = .locked) ∨ (h ∈ l.registry.waiting ∧ κ = .waiting) ∨
      h ∈ l.registry.handedOut ∧ κ = .served := by
  unfold standings
  cases l.closed <;> simp [eq_comm]

/-- A registry that still has the handle where it was. -/
theorem Listener.standings_change (hm : (h, κ) ∈ l.standings) (hlock : l'.lock = l.lock)
    (hc : l'.closed = l.closed) (hw : h ∈ l.registry.waiting → h ∈ l'.registry.waiting)
    (ho : h ∈ l.registry.handedOut → h ∈ l'.registry.handedOut) : (h, κ) ∈ l'.standings := by
  rw [Listener.mem_standings] at hm ⊢
  rw [hlock, hc]
  exact hm.imp_right (Or.imp (And.imp_left hw) (And.imp_left ho))

theorem Registry.mem_enroll {g : Registry} {k : Handle} (hw : h ∈ g.waiting) :
    h ∈ (g.enroll k).2.waiting := by
  unfold Registry.enroll
  split
  · exact hw
  · exact HandleSet.mem_insert.mpr (.inr hw)

theorem After.standings_keeping (next : After) (r : Except IoError Unit) (lock : Option Handle) :
    (next.keeping r).standings lock = next.standings lock := by cases next <;> rfl

/-- A part that makes no call for the handle, and hands it out to nobody. -/
theorem Handled.of_listener (hm : (h, κ) ∈ l'.standings)
    (hs : ∀ t ∈ p.task?, t.subject? ≠ some h) (hr : ¬ p.Promotes r h) : Handled l' p r h κ :=
  .kept (List.mem_append_right _ hm) hs hr

theorem Listener.not_promotes_afterLock (e : Option IoError) (quiet : Bool)
    (reply : Except IoError Unit) : ¬ (Listener.afterLock e quiet reply).Promotes r h := by
  unfold Listener.afterLock Progress.Promotes
  split
  · simp
  · split <;> simp

/-- After a cancel or a disconnect only the close is left. -/
theorem ReleaseCall.isFinal_of_standing? {call : ReleaseCall}
    (hcall : call = .cancel ∨ call = .disconnect) (hκ : call.standing? next = some κ) :
    κ.isFinal = true ∧ κ ≠ .locked := by
  rcases hcall with rfl | rfl <;> cases next <;> cases hκ <;> exact ⟨rfl, by simp⟩

/-- A release goes on with the call that comes next. -/
theorem Part.handled_release {call : ReleaseCall} {k : Handle} {reply : Except IoError Unit}
    (hpart : Part l (some (.releasing call k next)) (some (.done reply)) p l')
    (hcall : call ≠ .close)
    (hn : ((Task.releasing call k next).owes (some l.lock) ++ l.owes).Nodup)
    (hm : (h, κ) ∈ (Task.releasing call k next).standings (some l.lock) ++ l.standings)
    (hstands : ∀ μ, (h, μ) ∈ (Task.releasing call k next).standings (some l.lock) ++ l.standings →
      κ = μ) : Handled l' p (some (.done reply)) h κ := by
  -- what the release is not about it leaves alone
  have hrest : h ≠ k → (h, κ) ∈ next.standings (some l.lock) ++ l.standings := by
    intro hk
    simpa [Task.standings, Ne.symm hk] using hm
  -- a handle without a standing at this point of its release is none that is still owed elsewhere
  have hother : call.standing? next = none → h ≠ k := by
    rintro hnone rfl
    have hmem : h ∈ next.owes (some l.lock) ++ l.owes := by
      rw [← next.fst_standings, ← l.fst_standings, ← List.map_append]
      refine List.mem_map.mpr ⟨(h, κ), ?_, rfl⟩
      simpa [Task.standings, hnone] using hm
    have hhead : (h :: (next.owes (some l.lock) ++ l.owes)).Nodup := by
      cases call <;> simp_all
    exact (List.nodup_cons.mp hhead).1 hmem
  cases hpart with
  | quiesced =>
    cases next with
    | settle quiet =>
      refine .of_waits rfl (.part k quiet) (fun hk => hstands .quiesced ?_) fun hk => ?_
      · simp [Task.standings, ReleaseCall.standing?, hk]
      · simpa [Task.standings] using Or.inr (List.mem_append.mp (hrest hk))
    | _ =>
      -- no other release waits for the work
      have hk := hother rfl
      refine .of_ne rfl hk ?_
      simpa [Task.standings, hk] using Or.inr (List.mem_append.mp (hrest hk))
  | calmed =>
    cases hst : call.standing? next with
    | none =>
      have hk := hother hst
      refine .of_ne rfl hk ?_
      simpa [Task.standings, ReleaseCall.standing?] using List.mem_append.mp (hrest hk)
    | some μ =>
      obtain ⟨hfinal, hlock⟩ := ReleaseCall.isFinal_of_standing? ‹_› hst
      refine .of_waits rfl (.close k next μ hfinal hlock) (fun hk => hstands μ ?_) fun hk => ?_
      · simp [Task.standings, hst, hk]
      · simpa [Task.standings, ReleaseCall.standing?] using List.mem_append.mp (hrest hk)
  | settleFailed | released => exact absurd rfl hcall
  | delivered _ _ _ ha | missed _ _ _ ha => cases ha

/-- A part takes a handle over that stands as it should, hands it out to a client that is connected,
or leaves it as it stands. -/
theorem Part.handled (hpart : Part l old r p l')
    (hn : (old.toList.flatMap (Task.owes (some l.lock)) ++ l.owes).Nodup)
    (hf : ∀ k ∈ r.toList.flatMap Reply.brings, h ≠ k)
    (hm : (h, κ) ∈ old.toList.flatMap (Task.standings (some l.lock)) ++ l.standings) :
    Handled l' p r h κ := by
  have hstands : ∀ μ, (h, μ) ∈ old.toList.flatMap (Task.standings (some l.lock)) ++ l.standings →
      κ = μ := by
    intro μ
    refine standing_unique (hn.sublist ?_) hm
    rw [List.map_append, l.fst_standings]
    exact (Task.fst_standings_flatMap _ _).append_right _
  cases hpart with
  | close quiet p l' hc hnext =>
    refine hnext.handled ?_ ?_ none
    · have hperm : (l.lock :: (l.registry.waiting ++ l.registry.handedOut)).Nodup := by
        simpa [Listener.owes, hc] using hn
      have hmiddle : (l.registry.waiting ++ l.lock :: l.registry.handedOut).Nodup :=
        List.perm_middle.nodup_iff.mpr hperm
      simpa [Listener.owes, Registry.clearWaiting] using hmiddle
    · simp [After.standings, Listener.standings, hc, Registry.clearWaiting] at hm ⊢
      grind
  | released k next reply p l' hnext =>
    refine hnext.handled ?_ ?_ _
    · rw [After.owes_keeping]
      simpa using hn
    · rw [After.standings_keeping]
      simpa [Task.standings, ReleaseCall.standing?] using hm
  | quiesced k next reply =>
    refine Part.handled_release (.quiesced k next reply) (by simp) ?_ ?_ ?_
    · simpa using hn
    · simpa using hm
    · simpa using hstands
  | calmed call k next reply hcall =>
    refine Part.handled_release (.calmed call k next reply hcall) ?_ ?_ ?_ ?_
    · rcases hcall with rfl | rfl <;> simp
    · simpa using hn
    · simpa using hm
    · simpa using hstands
  | releaseHandedOut k quiet hh =>
    refine .of_waits rfl (.quiesce k quiet) (fun hk => hstands .served ?_) fun hk => ?_
    · simp [Listener.mem_standings, hh, hk]
    · exact List.mem_append_right _ (Listener.standings_change (l := l) (by simpa using hm) rfl rfl
        id fun ho => HandleSet.mem_remove.mpr ⟨ho, hk⟩)
  | releaseWaiting k quiet hh | waitFailed k e hh =>
    refine .of_waits rfl (.cancel k _) (fun hk => hstands .waiting ?_) fun hk => ?_
    · simp [Listener.mem_standings, hh, hk]
    · exact List.mem_append_right _ (Listener.standings_change (l := l)
        (by simpa [Task.standings] using hm) rfl rfl
        (fun hw => HandleSet.mem_remove.mpr ⟨hw, hk⟩) id)
  | waitFailedLate k e hh =>
    refine .of_listener ?_ (by simp) (by simp [Progress.Promotes])
    refine Listener.standings_change (l := l) (by simpa [Task.standings] using hm) rfl rfl
      (fun hw => HandleSet.mem_remove.mpr ⟨hw, fun heq => hh (heq ▸ hw)⟩) id
  | created k hc =>
    refine .of_listener ?_ (by simp [Task.subject?]) (by simp [Progress.Promotes])
    exact Listener.standings_change (l := l) (by simpa [Task.standings] using hm) rfl rfl
      Registry.mem_enroll fun ho => by rwa [Registry.handedOut_enroll]
  | createdLate k hc hh | createdKnown k hc hh =>
    have hk : h ≠ k := hf k (by simp)
    refine .of_listener ?_ (by simp [Task.subject?, Ne.symm hk]) (by simp [Progress.Promotes])
    refine Listener.standings_change (l := l) (by simpa [Task.standings] using hm) rfl rfl
      (fun hw => ?_) fun ho => ?_
    · exact HandleSet.mem_remove.mpr ⟨Registry.mem_enroll hw, hk⟩
    · rwa [Registry.handedOut_strikeWaiting, Registry.handedOut_enroll]
  | delivered t reply k ha hh =>
    -- the only part that hands an instance out to a client that is connected
    have hm : (h, κ) ∈ l.standings := by cases ha <;> simpa [Task.standings] using hm
    have hreg := Registry.handOut_of_waiting hh
    by_cases hk : h = k
    · subst hk
      obtain rfl := hstands .waiting
        (List.mem_append_right _ (by simp [Listener.mem_standings, hh]))
      refine .served rfl ⟨rfl, reply, rfl, by cases ha <;> rfl⟩ ?_
      simp [Listener.mem_standings, hreg, HandleSet.mem_insert]
    · refine .of_listener ?_ (by simp) fun hp => hk (Progress.accepted.inj hp.1).symm
      refine Listener.standings_change hm rfl rfl (fun hw => ?_) fun ho => ?_
      · exact hreg ▸ HandleSet.mem_remove.mpr ⟨hw, hk⟩
      · exact hreg ▸ HandleSet.mem_insert.mpr (.inr ho)
  | missed t reply k ha hh =>
    exact .of_listener (by cases ha <;> simpa [Task.standings] using hm) (by simp)
      (by simp [Progress.Promotes])
  | closeClosed quiet hc =>
    cases quiet <;> exact .of_listener (by simpa using hm) (by simp) (by simp [Progress.Promotes])
  | unlocked lock e quiet reply =>
    refine .of_listener (by simpa [Task.standings] using hm) ?_
      (Listener.not_promotes_afterLock e quiet reply)
    rw [Listener.task?_afterLock]
    simp
  | settleFailed k e =>
    exact .of_listener (by simpa [Task.standings, ReleaseCall.standing?, After.standings] using hm)
      (by simp) (by simp [Progress.Promotes])
  | _ =>
    exact .of_listener (by simpa [Task.standings] using hm) (by simp [Task.subject?])
      (by simp [Progress.Promotes, Reply.completes])

/-- What a part is about to give back is owed before it, or has just been made. -/
theorem Part.subject_mem (hpart : Part l old r p l') (hn : l.owes.Nodup)
    (hf : ∀ k ∈ r.toList.flatMap Reply.brings, k ∉ l.owes) {t : Task} (ht : t ∈ p.task?)
    (hs : t.subject? = some h) :
    h ∈ r.toList.flatMap Reply.brings ++
      (old.toList.flatMap (Task.owes (some l.lock)) ++ l.owes) := by
  refine (hpart.conserves hn hf).mem_iff.mp (List.mem_append_left _ ?_)
  rw [Option.mem_def.mp ht]
  cases t with
  | releasing call k next =>
    obtain rfl := Option.some.inj hs
    cases call <;> simp
  | resettingLock k | givingUpLock k e | closingLock k e quiet =>
    obtain rfl := Option.some.inj hs
    simp
  | _ => simp [Task.subject?] at hs

end Parts

/-! ## What a step does to a standing -/

/-- The task ends the reservation of the name. -/
def Task.unreserves : Task → Bool
  | closingLock .. | givingUpLock .. => true
  | _ => false

/-- What the entries `new` that led to the state make of a handle: they close it, when only that was
left, or it stands elsewhere, by the calls among them. -/
def State.Carries (s : State) (timeout : Nat) (h : Handle) (κ : Standing) (now : Prop)
    (new : List Entry) : Prop :=
  (.called (.close h) ∈ new ∧ κ.isFinal = true ∧
      (κ = .locked → ∃ t ∈ s.tasks, t.unreserves = true)) ∨
    .called (.close h) ∉ new ∧ ∃ μ, (h, μ) ∈ s.standings ∧
      μ.calls timeout h = κ.calls timeout h ++ partings h new ∧
      (μ.isPromoted = true ↔ κ.isPromoted = true ∨ now) ∧ (μ = .locked ↔ κ = .locked)

section Carrying

variable {s m : State} {timeout : Nat} {h : Handle} {κ : Standing} {now : Prop} {new : List Entry}
  {l l' : Listener} {t : Task} {rest : List Task} {p : Progress}

theorem State.standings_of_listener (hl : s.listener = some l) :
    s.standings = s.tasks.flatMap (Task.standings (some l.lock)) ++ l.standings := by
  simp [standings, lock?, hl]

theorem State.standings_push (s : State) (t : Task) :
    (s.push t).standings = t.standings s.lock? ++ s.standings := by
  simp [standings, push, note, lock?]

/-- Nothing happens to the handle. -/
theorem State.Carries.same (hm : (h, κ) ∈ s.standings) (hclose : .called (.close h) ∉ new)
    (hnew : partings h new = []) (hnow : ¬ now) : s.Carries timeout h κ now new :=
  .inr ⟨hclose, κ, hm, by simp [hnew], by simp [hnow], .rfl⟩

/-- Entries that make no call come before. -/
theorem State.Carries.note (hc : s.Carries timeout h κ now new) {pre : List Entry}
    (hpre : ∀ c, .called c ∉ pre) : s.Carries timeout h κ now (pre ++ new) := by
  have hnil : partings h pre = [] := by
    refine List.filterMap_eq_nil_iff.mpr fun e he => ?_
    cases e with
    | called c => exact absurd he (hpre c)
    | _ => rfl
  have hmem : .called (.close h) ∈ pre ++ new ↔ .called (.close h) ∈ new := by simp [hpre]
  rwa [State.Carries, hmem, partings_append, hnil, List.nil_append]

/-- The call of a task that takes the handle over moves its standing along. -/
theorem State.Carries.received (ht : t.Receives h κ) (s : State) :
    (s.push t).Carries s.config.disconnectTimeout h κ False
      [.called (t.call s.path s.config)] := by
  have hmoved : ∀ μ, (h, μ) ∈ t.standings s.lock? → t.call s.path s.config ≠ .close h →
      μ.calls s.config.disconnectTimeout h = κ.calls s.config.disconnectTimeout h ++
        partings h [.called (t.call s.path s.config)] →
      μ.isPromoted = κ.isPromoted → (μ = .locked ↔ κ = .locked) →
      (s.push t).Carries s.config.disconnectTimeout h κ False
        [.called (t.call s.path s.config)] := by
    intro μ hμ hclose hcalls hprom hlock
    refine .inr ⟨by simpa using hclose.symm, μ, ?_, hcalls, by simp [hprom], hlock⟩
    rw [State.standings_push]
    exact List.mem_append_left _ hμ
  cases ht with
  | cancel k next =>
    refine hmoved .cancelled ?_ (by simp [Task.call]) ?_ rfl (by simp)
    · simp [Task.standings, ReleaseCall.standing?]
    · simp [Standing.calls, partings, Task.call, Call.partsWith]
  | quiesce k quiet =>
    refine hmoved .quiesced ?_ (by simp [Task.call]) ?_ rfl (by simp)
    · simp [Task.standings, ReleaseCall.standing?]
    · simp [Standing.calls, partings, Task.call, Call.partsWith]
  | part k quiet =>
    refine hmoved (.parted true) ?_ (by simp [Task.call]) ?_ rfl (by simp)
    · simp [Task.standings, ReleaseCall.standing?]
    · simp [Standing.calls, partings, Task.call, Call.partsWith]
  | shed k rest e quiet =>
    refine hmoved (.parted false) ?_ (by simp [Task.call]) ?_ rfl (by simp)
    · simp [Task.standings, ReleaseCall.standing?]
    · simp [Standing.calls, partings, Task.call, Call.partsWith]
  | close k next κ hκ hlock => exact .inl ⟨by simp [Task.call], hκ, fun heq => absurd heq hlock⟩
  | closeLock lock e quiet =>
    exact .inl ⟨by simp [Task.call], rfl, fun _ => ⟨_, List.mem_cons_self .., rfl⟩⟩
  | giveUp lock e =>
    exact .inl ⟨by simp [Task.call], rfl, fun _ => ⟨_, List.mem_cons_self .., rfl⟩⟩

/-- The call of a task that is about another handle leaves the standing alone. -/
theorem State.Carries.kept (hs : t.subject? ≠ some h)
    (hm : (h, κ) ∈ t.standings s.lock? ++ s.standings) :
    (s.push t).Carries timeout h κ False [.called (t.call s.path s.config)] := by
  refine .same (by rwa [State.standings_push]) ?_ ?_ id
  · cases t with
    | releasing call k next => cases call <;> simp_all [Task.call, Task.subject?, eq_comm]
    | _ => simp_all [Task.call, Task.subject?, eq_comm]
  · cases t with
    | releasing call k next =>
      cases call <;> simp_all [Task.call, Task.subject?, partings, Call.partsWith]
    | _ => simp_all [Task.call, Task.subject?, partings, Call.partsWith]

/-- Only what waits is handed out to a client that is connected. -/
theorem Part.waiting_of_promotes {old : Option Task} {r : Option Reply} (hpart : Part l old r p l')
    (hp : p.Promotes r h) : h ∈ l.registry.waiting := by
  obtain ⟨rfl, reply, hr, hcomp⟩ := hp
  obtain rfl := Option.mem_def.mp hr
  rcases old with _ | t
  · cases hpart
  · rcases hpart.accepted_cases.2.2 with hw | ⟨-, rfl⟩
    · exact hw
    · simp [Reply.completes] at hcomp

/-- A handle that was owed before a part is taken over, handed out or left where it stands. -/
theorem Part.handled_over {old : Option Task} {r : Option Reply} (hpart : Part l old r p l')
    (hn : ((old.toList ++ rest).flatMap (Task.owes (some l.lock)) ++ l.owes).Nodup)
    (hf : ∀ k ∈ r.toList.flatMap Reply.brings,
      k ∉ (old.toList ++ rest).flatMap (Task.owes (some l.lock)) ++ l.owes)
    (hm : (h, κ) ∈ (old.toList ++ rest).flatMap (Task.standings (some l.lock)) ++ l.standings) :
    (∃ t, p = .waits t ∧ t.Receives h κ) ∨
      ((h, κ) ∈ (p.task?.toList ++ rest).flatMap (Task.standings (some l'.lock)) ++ l'.standings ∧
        (∀ t ∈ p.task?, t.subject? ≠ some h) ∧ ¬ p.Promotes r h) ∨
      (κ = .waiting ∧ p.Promotes r h ∧ (h, .served) ∈ l'.standings) := by
  simp only [List.flatMap_append, List.append_assoc, List.mem_append, not_or] at hn hf hm ⊢
  obtain ⟨hold, hrest, hdisj⟩ := List.nodup_append.mp hn
  obtain ⟨-, hlisten, hdisj'⟩ := List.nodup_append.mp hrest
  have hn' : (old.toList.flatMap (Task.owes (some l.lock)) ++ l.owes).Nodup := by
    refine List.nodup_append.mpr ⟨hold, hlisten, fun a ha b hb => ?_⟩
    exact hdisj a ha b (List.mem_append_right _ hb)
  have howed : ∀ ts : List Task, (h, κ) ∈ ts.flatMap (Task.standings (some l.lock)) →
      h ∈ ts.flatMap (Task.owes (some l.lock)) := fun ts hts =>
    (Task.fst_standings_flatMap ts _).subset (List.mem_map.mpr ⟨_, hts, rfl⟩)
  have howedListener : (h, κ) ∈ l.standings → h ∈ l.owes := fun hts =>
    l.fst_standings ▸ List.mem_map.mpr ⟨_, hts, rfl⟩
  have hmine : (h, κ) ∈ old.toList.flatMap (Task.standings (some l.lock)) ++ l.standings ∨
      (h, κ) ∈ rest.flatMap (Task.standings (some l.lock)) := by
    rcases hm with hm | hm | hm
    · exact .inl (List.mem_append_left _ hm)
    · exact .inr hm
    · exact .inl (List.mem_append_right _ hm)
  rcases hmine with hmine | hmine
  · have hfresh : ∀ k ∈ r.toList.flatMap Reply.brings, h ≠ k := by
      rintro k hk rfl
      rcases List.mem_append.mp hmine with hmine | hmine
      · exact (hf h hk).1 (howed _ hmine)
      · exact (hf h hk).2.2 (howedListener hmine)
    cases hpart.handled hn' hfresh hmine with
    | received t hp ht => exact .inl ⟨t, hp, ht⟩
    | kept hm hs hr =>
      refine .inr (.inl ⟨?_, hs, hr⟩)
      exact (List.mem_append.mp hm).imp_right .inr
    | served hκ hp hm => exact .inr (.inr ⟨hκ, hp, hm⟩)
  · -- an operation that goes on later has the handle, so this part is about another one
    have hrestOwes := howed _ hmine
    refine .inr (.inl ⟨.inr (.inl (hpart.lock_eq ▸ hmine)), fun t ht hs => ?_, fun hp => ?_⟩)
    · have hmem := hpart.subject_mem hlisten (fun k hk => (hf k hk).2.2) ht hs
      simp only [List.mem_append] at hmem
      rcases hmem with hmem | hmem | hmem
      · exact (hf h hmem).2.1 hrestOwes
      · exact hdisj h hmem h (List.mem_append_left _ hrestOwes) rfl
      · exact hdisj' h hrestOwes h hmem rfl
    · have hw := hpart.waiting_of_promotes hp
      exact hdisj' h hrestOwes h (by simp [Listener.owes, hw]) rfl

theorem State.carries_closeUnheld (hl : m.listener = some l)
    (hn : (m.tasks.flatMap (Task.owes (some l.lock)) ++ l.owes).Nodup)
    (hm : (h, κ) ∈ m.standings) : ∃ new, m.closeUnheld.history = m.history ++ new ∧
      m.closeUnheld.Carries m.config.disconnectTimeout h κ False new := by
  rcases m.closeUnheld_cases with ⟨heq, -⟩ | ⟨k, t, l', hk, -, hp, -, heq⟩ <;> rw [heq]
  · exact ⟨[], by simp, .same hm (by simp) rfl id⟩
  obtain rfl : l = k := Option.some.inj (hl.symm.trans hk)
  rw [standings_of_listener hl] at hm
  refine ⟨[.called (t.call m.path m.config)], rfl, ?_⟩
  rcases hp.handled_over hn (by simp) hm with ⟨u, hu, hrec⟩ | ⟨hkept, hs, -⟩ | ⟨-, hprom, -⟩
  · obtain rfl := Progress.waits.inj hu
    exact .received hrec { m with listener := some l' }
  · refine .kept (s := { m with listener := some l' }) (hs t rfl) ?_
    rw [standings_of_listener (l := l') rfl]
    simpa [lock?] using hkept
  · simp [Progress.Promotes] at hprom

/-- An operation that ends may let the listener go, and then its close begins. -/
theorem State.carries_finish (hl : m.listener = some l)
    (hn : (m.tasks.flatMap (Task.owes (some l.lock)) ++ l.owes).Nodup)
    (hm : (h, κ) ∈ m.standings) (o : Outcome) : ∃ new, (m.finish o).history = m.history ++ new ∧
      (m.finish o).Carries m.config.disconnectTimeout h κ False new := by
  obtain ⟨new, hnew, hc⟩ := carries_closeUnheld (m := m.note (.finished o)) hl hn hm
  refine ⟨[.finished o] ++ new, ?_, hc.note (by simp)⟩
  rw [finish, hnew, note, List.append_assoc]

/-- A handle that was just handed out to a client that is connected waited before. -/
theorem State.Carries.of_served (hc : s.Carries timeout h .served False new) (hnow : now) :
    s.Carries timeout h .waiting now new := by
  rcases hc with ⟨-, hfinal, -⟩ | ⟨hclose, μ, hm, hcalls, hprom, hlock⟩
  · simp [Standing.isFinal] at hfinal
  · refine .inr ⟨hclose, μ, hm, hcalls, ?_, by simpa using hlock⟩
    simpa [Standing.isPromoted, hnow] using hprom

theorem State.Carries.congr {now' : Prop} (hc : s.Carries timeout h κ now new)
    (hnow : now ↔ now') : s.Carries timeout h κ now' new := by
  rwa [← propext hnow]

theorem State.Carries.of_not_now (hc : s.Carries timeout h κ False new) (hnow : ¬ now) :
    s.Carries timeout h κ now new := hc.congr (by simp [hnow])

/-- A part that ends its operation leaves nothing owed twice. -/
theorem Part.nodup_after {old : Option Task} {r : Option Reply} (hpart : Part l old r p l')
    (hn : ((old.toList ++ rest).flatMap (Task.owes (some l.lock)) ++ l.owes).Nodup)
    (hf : ∀ k ∈ r.toList.flatMap Reply.brings,
      k ∉ (old.toList ++ rest).flatMap (Task.owes (some l.lock)) ++ l.owes)
    (hp : p.task? = none) : (rest.flatMap (Task.owes (some l'.lock)) ++ l'.owes).Nodup := by
  have hbrings : (r.toList.flatMap Reply.brings).Nodup := by
    rcases r with _ | ((e | k) | c | d) <;> simp
  have hall := List.nodup_append.mpr ⟨hbrings, hn, fun a ha b hb heq => hf a ha (heq ▸ hb)⟩
  have hlisten : l.owes.Nodup := (List.nodup_append.mp hn).2.1
  have hperm := hpart.conserves hlisten fun k hk hk' => hf k hk (List.mem_append_right _ hk')
  rw [hp] at hperm
  refine (List.Perm.nodup_iff ?_).mpr hall
  rw [hpart.lock_eq, List.perm_iff_count]
  intro a
  have := hperm.count_eq a
  simp only [List.flatMap_append, List.count_append, Option.toList_none, List.flatMap_nil,
    List.nil_append] at this ⊢
  omega

/-- A part of an operation closes a handle that is ready for it, or moves its standing along. -/
theorem State.carries_part {old : Option Task} {r : Option Reply} (hl : m.listener = some l')
    (hpart : Part l old r p l')
    (hn : ((old.toList ++ rest).flatMap (Task.owes (some l.lock)) ++ l.owes).Nodup)
    (hf : ∀ k ∈ r.toList.flatMap Reply.brings,
      k ∉ (old.toList ++ rest).flatMap (Task.owes (some l.lock)) ++ l.owes)
    (hm : (h, κ) ∈ (old.toList ++ rest).flatMap (Task.standings (some l.lock)) ++ l.standings) :
    ∃ new, (m.advance rest p).history = m.history ++ new ∧
      (m.advance rest p).Carries m.config.disconnectTimeout h κ (p.Promotes r h) new := by
  have hcases := hpart.handled_over hn hf hm
  have hend : ∀ (n : State) (o : Outcome), n.listener = some l' → n.tasks = rest →
      n.config = m.config → n.history = m.history → p.task? = none →
      ∃ new, (n.finish o).history = m.history ++ new ∧
        (n.finish o).Carries m.config.disconnectTimeout h κ (p.Promotes r h) new := by
    intro n o hnl ht hconfig hhistory hp
    have hnodup := hpart.nodup_after hn hf hp
    have hstands : n.standings =
        rest.flatMap (Task.standings (some l'.lock)) ++ l'.standings := by
      rw [standings_of_listener hnl, ht]
    have hfinish : ∀ {μ}, (h, μ) ∈ n.standings → ∃ new, (n.finish o).history = n.history ++ new ∧
        (n.finish o).Carries n.config.disconnectTimeout h μ False new :=
      fun hμ => carries_finish hnl (ht ▸ hnodup) hμ o
    rw [← hconfig, ← hhistory]
    rcases hcases with ⟨t, rfl, -⟩ | ⟨hkept, -, hprom⟩ | ⟨rfl, hprom, hserved⟩
    · simp at hp
    · rw [hp] at hkept
      obtain ⟨new, hnew, hc⟩ := hfinish (hstands ▸ hkept)
      exact ⟨new, hnew, hc.of_not_now hprom⟩
    · obtain ⟨new, hnew, hc⟩ := hfinish (hstands ▸ List.mem_append_right _ hserved)
      exact ⟨new, hnew, hc.of_served hprom⟩
  cases p with
  | waits t =>
    refine ⟨[.called (t.call m.path m.config)], rfl, ?_⟩
    rcases hcases with ⟨u, hu, hrec⟩ | ⟨hkept, hs, hprom⟩ | ⟨-, hprom, -⟩
    · obtain rfl := Progress.waits.inj hu
      have hno : ¬ (Progress.waits t).Promotes r h := by simp [Progress.Promotes]
      exact (State.Carries.received hrec { m with tasks := rest }).of_not_now hno
    · refine (State.Carries.kept (s := { m with tasks := rest }) (hs t rfl) ?_).of_not_now hprom
      rw [standings_of_listener (s := { m with tasks := rest }) hl]
      simpa [lock?, hl] using hkept
    · simp [Progress.Promotes] at hprom
  | accepted k =>
    exact hend { m with tasks := rest, connections := m.connections ++ [some _] } _ hl rfl rfl rfl
      rfl
  | done => exact hend { m with tasks := rest } _ hl rfl rfl rfl rfl
  | failed e => exact hend { m with tasks := rest } _ hl rfl rfl rfl rfl
  | _ =>
    refine ⟨[], by simp [advance], ?_⟩
    rcases hcases with ⟨t, ht, -⟩ | ⟨hkept, -, hprom⟩ | ⟨-, hprom, -⟩
    · simp at ht
    · refine .same ?_ (by simp) rfl hprom
      rw [standings_of_listener (s := m.advance rest .over) hl]
      exact hkept
    · simp [Progress.Promotes] at hprom

/-- Every step closes a handle that is ready for it, or moves its standing along by the calls that
the step makes. -/
theorem State.carries_step (ho : Orderly s) (hb : Books s) (e : Event)
    (hf : account.OpensFresh (s.step e).history) (hm : (h, κ) ∈ s.standings) :
    (s.step e).Carries s.config.disconnectTimeout h κ (∃ i c, c.handle = h ∧ s.Completes i c e)
      (s.news e) := by
  have hn := ho.history_step e
  have ht := ho.turn_step e
  generalize s.step e = s' at hn ht hf ⊢
  -- what a part of an operation has added stands after the entry that the step begins with
  have hpart : ∀ {m : State} {first : Entry} {now' : Prop}, m.history = s.history ++ [first] →
      (∀ c, first ≠ .called c) →
      (∃ new, s'.history = m.history ++ new ∧
        s'.Carries s.config.disconnectTimeout h κ now' new) →
      (now' ↔ ∃ i c, c.handle = h ∧ s.Completes i c e) →
      s'.Carries s.config.disconnectTimeout h κ (∃ i c, c.handle = h ∧ s.Completes i c e)
        (s.news e) := by
    rintro m first now' hm hfirst ⟨new, hnew, hc⟩ hnow
    rw [hnew, hm, List.append_assoc, List.append_cancel_left_eq] at hn
    rw [← hn]
    exact (hc.note (by simpa [eq_comm] using hfirst)).congr hnow
  have hquiet : ∀ {p : Progress}, s.Quiet e →
      (p.Promotes none h ↔ ∃ i c, c.handle = h ∧ s.Completes i c e) := by
    intro p hq
    simp [Progress.Promotes, hq.1]
  cases ht with
  | nothing r =>
    have hnil : s.news (.reply r) = [] := by simpa using hn.symm
    rw [hnil]
    exact .same hm (by simp) rfl (by simp [(State.quiet_of_news hnil).1])
  | gone op =>
    have hnews : [.began op, .finished .gone] = s.news (.start op) := by
      simpa [State.note] using hn
    rw [← hnews]
    exact .same hm (by simp) rfl (by simp [(s.quiet_start op).1])
  | started op l l' p dropped hl hp =>
    rw [State.standings_of_listener hl] at hm
    exact hpart rfl (by simp) (State.carries_part rfl hp (hb.nodup_owes hl) (by simp) hm)
      (hquiet (s.quiet_start op))
  | letGo op i c l quiet hl =>
    rw [State.standings_of_listener hl] at hm
    exact hpart rfl (by simp) (State.carries_part rfl (l.part_beginRelease c.handle quiet)
      (hb.nodup_owes hl) (by simp) hm) (hquiet (s.quiet_start op))
  | resumed t r rest l l' p hl htasks hp =>
    have hnodup := hb.nodup_owes hl
    have hfresh := hb.not_owed_of_brings rfl hf
    rw [State.owed_of_listener hl] at hfresh
    rw [State.standings_of_listener hl] at hm
    rw [htasks] at hm hnodup hfresh
    refine hpart rfl (by simp) (State.carries_part rfl hp hnodup (fun k hk => ?_) hm) ?_
    · exact hfresh k (by simpa using hk)
    · simp only [State.completes_reply hn]
      constructor
      · rintro ⟨rfl, reply, hr, hcomp⟩
        obtain rfl := Option.some.inj hr
        exact ⟨_, _, rfl, hcomp, rfl⟩
      · rintro ⟨i, c, rfl, hcomp, htold⟩
        exact ⟨(State.told_accepted htold).1, r, rfl, hcomp⟩
  | made k u hl htasks =>
    -- the listener that is made takes the lock over from the task, as if it had had it before
    obtain ⟨rfl, rfl⟩ : h = k ∧ κ = .locked := by
      simpa [State.standings, State.lock?, hl, htasks, Task.standings] using hm
    exact hpart rfl (by simp) (State.carries_part (l := ⟨s.path, s.config, h, false, .empty⟩) rfl
      .releaseUntracked (by simp [Listener.owes, Registry.empty]) (by simp)
      (by simp [Listener.standings])) (hquiet (State.quiet_of_construction ho hl _))
  | notReset k err hl htasks =>
    obtain ⟨rfl, rfl⟩ : h = k ∧ κ = .locked := by
      simpa [State.standings, State.lock?, hl, htasks, Task.standings] using hm
    refine hpart rfl (by simp) ⟨_, rfl, .received (.giveUp h err)
      { s.note (.replied (.done (.error err))) with tasks := [] }⟩ ?_
    simp [(State.quiet_of_construction ho hl _).1]
  | lockMade k hl htasks | notMade err hl htasks | givenUp k err r hl htasks =>
    simp [State.standings, State.lock?, hl, htasks, Task.standings] at hm

end Carrying

end LocalIpc.Pipe

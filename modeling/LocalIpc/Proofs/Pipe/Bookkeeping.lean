import Mathlib.Data.List.Induction
import LocalIpc.Proofs.Pipe.Ending
/-!
# What the registry stands for

The registry of an open listener can be read off what the accepts have come to. Handed out are the
instances of the connections in use whose connect was completed. Those that wait are the instances
that could not be connected, those of connections in use whose client was found gone, and those of
the accepts under way. That holds at every point of every run, since every step keeps to it.
-/

namespace LocalIpc.Pipe

/-! ## What accepts come to -/

/-- The place of the connection that an operation closes or drops. -/
def Operation.connection? : Operation → Option Nat
  | closeConnection i | dropConnection i => some i
  | _ => none

/-- The reply tells that a client is connected. -/
def Reply.completes : Reply → Bool
  | .connect .connected | .connect .alreadyConnected | .done (.ok _) => true
  | _ => false

namespace State

/-- At some point of the run the property holds of the event that comes next. -/
def Sometime (s : State) (es : List Event) (p : State → Event → Prop) : Prop :=
  ∃ before e after, es = before ++ e :: after ∧ p (s.run before) e

/-- An accept hands out the connection `c`, its connect completed. -/
def Completes (i : Nat) (c : Connection) (s : State) (e : Event) : Prop :=
  ∃ r : Reply, e = .reply r ∧ r.completes = true ∧ .finished (.accepted i c) ∈ s.news e

/-- An accept hands out the connection `c`, its client gone again. -/
def FindsGone (i : Nat) (c : Connection) (s : State) (e : Event) : Prop :=
  e = .reply (.connect .noData) ∧ .finished (.accepted i c) ∈ s.news e

/-- An accept fails since its instance `h` cannot be connected. -/
def FailsConnect (h : Handle) (s : State) (e : Event) : Prop :=
  ∃ r err, e = .reply r ∧ s.tasks.head? = some (.connecting h) ∧
    .finished (.failed (.native .pipeConnect err)) ∈ s.news e

/-- A connection in use with the property works on the handle. -/
def Holds (s : State) (p : Nat → Connection → Prop) (h : Handle) : Prop :=
  ∃ i c, s.connection? i = some c ∧ c.handle = h ∧ p i c

variable {s : State} {es : List Event} {e : Event} {p : State → Event → Prop}

theorem run_snoc (s : State) (es : List Event) (e : Event) :
    s.run (es ++ [e]) = (s.run es).step e := by simp [run]

theorem not_sometime_nil : ¬ s.Sometime [] p := by
  rintro ⟨before, e, after, heq, -⟩
  simp at heq

theorem sometime_snoc : s.Sometime (es ++ [e]) p ↔ s.Sometime es p ∨ p (s.run es) e := by
  constructor
  · rintro ⟨before, e', after, heq, hp⟩
    rcases List.eq_nil_or_concat after with rfl | ⟨after, e'', rfl⟩
    · obtain ⟨rfl, rfl⟩ := List.append_singleton_inj.mp heq
      exact .inr hp
    · have heq : es ++ [e] = (before ++ e' :: after) ++ [e''] := by simpa using heq
      obtain ⟨rfl, rfl⟩ := List.append_singleton_inj.mp heq
      exact .inl ⟨before, e', after, rfl, hp⟩
  · rintro (⟨before, e', after, rfl, hp⟩ | hp)
    · exact ⟨before, e', after ++ [e], by simp, hp⟩
    · exact ⟨es, e, [], rfl, hp⟩

theorem mem_held {h : Handle} : h ∈ s.held ↔ ∃ i c, s.connection? i = some c ∧ c.handle = h := by
  simp only [held, List.mem_flatMap, List.mem_map, Option.mem_toList, connection?,
    Option.join_eq_some_iff]
  constructor
  · rintro ⟨_, hmem, c, rfl, rfl⟩
    obtain ⟨i, hi⟩ := List.mem_iff_getElem?.mp hmem
    exact ⟨i, c, hi, rfl⟩
  · rintro ⟨i, c, hi, rfl⟩
    exact ⟨some c, List.mem_iff_getElem?.mpr ⟨i, hi⟩, c, rfl, rfl⟩

/-- An instance in use belongs to one connection. -/
theorem eq_of_held {i j : Nat} {c d : Connection} (hn : s.held.Nodup)
    (hi : s.connection? i = some c) (hj : s.connection? j = some d) (heq : c.handle = d.handle) :
    i = j := by
  simp only [connection?, Option.join_eq_some_iff] at hi hj
  refine eq_of_mem_flatMap (c := d.handle) hn hi hj ?_ ?_ <;> simp [heq]

theorem Holds.mem_held {q : Nat → Connection → Prop} {h : Handle} (hq : s.Holds q h) :
    h ∈ s.held := by
  obtain ⟨i, c, hc, rfl, -⟩ := hq
  exact State.mem_held.mpr ⟨i, c, hc, rfl⟩

/-! ## Connections that are let go -/

theorem step_letGo {op : Operation} {i : Nat} (hop : op.connection? = some i) :
    ∃ quiet, s.step (.start op) = (s.note (.began op)).letGo i quiet := by
  cases op with
  | closeConnection j =>
    obtain rfl := Option.some.inj hop
    exact ⟨false, rfl⟩
  | dropConnection j =>
    obtain rfl := Option.some.inj hop
    exact ⟨true, rfl⟩
  | _ => simp [Operation.connection?] at hop

theorem letGo_eq {l : Listener} {i : Nat} {c : Connection} (hl : s.listener = some l)
    (hc : s.connection? i = some c) (quiet : Bool) :
    s.letGo i quiet = { s with connections := s.connections.set i none }.advanceWith s.tasks
      (l.beginRelease c.handle quiet) := by
  simp only [letGo, hl, hc]

/-! ## Steps that leave the listener open -/

variable {m : State} {l : Listener} {rest : List Task} {q : Progress}

/-- An operation that ends and leaves the listener open does no more. -/
theorem closeUnheld_open (hl : m.closeUnheld.listener = some l) (hc : l.closed = false) :
    m.closeUnheld = m := by
  rcases m.closeUnheld_cases with ⟨heq, -⟩ | ⟨k, t, l', -, -, -, hc', heq⟩
  · exact heq
  · rw [heq] at hl
    obtain rfl : l' = l := Option.some.inj hl
    simp [hc] at hc'

theorem closeUnheld_keeps (s : State) :
    s.closeUnheld.config = s.config ∧ s.closeUnheld.connections = s.connections := by
  rcases s.closeUnheld_cases with ⟨heq, -⟩ | ⟨_, _, _, -, -, -, -, heq⟩ <;> rw [heq]
  · exact ⟨rfl, rfl⟩
  · exact ⟨rfl, rfl⟩

theorem advance_keeps (m : State) (rest : List Task) (p : Progress) :
    (m.advance rest p).config = m.config ∧ (m.advance rest p).connections =
      m.connections ++ p.handsOut.map fun h => some ⟨h, .pipe, m.config.strictLength⟩ := by
  cases p with
  | waits t => exact ⟨rfl, by simp [advance, push, note]⟩
  | accepted h => exact closeUnheld_keeps _
  | done => exact (closeUnheld_keeps _).imp_right fun h => h.trans (by simp [note])
  | failed e => exact (closeUnheld_keeps _).imp_right fun h => h.trans (by simp [note])
  | _ => exact ⟨rfl, by simp [advance]⟩

theorem advance_open (hl : (m.advance rest q).listener = some l) (hc : l.closed = false) :
    m.listener = some l ∧ (m.advance rest q).tasks = q.task?.toList ++ rest := by
  have hend : ∀ {n : State}, n.closeUnheld.listener = some l → n.listener = m.listener →
      m.listener = some l ∧ n.closeUnheld = n := by
    intro n hn hm
    have heq := closeUnheld_open hn hc
    rw [heq, hm] at hn
    exact ⟨hn, heq⟩
  cases q with
  | accepted | done | failed =>
    obtain ⟨hm, heq⟩ := hend hl rfl
    exact ⟨hm, congrArg tasks heq⟩
  | _ => exact ⟨hl, rfl⟩

end State

/-! ## What a part does to the registry -/

section Parts

variable {l l' : Listener} {t : Task} {r : Reply} {p : Progress} {pending : List Handle}

/-- An accept that could not connect its instance `h` comes to `p`. -/
def Task.Fails (t : Task) (p : Progress) (h : Handle) : Prop :=
  t = .connecting h ∧ ∃ err, p = .failed (.native .pipeConnect err)

/-- What a part of an open listener waits on or hands out is what it waited on, or new. -/
theorem Part.uses (h : Part l (some t) (some r) p l') (hc : l'.closed = false) :
    (∀ k ∈ p.task?.toList.flatMap Task.pending, k ∈ t.pending ∨ k ∈ r.brings) ∧
      ∀ k ∈ p.handsOut, k ∈ t.pending := by
  cases h with
  | created k hopen => simp
  | delivered t r k ha hh => exact ⟨by simp, by cases ha <;> simp⟩
  | noData k | pending k => simp
  | released k next r p l' hn =>
    rw [hn.pending_eq_nil, hn.handsOut_eq_nil]
    simp
  | unlocked lock e quiet r =>
    unfold Listener.afterLock
    split
    · simp
    · split <;> simp
  | _ => simp

/-- The registry of an open listener after a part: what is handed out is entered as such, and what
waits is listed for a reason, or waited on by an accept. -/
theorem Part.listed (h : Part l (some t) (some r) p l') (hc : l'.closed = false)
    (hclose : t.isClose = true → l.closed = true) (hf : ∀ k ∈ r.brings, k ∉ l.owes)
    (listed : Handle → Prop) (hn : (t.pending ++ pending).Nodup)
    (hapart : ∀ k, listed k → k ∉ t.pending ++ pending)
    (hw : ∀ k, k ∈ l.registry.waiting ↔ listed k ∨ k ∈ t.pending ++ pending) :
    (∀ k, k ∈ l'.registry.handedOut ↔
      k ∈ l.registry.handedOut ∨ k ∈ p.handsOut ∧ r.completes = true) ∧
    ∀ k, k ∈ l'.registry.waiting ↔
      (listed k ∨ (k ∈ p.handsOut ∧ r = .connect .noData) ∨ t.Fails p k) ∨
        k ∈ p.task?.toList.flatMap Task.pending ++ pending := by
  -- an accept that is under way finds its instance
  have hfound : ∀ k ∈ t.pending, k ∈ l.registry.waiting := fun k hk =>
    (hw k).mpr (.inr (List.mem_append_left _ hk))
  -- the instance that an accept waited on leaves those that wait
  have hleaves : ∀ k, t.pending = [k] → ∀ j,
      j ∈ HandleSet.remove k l.registry.waiting ↔ listed j ∨ j ∈ pending := by
    intro k hk j
    rw [hk] at hn hapart hw
    rw [HandleSet.mem_remove, hw]
    have hkp : k ∉ pending := (List.nodup_cons.mp hn).1
    constructor
    · rintro ⟨hj | hj, hne⟩
      · exact .inl hj
      · exact .inr ((List.mem_cons.mp hj).resolve_left hne)
    · rintro (hj | hj)
      · refine ⟨.inl hj, fun heq => hapart j hj ?_⟩
        simp [heq]
      · exact ⟨.inr (List.mem_cons_of_mem _ hj), fun heq => hkp (heq ▸ hj)⟩
  cases h with
  | created k hopen =>
    have hk := hf k (by simp)
    simp only [Listener.owes, List.mem_append, not_or] at hk
    refine ⟨by simp, fun j => ?_⟩
    rw [Registry.waiting_enroll hk.2.1 hk.2.2, HandleSet.mem_insert, hw]
    simp [Task.Fails, or_left_comm]
  | createdLate k hc' hh | createdKnown k hc' hh => exact absurd (hc'.symm.trans hc) (by simp)
  | delivered t r k ha hh =>
    have hpend : t.pending = [k] := by cases ha <;> rfl
    have hcomp : r.completes = true := by cases ha <;> rfl
    have hgone : r ≠ .connect .noData := by cases ha <;> simp
    have hreg := Registry.handOut_of_waiting hh
    refine ⟨fun j => ?_, fun j => ?_⟩
    · simp [hreg, HandleSet.mem_insert, hcomp, or_comm]
    · simp [hreg, hleaves k hpend, hgone, Task.Fails]
  | missed t r k ha hh => exact absurd (hfound k (by cases ha <;> simp)) hh
  | waitFailedLate k e hh => exact absurd (hfound k (by simp)) hh
  | waitFailed k e hh =>
    refine ⟨by simp, fun j => ?_⟩
    simp [hleaves k rfl, Task.Fails]
  | noData k =>
    refine ⟨by simp [Reply.completes], fun j => ?_⟩
    rw [hw]
    simp [Task.Fails, or_assoc]
  | connectFailed k e =>
    refine ⟨by simp, fun j => ?_⟩
    rw [hw]
    simp [Task.Fails, or_assoc, eq_comm]
  | pending k =>
    refine ⟨by simp, fun j => ?_⟩
    rw [hw]
    simp [Task.Fails]
  | released k next r p l' hn =>
    -- the listener is open, so the release belongs to no close
    obtain ⟨rfl, hp, ho⟩ :=
      hn.of_open hc fun hi => hclose ((After.isClose_keeping next r).symm.trans hi)
    rw [hp, ho]
    refine ⟨by simp, fun j => ?_⟩
    rw [hw]
    simp [Task.Fails]
  | unlocked lock e quiet r => exact absurd ((hclose rfl).symm.trans hc) (by simp)
  | _ =>
    refine ⟨by simp, fun j => ?_⟩
    rw [hw]
    simp [Task.Fails]

/-- A connection that gives its instance back takes it out of the registry, and nothing else. -/
theorem Listener.mem_beginRelease (hn : l.owes.Nodup) (k : Handle) (quiet : Bool) (j : Handle) :
    (j ∈ (l.beginRelease k quiet).2.registry.handedOut ↔ j ∈ l.registry.handedOut ∧ j ≠ k) ∧
      (j ∈ (l.beginRelease k quiet).2.registry.waiting ↔ j ∈ l.registry.waiting ∧ j ≠ k) := by
  obtain ⟨-, -, hd⟩ := Listener.nodup_tracked hn
  have hne : ∀ {g : List Handle}, k ∉ g → (j ∈ g ↔ j ∈ g ∧ j ≠ k) := fun hk =>
    ⟨fun hj => ⟨hj, fun heq => hk (heq ▸ hj)⟩, And.left⟩
  unfold beginRelease
  split
  · rename_i hk
    have hk : k ∈ l.registry.handedOut := by simpa [Registry.isHandedOut] using hk
    exact ⟨HandleSet.mem_remove, hne fun hw => hd k hw hk⟩
  rename_i hout
  have hout : k ∉ l.registry.handedOut := by simpa [Registry.isHandedOut] using hout
  split
  · exact ⟨hne hout, HandleSet.mem_remove⟩
  · rename_i hw
    exact ⟨hne hout, hne (by simpa [Registry.isWaiting] using hw)⟩

end Parts

/-! ## What the registry lists -/

section Holding

variable {s s' : State} {q q' : Nat → Connection → Prop} {h : Handle}

theorem State.connection?_set {i : Nat} (hs : s'.connections = s.connections.set i none) (j : Nat) :
    s'.connection? j = if i = j then none else s.connection? j := by
  rw [connection?, hs, List.getElem?_set, connection?]
  split
  · split <;> rfl
  · rfl

theorem State.connection?_append {c : Connection}
    (hs : s'.connections = s.connections ++ [some c]) (j : Nat) :
    s'.connection? j = if j = s.connections.length then some c else s.connection? j := by
  rw [connection?, hs, connection?]
  rcases Nat.lt_trichotomy j s.connections.length with hlt | rfl | hgt
  · rw [List.getElem?_append_left hlt, if_neg (by omega)]
  · simp
  · rw [List.getElem?_eq_none (by simp; omega), if_neg (by omega),
      List.getElem?_eq_none (by omega)]

/-- A connection that is let go is the only one in use that worked on its instance. -/
theorem State.holds_letGo {i : Nat} {c : Connection} (hc : s.connection? i = some c)
    (hn : s.held.Nodup) (hs : s'.connections = s.connections.set i none) :
    s'.Holds q h ↔ s.Holds q h ∧ h ≠ c.handle := by
  have hget := State.connection?_set hs
  constructor
  · rintro ⟨j, d, hj, rfl, hq⟩
    rw [hget] at hj
    split at hj
    · simp at hj
    · rename_i hne
      exact ⟨⟨j, d, hj, rfl, hq⟩, fun heq => hne (eq_of_held hn hc hj heq.symm)⟩
  · rintro ⟨⟨j, d, hj, rfl, hq⟩, hne⟩
    have hij : i ≠ j := by
      rintro rfl
      exact hne (congrArg Connection.handle (Option.some.inj (hj.symm.trans hc)))
    exact ⟨j, d, by rw [hget, if_neg hij]; exact hj, rfl, hq⟩

/-- A connection that is handed out takes the next place. -/
theorem State.holds_accepted {k : Handle} {now : Prop}
    (hs : s'.connections = s.connections ++ [some ⟨k, .pipe, s.config.strictLength⟩])
    (hplaced : ∀ i c, q i c → i < s.connections.length)
    (hq : ∀ i c, q' i c ↔ q i c ∨ now ∧
      i = s.connections.length ∧ c = ⟨k, .pipe, s.config.strictLength⟩) :
    s'.Holds q' h ↔ s.Holds q h ∨ h = k ∧ now := by
  have hget := State.connection?_append hs
  constructor
  · rintro ⟨j, d, hj, rfl, hd⟩
    rcases (hq j d).mp hd with hd | ⟨hnow, rfl, rfl⟩
    · have := hplaced j d hd
      rw [hget, if_neg (by omega)] at hj
      exact .inl ⟨j, d, hj, rfl, hd⟩
    · exact .inr ⟨rfl, hnow⟩
  · rintro (⟨j, d, hj, rfl, hd⟩ | ⟨rfl, hnow⟩)
    · have := hplaced j d hd
      exact ⟨j, d, by rw [hget, if_neg (by omega)]; exact hj, rfl, (hq j d).mpr (.inl hd)⟩
    · exact ⟨_, _, by rw [hget, if_pos rfl], rfl, (hq _ _).mpr (.inr ⟨hnow, rfl, rfl⟩)⟩

/-- What holds of the connections after a step that comes to `p`. -/
theorem State.holds_told {p : Progress} {now : Prop}
    (hs : s'.connections =
      s.connections ++ p.handsOut.map fun k => some ⟨k, .pipe, s.config.strictLength⟩)
    (hplaced : ∀ i c, q i c → i < s.connections.length)
    (hq : ∀ i c, q' i c ↔ q i c ∨ now ∧ s.told p = some (.accepted i c)) :
    s'.Holds q' h ↔ s.Holds q h ∨ h ∈ p.handsOut ∧ now := by
  cases p with
  | accepted k =>
    have hk : ∀ i c, q' i c ↔ q i c ∨ now ∧
        i = s.connections.length ∧ c = ⟨k, .pipe, s.config.strictLength⟩ := by
      simpa [told, eq_comm] using hq
    exact (State.holds_accepted hs hplaced hk).trans (by simp)
  | _ =>
    have hsame : ∀ i c, q' i c ↔ q i c := by simpa [told] using hq
    simp [Holds, connection?, hs, hsame]

end Holding

/-- The registry of the open listener `l`, with the reasons for what it lists: connections that are
in use, whose connect was completed or whose client was found gone, and instances that could not be
connected. -/
structure Entered (s : State) (l : Listener) (done gone : Nat → Connection → Prop)
    (failed : Handle → Prop) : Prop where
  placed : ∀ i c, done i c ∨ gone i c → i < s.connections.length
  handedOut : ∀ h, h ∈ l.registry.handedOut ↔ s.Holds done h
  waiting : ∀ h, h ∈ l.registry.waiting ↔ (failed h ∨ s.Holds gone h) ∨ h ∈ s.pending
  apart : ∀ h, failed h → h ∉ s.pending ∧ h ∉ s.held

section Entering

variable {s s' : State} {l l' : Listener} {done gone done' gone' : Nat → Connection → Prop}
  {failed failed' : Handle → Prop}

/-- An operation of an open listener goes on with a reply. -/
theorem Entered.resumed {t : Task} {rest : List Task} {r : Reply} {p : Progress}
    (h : Entered s l done gone failed) (htasks : s.tasks = t :: rest)
    (hp : Part l (some t) (some r) p l') (hc : l'.closed = false)
    (hclose : t.isClose = true → l.closed = true) (hf : ∀ k ∈ r.brings, k ∉ l.owes)
    (htracks : l.Tracks s.pending s.held) (ht' : s'.tasks = p.task?.toList ++ rest)
    (hcon : s'.connections =
      s.connections ++ p.handsOut.map fun k => some ⟨k, .pipe, s.config.strictLength⟩)
    (hdone : ∀ i c, done' i c ↔
      done i c ∨ r.completes = true ∧ s.told p = some (.accepted i c))
    (hgone : ∀ i c, gone' i c ↔
      gone i c ∨ r = .connect .noData ∧ s.told p = some (.accepted i c))
    (hfailed : ∀ k, failed' k ↔ failed k ∨ t.Fails p k) :
    Entered s' l' done' gone' failed' := by
  have hpending : s.pending = t.pending ++ rest.flatMap Task.pending := by
    rw [State.pending, htasks, List.flatMap_cons]
  have hpending' : s'.pending =
      p.task?.toList.flatMap Task.pending ++ rest.flatMap Task.pending := by
    rw [State.pending, ht', List.flatMap_append]
  have hheld : s'.held = s.held ++ p.handsOut := by
    rw [State.held, hcon, List.flatMap_append]
    cases p <;> simp [State.held]
  obtain ⟨hnpend, hnheld, hdisj⟩ := List.nodup_append.mp htracks.nodup
  rw [hpending] at hnpend
  obtain ⟨hout, hwaiting⟩ := hp.listed hc hclose hf (fun k => failed k ∨ s.Holds gone k) hnpend
    (by
      rintro k (hk | hk)
      · exact hpending ▸ (h.apart k hk).1
      · exact fun hmem => hdisj k (hpending ▸ hmem) k hk.mem_held rfl)
    (fun k => hpending ▸ h.waiting k)
  obtain ⟨husesPending, husesHandsOut⟩ := hp.uses hc
  refine { placed := ?placed, handedOut := ?handedOut, waiting := ?waiting, apart := ?apart }
  case placed =>
    have hgrow : ∀ i c, i < s.connections.length ∨ s.told p = some (.accepted i c) →
        i < s'.connections.length := by
      rintro i c (hi | htold)
      · rw [hcon, List.length_append]
        omega
      · obtain ⟨rfl, rfl, -⟩ := State.told_accepted htold
        simp [hcon]
    rintro i c (hd | hg)
    · refine hgrow i c (((hdone i c).mp hd).imp (fun hd => h.placed i c (.inl hd)) And.right)
    · refine hgrow i c (((hgone i c).mp hg).imp (fun hg => h.placed i c (.inr hg)) And.right)
  case handedOut =>
    intro k
    rw [hout, h.handedOut,
      State.holds_told hcon (fun i c hd => h.placed i c (.inl hd)) hdone]
  case waiting =>
    intro k
    rw [hwaiting, hfailed, hpending',
      State.holds_told hcon (fun i c hg => h.placed i c (.inr hg)) hgone]
    -- the same reasons on both sides, in another order
    grind
  case apart =>
    intro k hk
    rw [hpending', hheld]
    rcases (hfailed k).mp hk with hk | ⟨rfl, err, rfl⟩
    · have hw : k ∈ l.registry.waiting := (h.waiting k).mpr (.inl (.inl hk))
      have hnot := (h.apart k hk).1
      rw [hpending, List.mem_append, not_or] at hnot
      refine ⟨fun hmem => ?_, fun hmem => ?_⟩
      · rcases List.mem_append.mp hmem with hmem | hmem
        · -- what the reply brings is not tracked yet
          refine (husesPending k hmem).elim hnot.1 fun hnew => hf k hnew ?_
          exact List.mem_append_right _ (List.mem_append_left _ hw)
        · exact hnot.2 hmem
      · exact (List.mem_append.mp hmem).elim (h.apart k hk).2 fun hmem =>
          hnot.1 (husesHandsOut k hmem)
    · have hmem : k ∈ s.pending := by simp [hpending]
      simp only [Progress.task?, Option.toList_none, List.flatMap_nil, List.nil_append,
        Progress.handsOut, List.append_nil]
      exact ⟨(List.nodup_cons.mp hnpend).1, fun hk => hdisj k hmem k hk rfl⟩

/-- A connection is let go while the listener is open. -/
theorem Entered.letGo {i : Nat} {c : Connection} (h : Entered s l done gone failed)
    (hc : s.connection? i = some c) (quiet : Bool) (hn : l.owes.Nodup)
    (htracks : l.Tracks s.pending s.held) (hpending : s'.pending = s.pending)
    (hcon : s'.connections = s.connections.set i none) :
    Entered s' (l.beginRelease c.handle quiet).2 done gone failed := by
  obtain ⟨-, hnheld, hdisj⟩ := List.nodup_append.mp htracks.nodup
  have hheld : c.handle ∈ s.held := State.mem_held.mpr ⟨i, c, hc, rfl⟩
  have hmem := l.mem_beginRelease hn c.handle quiet
  refine { placed := ?placed, handedOut := ?handedOut, waiting := ?waiting, apart := ?apart }
  case placed => simpa [hcon] using h.placed
  case handedOut =>
    intro k
    rw [(hmem k).1, h.handedOut, State.holds_letGo hc hnheld hcon]
  case waiting =>
    intro k
    rw [(hmem k).2, h.waiting, State.holds_letGo hc hnheld hcon, hpending]
    -- neither a failed connect nor an accept under way has the instance
    have hfailed : failed k → k ≠ c.handle := fun hk heq => (h.apart k hk).2 (heq ▸ hheld)
    have hpend : k ∈ s.pending → k ≠ c.handle := fun hk heq => hdisj k hk _ hheld heq
    grind
  case apart =>
    intro k hk
    refine ⟨hpending ▸ (h.apart k hk).1, fun hmem => (h.apart k hk).2 ?_⟩
    have hperm := State.held_letGo hc
    rw [State.held, hcon] at hmem
    exact hperm.mem_iff.mpr (List.mem_cons_of_mem _ hmem)

/-- Nothing of what is listed changes. -/
theorem Entered.same (h : Entered s l done gone failed) (hpending : s'.pending = s.pending)
    (hcon : s'.connections = s.connections) : Entered s' l done gone failed := by
  have hholds : ∀ q k, s'.Holds q k ↔ s.Holds q k := by simp [State.Holds, State.connection?, hcon]
  have hheld : s'.held = s.held := by rw [State.held, hcon, State.held]
  refine ⟨fun i c hic => hcon ▸ h.placed i c hic, fun k => ?_, fun k => ?_, fun k hk => ?_⟩
  · rw [h.handedOut, hholds]
  · rw [h.waiting, hholds, hpending]
  · rw [hpending, hheld]
    exact h.apart k hk

end Entering

/-! ## What every step keeps -/

/-- The registry is listed while the listener is open. -/
structure Bookkept (s : State) (done gone : Nat → Connection → Prop) (failed : Handle → Prop) :
    Prop where
  unmade : s.listener = none → (∀ i c, ¬ done i c ∧ ¬ gone i c) ∧ ∀ h, ¬ failed h
  entered : ∀ l, s.listener = some l → l.closed = false → Entered s l done gone failed

section Steps

variable {s s' : State} {e : Event} {done gone : Nat → Connection → Prop} {failed : Handle → Prop}

/-- No accept comes to anything in the step. -/
def State.Quiet (s : State) (e : Event) : Prop :=
  (∀ i c, ¬ s.Completes i c e ∧ ¬ s.FindsGone i c e) ∧ ∀ k, ¬ s.FailsConnect k e

theorem State.quiet_start (s : State) (op : Operation) : s.Quiet (.start op) := by
  simp [Quiet, Completes, FindsGone, FailsConnect]

theorem State.quiet_of_news (h : s.news e = []) : s.Quiet e := by
  simp [Quiet, Completes, FindsGone, FailsConnect, h]

theorem State.quiet_of_construction (ho : Orderly s) (hl : s.listener = none) (e : Event) :
    s.Quiet e := by
  have hnot : ∀ i c, .finished (.accepted i c) ∉ s.news e := by
    intro i c hm
    obtain ⟨t, r, rest, l, l', hl', -⟩ := (ho.turn_step e).accepted (ho.history_step e) hm
    simp [hl] at hl'
  refine ⟨fun i c => ⟨fun ⟨r, _, _, hm⟩ => hnot i c hm, fun ⟨_, hm⟩ => hnot i c hm⟩, ?_⟩
  rintro k ⟨r, err, -, hhead, -⟩
  rcases ho.building hl with hnil | ⟨t, ht, hbuilds⟩
  · simp [hnil] at hhead
  · simp only [ht, List.head?_cons, Option.some.injEq] at hhead
    simp [hhead, Task.builds] at hbuilds

section Told

variable {l : Listener} {t : Task} {rest : List Task} {r : Reply} {p : Progress}

/-- What the caller is told in a step that goes on with a reply. -/
theorem State.told_reply {o : Outcome}
    (hn : ({ s.note (.replied r) with listener := some l }.advance rest p).history =
      s.history ++ s.news (.reply r)) :
    .finished o ∈ s.news (.reply r) ↔ s.told p = some o :=
  have hmem := mem_advance_note (o := o) rfl (by simp) hn
  hmem

theorem State.completes_reply {i : Nat} {c : Connection}
    (hn : ({ s.note (.replied r) with listener := some l }.advance rest p).history =
      s.history ++ s.news (.reply r)) :
    s.Completes i c (.reply r) ↔ r.completes = true ∧ s.told p = some (.accepted i c) := by
  simp [Completes, told_reply hn]

theorem State.findsGone_reply {i : Nat} {c : Connection}
    (hn : ({ s.note (.replied r) with listener := some l }.advance rest p).history =
      s.history ++ s.news (.reply r)) :
    s.FindsGone i c (.reply r) ↔ r = .connect .noData ∧ s.told p = some (.accepted i c) := by
  simp [FindsGone, told_reply hn]

theorem State.failsConnect_reply {k : Handle} (htasks : s.tasks = t :: rest)
    (hn : ({ s.note (.replied r) with listener := some l }.advance rest p).history =
      s.history ++ s.news (.reply r)) :
    s.FailsConnect k (.reply r) ↔ t.Fails p k := by
  simp only [FailsConnect, told_reply hn, htasks, List.head?_cons, Task.Fails]
  constructor
  · rintro ⟨r', err, -, hhead, hp⟩
    exact ⟨Option.some.inj hhead, err, told_failed hp⟩
  · rintro ⟨rfl, err, rfl⟩
    exact ⟨r, err, rfl, rfl, rfl⟩

end Told

theorem Bookkept.step (h : Bookkept s done gone failed) (ho : Orderly s) (hb : Books s)
    (ha : Attended s) (e : Event) (hf : account.OpensFresh (s.step e).history) :
    Bookkept (s.step e) (fun i c => done i c ∨ s.Completes i c e)
      (fun i c => gone i c ∨ s.FindsGone i c e) (fun k => failed k ∨ s.FailsConnect k e) := by
  have hn := ho.history_step e
  have ht := ho.turn_step e
  refine ⟨fun hnone => ?_, fun l' hl' hc => ?_⟩
  · -- the listener is not lost once it is made
    have hl : s.listener = none := by
      rcases hl : s.listener with _ | l
      · rfl
      · obtain ⟨l', hl', -⟩ := State.pays_step ho hl e
        simp [hnone] at hl'
    obtain ⟨hacc, hfail⟩ := State.quiet_of_construction ho hl e
    simpa [hacc, hfail] using h.unmade hl
  -- only a reply to an accept gives the registry a reason more
  have hquiet : s.Quiet e → Entered (s.step e) l' done gone failed →
      Entered (s.step e) l' (fun i c => done i c ∨ s.Completes i c e)
        (fun i c => gone i c ∨ s.FindsGone i c e) (fun k => failed k ∨ s.FailsConnect k e) := by
    rintro ⟨hacc, hfail⟩ hentered
    simpa [hacc, hfail] using hentered
  generalize s.step e = s' at hn ht hf hl' hquiet ⊢
  cases ht with
  | nothing r =>
    exact hquiet (State.quiet_of_news (by simpa using hn.symm)) ((h.entered l' hl' hc).same rfl rfl)
  | gone op => exact hquiet (s.quiet_start op) ((h.entered l' hl' hc).same rfl rfl)
  | started op l k p dropped hl hp hsame hdrop hkeep =>
    obtain ⟨hk, htasks⟩ := State.advance_open hl' hc
    obtain rfl : k = l' := Option.some.inj hk
    obtain rfl := hsame hc
    obtain ⟨hpending, hhands⟩ := hp.begun
    refine hquiet (s.quiet_start op) ((h.entered k hl hc).same ?_ ?_)
    · rw [State.pending, htasks, List.flatMap_append, hpending]
      rfl
    · rw [(State.advance_keeps _ _ _).2, hhands]
      simp [State.note]
  | letGo op i c l quiet hl hci =>
    obtain ⟨hk, htasks⟩ := State.advance_open hl' hc
    obtain rfl : (l.beginRelease c.handle quiet).2 = l' := Option.some.inj hk
    obtain ⟨hpending, hhands⟩ := (l.part_beginRelease c.handle quiet).begun
    have hopen : l.closed = false := (l.closed_beginRelease c.handle quiet) ▸ hc
    have howes : l.owes.Nodup := (List.nodup_append.mp (hb.nodup_owes hl)).2.1
    refine hquiet (s.quiet_start op) ?_
    refine (h.entered l hl hopen).letGo hci quiet howes (ha.tracks l hl hopen) ?_ ?_
    · rw [State.pending, htasks, List.flatMap_append, hpending]
      rfl
    · rw [(State.advance_keeps _ _ _).2, hhands]
      simp
  | resumed t r rest l k p hl htasks hp =>
    obtain ⟨hk, htasks'⟩ := State.advance_open hl' hc
    obtain rfl : k = l' := Option.some.inj hk
    have hopen : l.closed = false := hp.closed_eq ▸ hc
    have hfresh := hb.not_owes_of_brings hl rfl hf
    exact (h.entered l hl hopen).resumed htasks hp hc
      (fun hi => ho.closing l hl t (by simp [htasks]) hi) hfresh
      (ha.tracks l hl hopen) htasks' (State.advance_keeps _ _ _).2
      (fun _ _ => or_congr_right (State.completes_reply hn))
      (fun _ _ => or_congr_right (State.findsGone_reply hn))
      (fun _ => or_congr_right (State.failsConnect_reply htasks hn))
  | made k u hl htasks =>
    obtain ⟨hk, htasks'⟩ := State.advance_open hl' hc
    obtain rfl := Option.some.inj hk
    obtain ⟨hacc, hfail⟩ := h.unmade hl
    -- nothing was accepted before the listener was made, and its registry is empty
    have hentered : Entered _ ⟨s.path, s.config, k, false, .empty⟩ done gone failed :=
      { placed := by simp [hacc]
        handedOut := by simp [Registry.empty, State.Holds, hacc]
        waiting := by
          rw [State.pending, htasks']
          simp [Registry.empty, State.Holds, hacc, hfail]
        apart := by simp [hfail] }
    exact hquiet (State.quiet_of_construction ho hl _) hentered
  | lockMade k hl htasks | notReset k e hl htasks =>
    simp [State.advance, State.push, State.note, hl] at hl'
  | notMade e hl htasks | givenUp k e r hl htasks =>
    rw [State.advance_failed_construction (s := s.note _) hl] at hl'
    simp [State.note, hl] at hl'

end Steps

/-- At every point of a run the registry of the open listener lists what the accepts came to. -/
theorem bookkept_run (name : String) (config : PipeConfig) (es : List Event)
    (hf : account.OpensFresh ((State.construct name config).run es).history) :
    Bookkept ((State.construct name config).run es)
      (fun i c => (State.construct name config).Sometime es (State.Completes i c))
      (fun i c => (State.construct name config).Sometime es (State.FindsGone i c))
      (fun h => (State.construct name config).Sometime es (State.FailsConnect h)) := by
  have ho₀ := orderly_construct name config
  have hb₀ := books_construct name config
  -- from the end of the run, where a step adds to what happened
  induction es using List.reverseRecOn with
  | nil =>
    refine ⟨fun _ => ?_, fun l hl => ?_⟩
    · simp [State.not_sometime_nil]
    · simp [State.run, State.construct, State.advance, State.push, State.note] at hl
  | append_singleton es e ih =>
    rw [State.run_snoc] at hf ⊢
    have ho := ho₀.run es
    have hf' := hf.of_prefix (ho.turn_step e).history
    simp only [State.sometime_snoc]
    exact (ih hf').step ho (hb₀.run ho₀ es hf')
      ((attended_construct name config).run ho₀ hb₀ es hf') e hf

end LocalIpc.Pipe

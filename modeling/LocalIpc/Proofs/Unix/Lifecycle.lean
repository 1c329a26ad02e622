import LocalIpc.Proofs.Unix.Closing
import LocalIpc.Proofs.Unix.Lifetime
import LocalIpc.Proofs.Unix.Turn
/-!
# The life of a listener

A listener that its owner has let go is closed once no operation of it is under way. With that,
every descriptor that a run opens is accounted for, from the native call that opened it to the one
that closes it.
-/

namespace LocalIpc.Unix

/-! ## Listeners let go -/

/-- A listener that its owner has let go is closed, or an operation of it is under way. -/
def State.Attended (s : State) (l : Nat) : Prop :=
  ∀ x, s.listeners[l]? = some x → l ∈ s.dropped →
    x.phase = .closed ∨ ∃ t, .working l t ∈ s.tasks

section LetGo

variable {s s' : State} {l : Nat}

/-- Nothing changes for the listener, and its operations go on. -/
theorem State.Attended.keep (h : s.Attended l) (hl : s'.listeners[l]? = s.listeners[l]?)
    (hd : l ∈ s'.dropped → l ∈ s.dropped)
    (ht : ∀ t, .working l t ∈ s.tasks → .working l t ∈ s'.tasks) : s'.Attended l := by
  intro x hx hmem
  refine (h x (hl ▸ hx) (hd hmem)).imp_right ?_
  rintro ⟨t, hmem⟩
  exact ⟨t, ht t hmem⟩

theorem Listener.phase_beginClose (x : Listener) (host : Host) (quiet : Bool) :
    (x.beginClose host quiet).2.1.phase = .closed := by
  unfold Listener.beginClose
  split
  · assumption
  · split <;> rfl

/-- The state after a listener was closed on the way. -/
theorem State.attended_set {y : Listener} (h : ∀ k, k ≠ l → s.Attended k) (hy : y.phase = .closed) :
    ∀ k, (s.setListener l y).Attended k := by
  intro k
  by_cases hkl : k = l
  · subst hkl
    intro x hx _
    have hlt : k < s.listeners.length := by
      simpa [State.setListener] using (List.getElem?_eq_some_iff.mp hx).1
    have := (List.getElem?_set_self hlt).symm.trans hx
    exact .inl (Option.some.inj this ▸ hy)
  · exact (h k hkl).keep (List.getElem?_set_ne (Ne.symm hkl)) id fun t ht => ht

/-- Whoever the listener was left to before, it is attended once it was looked at. -/
theorem State.attended_closeUnheld (h : ∀ k, k ≠ l → s.Attended k) :
    ∀ k, (s.closeUnheld l).Attended k := by
  unfold closeUnheld
  split
  · rename_i x hx
    split
    · have hy := x.phase_beginClose s.host true
      generalize x.beginClose s.host true = begun at hy ⊢
      obtain ⟨p, y, host⟩ := begun
      intro k
      have hset := attended_set h hy k
      cases p with
      | waits t => exact hset.keep rfl id fun t ht => List.mem_cons_of_mem _ ht
      | _ => exact hset.keep rfl id fun t ht => ht
    · rename_i hu
      intro k
      by_cases hkl : k = l
      · -- it was let go and is not unheld, so one of its operations is under way
        subst hkl
        intro x hx hd
        right
        simp only [isUnheld, hd, List.contains_eq_mem, decide_true, Bool.true_and,
          Bool.not_eq_true', Bool.not_eq_false, List.any_eq_true] at hu
        obtain ⟨f, hf, hfk⟩ := hu
        cases f with
        | working j t =>
          obtain rfl : j = k := by simpa using hfk
          exact ⟨t, hf⟩
        | _ => simp at hfk
      · exact h k hkl
  · rename_i hx
    intro k
    by_cases hkl : k = l
    · subst hkl
      intro x hx'
      simp [hx] at hx'
    · exact h k hkl

theorem State.attended_advance {p : Progress} (config : UnixConfig)
    (h : ∀ k, k ≠ l → s.Attended k) (hover : p = .over → s.Attended l) :
    ∀ k, (s.advance l config p).Attended k := by
  cases p with
  | waits t =>
    intro k
    by_cases hkl : k = l
    · subst hkl
      exact fun x _ _ => .inr ⟨t, List.mem_cons_self ..⟩
    · exact (h k hkl).keep rfl id fun t ht => List.mem_cons_of_mem _ ht
  | accepted client =>
    exact attended_closeUnheld (s := s.addConnection _ true) h
  | done => exact attended_closeUnheld (s := s.finish .done) h
  | failed e => exact attended_closeUnheld (s := s.finish (.failed e)) h
  | _ =>
    intro k
    by_cases hkl : k = l
    · exact hkl ▸ hover rfl
    · exact h k hkl

/-- An operation that is over, and tells nobody, has to leave its listener closed. -/
theorem State.attended_advanceWith {p : Progress × Listener × Host}
    (h : ∀ k, k ≠ l → s.Attended k) (hover : p.1 = .over → p.2.1.phase = .closed) :
    ∀ k, (s.advanceWith l p).Attended k := by
  refine attended_advance (s := { s.setListener l p.2.1 with host := p.2.2 }) _ (fun k hkl => ?_)
    fun hp => attended_set h (hover hp) l
  exact (h k hkl).keep (List.getElem?_set_ne (Ne.symm hkl)) id fun t ht => ht

/-- Every listener that was let go is a listener, and attended. -/
structure LetGo (s : State) : Prop where
  known : ∀ l ∈ s.dropped, l < s.listeners.length
  attended : ∀ l, s.Attended l

theorem State.known_move (h : ∀ l ∈ s.dropped, l < s.listeners.length) (hm : Move s s') :
    ∀ l ∈ s'.dropped, l < s'.listeners.length := by
  cases hm with
  | dropped l hl =>
    intro k hk
    rcases List.mem_cons.mp hk with rfl | hk
    · exact hl
    · exact h k hk
  | made config fd rest ht hfd =>
    intro l hl
    have := h l hl
    simp only [State.finish, State.note, List.length_append]
    omega
  | bound | shutDown | closed =>
    intro l hl
    simpa [State.setListener, State.push, State.note] using h l hl
  | _ => exact h

theorem Listener.afterListen_ne_over (x : Listener) (host : Host) (path : Path)
    (created : Option FileId) (r : Except IoError Unit) :
    (x.afterListen host path created r).1 ≠ .over := by
  have hgive : ∀ cause, (x.giveUp host path created cause).1 ≠ .over := by
    intro cause
    unfold giveUp
    split <;> simp [finishGiveUp, finishEnd, told]
  unfold afterListen
  split
  · exact hgive _
  · split
    · exact hgive _
    · simp

/-- What is asked of a listener tells somebody how it goes, or finds the listener closed. -/
theorem Listener.closed_of_asks {x : Listener} {host : Host} {op : Operation} {g : Trigger}
    (hop : op.asks? = some (l, g)) (hover : (x.react host g).1 = .over) :
    (x.react host g).2.1.phase = .closed := by
  cases op with
  | bind k path =>
    obtain ⟨-, rfl⟩ := Prod.mk.inj (Option.some.inj hop)
    simp only [react] at hover
    rcases x.beginBind_cases host path with ⟨e, heq⟩ | ⟨fd, address, heq, -⟩ <;> simp [heq] at hover
  | bindSlowly k path =>
    obtain ⟨-, rfl⟩ := Prod.mk.inj (Option.some.inj hop)
    simp only [react] at hover
    rcases x.beginBindSlowly_cases path with ⟨e, heq⟩ | ⟨fd, address, heq, -⟩ <;>
      simp [heq] at hover
  | accept k =>
    obtain ⟨-, rfl⟩ := Prod.mk.inj (Option.some.inj hop)
    simp only [react] at hover
    rcases x.beginAccept_cases with ⟨e, heq⟩ | ⟨fd, heq, -⟩ <;> simp [heq] at hover
  | close k =>
    obtain ⟨-, rfl⟩ := Prod.mk.inj (Option.some.inj hop)
    exact x.phase_beginClose host false
  | _ => simp [Operation.asks?] at hop

/-- A task that goes on tells somebody how it went, unless its listener was closed quietly. -/
theorem Listener.closed_of_reply {x : Listener} {host : Host} {t : Task} {r : Reply}
    (hsuits : x.Suits t) (htakes : State.Frame.takes (.working l t) r = true)
    (hover : (x.react host (.reply t r)).1 = .over) :
    (x.react host (.reply t r)).2.1.phase = .closed := by
  cases Task.meets_of_takes htakes with
  | accepting fd r =>
    simp only [react] at hover
    rcases r with e | client
    · simp [afterAccept] at hover
    · cases hslot : x.slot.get <;> simp [afterAccept, hslot] at hover
  | binding fd path address r => cases r <;> simp [react, afterBind] at hover
  | listening fd path created r => exact absurd hover (x.afterListen_ne_over host path created r)
  | refusing client r => simp [react] at hover
  | shuttingDown fd quiet r => simp [react] at hover
  | looking fd path address =>
    simp only [react] at hover
    rcases afterLook_cases host fd path address with ⟨e, heq⟩ | heq | heq <;> simp [heq] at hover
  | probing fd path address =>
    simp only [react] at hover
    rcases afterProbe_cases host fd path address with ⟨e, heq⟩ | heq | heq <;> simp [heq] at hover
  | clearing fd path address =>
    simp only [react] at hover
    rcases afterClear_cases host fd path address with ⟨e, heq⟩ | heq <;> simp [heq] at hover
  -- at their end the others have their listener closed
  | givingUp | closing | givingUpSlowly | closingSlowly | sweeping => exact hsuits

/-- Whatever a step does, every listener that was let go stays attended. -/
theorem LetGo.attended_step (h : LetGo s) (ho : Orderly s) (e : Event) :
    ∀ k, (s.step e).Attended k := by
  have heffect := s.effect_step e
  generalize s.step e = s' at heffect ⊢
  -- an operation that is over was not the only one of a listener but of its own
  have hpop : ∀ {f : Frame} {rest : List Frame}, s.tasks = f :: rest →
      ∀ k, (∀ t, f ≠ .working k t) → State.Attended { s with tasks := rest } k := by
    intro f rest ht k hk
    refine (h.attended k).keep rfl id fun t hmem => ?_
    exact (List.mem_cons.mp (ht ▸ hmem)).resolve_left fun heq => hk t heq.symm
  cases heffect with
  | creates config | releases op i quiet c =>
    exact fun k => (h.attended k).keep rfl id fun t ht => List.mem_cons_of_mem _ ht
  | asks op l x g hop =>
    exact State.attended_advanceWith (s := s.note _) (fun k _ => h.attended k)
      (Listener.closed_of_asks hop)
  | drops l x hx =>
    refine State.attended_closeUnheld (fun k hkl => (h.attended k).keep rfl (fun hd => ?_)
      fun t ht => ht)
    exact (List.mem_cons.mp hd).resolve_left hkl
  | notMade config err rest ht | released fd quiet r rest o ht =>
    exact fun k => hpop ht k (by simp)
  | made config fd rest ht =>
    -- the new listener has not been let go
    intro k x hx hd
    have hlt : k < s.listeners.length := h.known k hd
    exact hpop ht k (by simp) x ((List.getElem?_append_left hlt).symm.trans hx) hd
  | answered l x t r rest ht htakes hx =>
    obtain ⟨y, hy, hsuits⟩ := ho.placed (.working l t) (by simp [ht])
    obtain rfl := Option.some.inj (hx.symm.trans hy)
    refine State.attended_advanceWith (s := { s with tasks := rest }.note (.replied r))
      (fun k hkl => hpop ht k fun u heq => ?_)
      (Listener.closed_of_reply hsuits htakes)
    exact hkl (Frame.working.inj heq).1.symm
  | lost l t r rest ht htakes hx =>
    obtain ⟨y, hy, -⟩ := ho.placed (.working l t) (by simp [ht])
    simp [hx] at hy
  | _ => exact h.attended

theorem State.known_moves (h : ∀ l ∈ s.dropped, l < s.listeners.length) (hm : Moves s s') :
    ∀ l ∈ s'.dropped, l < s'.listeners.length := by
  induction hm with
  | refl s => exact h
  | step hm ht ih => exact ih (State.known_move h hm)

theorem LetGo.step (h : LetGo s) (ho : Orderly s) {e : Event} (hm : Moves s (s.step e)) :
    LetGo (s.step e) :=
  ⟨State.known_moves h.known hm, h.attended_step ho e⟩

end LetGo

/-! ## The accounts of a run -/

/-- Every descriptor of a run is accounted for. -/
structure Accounted (s : State) : Prop where
  /-- A listener is closed just when its slot is empty. It has a path when it is bound, and none
  before. -/
  proper : ∀ (l : Nat) (x : Listener), s.listeners[l]? = some x → x.Proper
  /-- What is open has one owner, and only what is open is closed. -/
  books : account.Balanced s.history s.owed
  /-- The descriptor of a listener is left alone until the close, which ends it once. -/
  lives : ∀ (l : Nat) (x : Listener), s.listeners[l]? = some x → s.Alive l x
  /-- A closed listener whose shutdown is over has come to its end, whatever else of it is under
  way, and so has one that was let go, once nothing of it is under way. -/
  ended : ∀ (l : Nat) (x : Listener), s.listeners[l]? = some x →
    (x.phase = .closed ∧ ∀ fd, ¬ s.ShutsDown l fd) ∨
      (l ∈ s.dropped ∧ ∀ t, .working l t ∉ s.tasks) →
    x.phase = .closed ∧ ∃ fd after, MadeWith s.history l fd after ∧ endCalls fd after = x.ending fd
  closesNext : AtEveryPoint ClosesNext s.history
  shutOnce : shutdowns s.history = s.listeners.countP Listener.wasShutDown
  /-- When nobody has anything left, everything was closed as often as it was opened. -/
  settled : s.tasks = [] →
    (∀ (l : Nat) (x : Listener), s.listeners[l]? = some x → x.phase = .closed ∨ l ∈ s.dropped) →
    (∀ i c, s.connection? i ≠ some ⟨c, true⟩) →
    ∀ fd, account.timesClosed s.history fd = account.timesOpened s.history fd

section Accounts

variable {s : State} {l : Nat} {x : Listener}

/-- A listener with no operation under way is closed, once it may be. -/
theorem LetGo.closed (h : LetGo s) (hx : s.listeners[l]? = some x)
    (hover : x.phase = .closed ∨ l ∈ s.dropped) (ht : ∀ t, .working l t ∉ s.tasks) :
    x.phase = .closed := by
  rcases hover with hp | hd
  · exact hp
  · refine (h.attended l x hx hd).resolve_right ?_
    rintro ⟨t, hmem⟩
    exact ht t hmem

theorem State.Alive.ended (h : s.Alive l x) (hx : x.Proper) (hp : x.phase = .closed)
    (ht : ∀ fd, ¬ s.ShutsDown l fd) :
    ∃ fd after, MadeWith s.history l fd after ∧ endCalls fd after = x.ending fd := by
  obtain ⟨fd, after, hmade, hstage⟩ := h
  refine ⟨fd, after, hmade, ?_⟩
  cases hstage with
  | inUse hslot hback hends =>
    have := hx.closed.mp hp
    simp [this] at hslot
  | shuttingDown hc hpath hshut hback hends => exact absurd hshut (ht fd)
  | ended hc hshut hends hgone => exact hends

theorem State.owed_eq_nil (ht : s.tasks = [])
    (hl : ∀ (l : Nat) (x : Listener), s.listeners[l]? = some x → x.slot.get = none)
    (hc : ∀ i c, s.connection? i ≠ some ⟨c, true⟩) : s.owed = [] := by
  have hslots : s.listeners.flatMap Listener.owes = [] := by
    refine List.flatMap_eq_nil_iff.mpr fun x hx => ?_
    obtain ⟨l, hl'⟩ := List.getElem?_of_mem hx
    simp [Listener.owes, hl l x hl']
  have hheld : s.heldFds = [] := by
    refine List.flatMap_eq_nil_iff.mpr fun held hheld => ?_
    obtain ⟨i, hi⟩ := List.getElem?_of_mem hheld
    rcases held with _ | ⟨c, _ | _⟩
    · rfl
    · rfl
    · exact absurd (by simp [connection?, hi]) (hc i c)
  simp [owed, ht, hslots, hheld]

theorem LetGo.run (h : LetGo s) (ho : Orderly s) {es : List Event} (hv : OpensValid es) :
    LetGo (s.run es) := by
  induction es generalizing s with
  | nil => exact h
  | cons e es ih =>
    obtain ⟨hve, hves⟩ := hv.of_cons
    have hm := State.moves_step ho hve
    exact ih (h.step ho hm) (ho.moves hm) hves

end Accounts

/-- In every run that opens only valid descriptors that are not open, every descriptor is accounted
for at every point. -/
theorem descriptors_accounted_for (host : Host) (es : List Event) (hv : OpensValid es)
    (hf : account.OpensFresh ((State.start host).run es).history) :
    Accounted ((State.start host).run es) := by
  have hstart := Orderly.start host
  -- what every move keeps holds from the start, where there is nothing yet
  have hm := State.moves_run hstart hv
  have ho : Orderly ((State.start host).run es) := hstart.moves hm
  have hbooks : Books (State.start host) := Account.balanced_nil
  have hb : Books ((State.start host).run es) := hbooks.moves hm hf
  have hlives : Lives ((State.start host).run es) :=
    Lives.moves (s := State.start host) (by simp [Lives, State.start]) hstart hbooks hm hf
  have hhalved : Halved ((State.start host).run es) :=
    Halved.moves (s := State.start host)
      ⟨atEveryPoint_nil, by simp [State.start], by simp [State.start]⟩ hm
  have hshut : ShutOnce ((State.start host).run es) :=
    ShutOnce.moves (s := State.start host) rfl hstart hm
  have hletGo : LetGo ((State.start host).run es) :=
    LetGo.run (s := State.start host) ⟨by simp [State.start], by simp [State.Attended, State.start]⟩
      hstart hv
  refine ⟨ho.proper, hb, hlives, ?_, hhalved.points, hshut, ?_⟩
  · intro l x hx hover
    obtain ⟨hp, hshut⟩ :
        x.phase = .closed ∧ ∀ fd, ¬ ((State.start host).run es).ShutsDown l fd := by
      rcases hover with hover | ⟨hd, ht⟩
      · exact hover
      · refine ⟨hletGo.closed hx (.inr hd) ht, ?_⟩
        rintro fd ⟨quiet, hmem⟩
        exact ht _ hmem
    exact ⟨hp, (hlives l x hx).ended (ho.proper l x hx) hp hshut⟩
  · intro ht hover hc fd
    unfold Books at hb
    rw [State.owed_eq_nil ht (fun l x hx => ?_) hc] at hb
    · exact hb.settled fd
    · have hp := hletGo.closed hx (hover l x hx) (by simp [ht])
      exact (ho.proper l x hx).closed.mp hp

/-- A listener is closed from inside its accept. The value of its descriptor comes back inside the
native close, for a second listener, and the client that comes after all is refused. -/
def reusedInsideClose : List Event :=
  [.start (.create ⟨1, none, false⟩), .reply (.opened (.ok 5)),
    .start (.bind 0 [97]), .reply (.done (.ok ())), .reply (.done (.ok ())),
    .start (.accept 0), .start (.close 0), .reply (.done (.error .badDescriptor)),
    .start (.create ⟨1, none, false⟩), .reply (.opened (.ok 5)), .reply (.done (.ok ())),
    .reply (.opened (.ok 7)), .reply (.done (.error .badDescriptor)),
    .start (.drop 1), .reply (.done (.ok ()))]

theorem reused_inside_close_accounted_for :
    let s := (State.start .fresh).run reusedInsideClose
    account.OpensFresh s.history ∧ shutdowns s.history = 1 ∧
      account.timesClosed s.history 5 = 2 ∧ account.timesClosed s.history 7 = 1 := by
  intro s
  have hf : account.OpensFresh s.history := by decide
  have h := descriptors_accounted_for .fresh reusedInsideClose
    (by simp [OpensValid, reusedInsideClose, DescriptorSlot.invalid]) hf
  have hover : ∀ (l : Nat) (x : Listener), s.listeners[l]? = some x →
      x.phase = .closed ∨ l ∈ s.dropped := by
    intro l x hx
    have hlt : l < 2 := (List.getElem?_eq_some_iff.mp hx).1
    match l, hlt with
    | 0, _ => exact .inl (by cases hx; rfl)
    | 1, _ => exact .inr (by decide)
  have hconnections : s.connections = [] := rfl
  have hsettled := h.settled rfl hover (by simp [State.connection?, s, hconnections])
  exact ⟨hf, h.shutOnce, hsettled 5, hsettled 7⟩

end LocalIpc.Unix

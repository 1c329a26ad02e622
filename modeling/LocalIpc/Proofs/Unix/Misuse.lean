import LocalIpc.Proofs.Unix.Accepting
import LocalIpc.Proofs.Unix.Lifecycle
import LocalIpc.Proofs.Unix.Turn
/-!
# Closed for good

A closed socket listener stays as it is, and refuses whatever is asked of it before a native call is
made. The other way round, an error of misuse tells the truth: who reads that a listener is closed,
not bound or bound already may rely on it.
-/

namespace LocalIpc.Unix

/-! ## Why an error blames the caller -/

/-- Why the step on an event may tell of a misuse. -/
inductive State.Blames (s : State) : Event → ListenerError → Prop
  | closed (op : Operation) (l : Nat) (x : Listener) (hop : State.lockOf op = some l)
      (hx : s.listeners[l]? = some x) (hc : x.phase = .closed) : s.Blames (.start op) .alreadyClosed
  /-- The client of an accept came during the close. -/
  | refused (l : Nat) (x : Listener) (client : Fd) (rest : List Frame) (r : Reply)
      (ht : s.tasks = .working l (.refusing client) :: rest)
      (hx : s.listeners[l]? = some x) (hc : x.phase = .closed) : s.Blames (.reply r) .alreadyClosed
  | notBound (l : Nat) (x : Listener) (hx : s.listeners[l]? = some x) (hu : x.phase = .unbound) :
      s.Blames (.start (.accept l)) .notBound
  | alreadyBound (op : Operation) (l : Nat) (x : Listener) (path : Path)
      (hop : op.bindsTo? = some (l, path)) (hx : s.listeners[l]? = some x)
      (hb : x.phase = .bound) : s.Blames (.start op) .alreadyBound

/-- An operation at its end tells of what has gone wrong, and that was no misuse. -/
def State.Candid (s : State) : Prop :=
  ∀ l t err, .working l t ∈ s.tasks → t.tells? = some err → err.isMisuse = false

section Reactions

variable {x : Listener} {host : Host} {path : Path} {g : Trigger} {l : Nat} {t : Task} {r : Reply}
  {err : ListenerError}

theorem Listener.checkBind_misuse (hx : x.Proper) (h : x.checkBind path = .error err)
    (herr : err.isMisuse = true) :
    (err = .alreadyBound ∧ x.phase = .bound) ∨ (err = .alreadyClosed ∧ x.phase = .closed) := by
  unfold checkBind at h
  split at h
  · exact .inl ⟨(Except.error.inj h).symm, ‹_›⟩
  · exact .inr ⟨(Except.error.inj h).symm, ‹_›⟩
  split at h
  · obtain rfl := Except.error.inj h
    simp [ListenerError.emptyPath, ListenerError.isMisuse] at herr
  rcases haddress : AddressRecord.encode .family path with e | address
  · rw [haddress] at h
    obtain rfl := Except.error.inj h
    -- the address of a path is wrong, however the listener stands
    unfold AddressRecord.encode at haddress
    split at haddress
    · obtain rfl := Except.error.inj haddress
      simp [ListenerError.isMisuse] at herr
    · split at haddress
      · simp at haddress
      · obtain rfl := Except.error.inj haddress
        simp [ListenerError.isMisuse] at herr
  · rw [haddress] at h
    rcases hslot : x.slot.get with _ | fd
    · exact .inr ⟨by simpa [hslot, eq_comm, bind, Except.bind] using h, hx.closed.mpr hslot⟩
    · simp [hslot, bind, Except.bind] at h

theorem Listener.beginBindSlowly_failed (h : x.beginBindSlowly path = .failed err) :
    x.checkBind path = .error err := by
  unfold beginBindSlowly at h
  split at h
  · obtain rfl := Progress.failed.inj h
    assumption
  · simp at h

theorem Listener.beginBind_failed (h : (x.beginBind host path).1 = .failed err)
    (herr : err.isMisuse = true) : x.checkBind path = .error err := by
  unfold beginBind at h
  split at h
  · obtain rfl := Progress.failed.inj h
    assumption
  · split at h
    · simp at h
    · obtain rfl := Progress.failed.inj h
      simp [ListenerError.isMisuse] at herr

/-- What an operation is refused for when it begins. -/
theorem Listener.react_begun {op : Operation} (hx : x.Proper) (hop : op.asks? = some (l, g))
    (h : (x.react host g).1 = .failed err) (herr : err.isMisuse = true) :
    (err = .alreadyClosed ∧ State.lockOf op = some l ∧ x.phase = .closed) ∨
      (err = .notBound ∧ op = .accept l ∧ x.phase = .unbound) ∨
      ∃ path, err = .alreadyBound ∧ op.bindsTo? = some (l, path) ∧ x.phase = .bound := by
  cases op with
  | bind k path =>
    obtain ⟨rfl, rfl⟩ : k = l ∧ Trigger.bind path = g := by simpa [Operation.asks?] using hop
    rcases checkBind_misuse hx (beginBind_failed h herr) herr with ⟨rfl, hb⟩ | ⟨rfl, hc⟩
    · exact .inr (.inr ⟨path, rfl, rfl, hb⟩)
    · exact .inl ⟨rfl, rfl, hc⟩
  | bindSlowly k path =>
    obtain ⟨rfl, rfl⟩ : k = l ∧ Trigger.bindSlowly path = g := by simpa [Operation.asks?] using hop
    rcases checkBind_misuse hx (beginBindSlowly_failed h) herr with ⟨rfl, hb⟩ | ⟨rfl, hc⟩
    · exact .inr (.inr ⟨path, rfl, rfl, hb⟩)
    · exact .inl ⟨rfl, rfl, hc⟩
  | accept k =>
    obtain ⟨rfl, rfl⟩ : k = l ∧ Trigger.accept = g := by simpa [Operation.asks?] using hop
    simp only [react, beginAccept] at h
    split at h
    · exact .inr (.inl ⟨(Progress.failed.inj h).symm, rfl, ‹_›⟩)
    · exact .inl ⟨(Progress.failed.inj h).symm, rfl, ‹_›⟩
    · split at h
      · simp at h
      · exact .inl ⟨(Progress.failed.inj h).symm, rfl, hx.closed.mpr ‹_›⟩
  | close k =>
    obtain ⟨rfl, rfl⟩ : k = l ∧ Trigger.close false = g := by simpa [Operation.asks?] using hop
    simp only [react] at h
    rcases beginClose_cases hx host false with ⟨hc, heq⟩ | ⟨fd, -, -, heq⟩ | ⟨fd, -, -, heq⟩
    · rw [heq] at h
      exact .inl ⟨(Progress.failed.inj h).symm, rfl, hc⟩
    · simp [heq] at h
    · simp [heq] at h
  | _ => simp [Operation.asks?] at hop

/-- A bind that fails half way fails by what the system said. -/
theorem Listener.afterListen_failed {created : Option FileId} {r : Except IoError Unit}
    (h : (x.afterListen host path created r).1 = .failed err) : err.isMisuse = false := by
  have hgive : ∀ cause : ListenerError, cause.isMisuse = false →
      (x.giveUp host path created cause).1 = .failed err → err.isMisuse = false := by
    intro cause hcause h
    unfold giveUp at h
    split at h
    · simp at h
    · obtain rfl := Progress.failed.inj h
      exact hcause
  unfold afterListen at h
  split at h
  · exact hgive _ rfl h
  · split at h
    · exact hgive _ rfl h
    · simp at h

/-- At its end an operation fails by what it had to tell. -/
theorem Listener.told_failed {quiet : Bool} {result : Except ListenerError Unit}
    (h : told quiet result = .failed err) : quiet = false ∧ result = .error err := by
  cases quiet <;> cases result <;> simp_all [told]

theorem Listener.finishEndSlowly_failed {own : Option (Path × FileId)} {quiet : Bool}
    {result : Except ListenerError Unit} (h : finishEndSlowly host own quiet result = .failed err) :
    quiet = false ∧ result = .error err := by
  rcases finishEndSlowly_cases host own quiet result with ⟨path, f, -, -, heq⟩ | heq
  · simp [heq] at h
  · exact told_failed (heq.symm.trans h)

/-- The native close fails by what the system said. -/
theorem not_misuse_of_mapError {r : Except IoError Unit} {c : SystemCall}
    (h : r.mapError (.native c) = Except.error err) : err.isMisuse = false := by
  cases r with
  | ok u => cases h
  | error e =>
    obtain rfl := Except.error.inj h
    rfl

/-- A bind fails at the file system by what the system said, or by what is there. -/
theorem Listener.files_failed (ht : t.Meets .files)
    (h : (x.react host (.reply t .files)).1 = .failed err) :
    err.isMisuse = false ∨ t.tells? = some err := by
  have hnative : ∀ {p : Progress} {e : IoError}, p = .failed (.native .bind e) → p = .failed err →
      err.isMisuse = false := by
    rintro _ e rfl h
    obtain rfl := Progress.failed.inj h
    rfl
  have hwaits : ∀ {p : Progress} {u : Task}, p = .waits u → p ≠ .failed err := by
    rintro _ u rfl h
    simp at h
  cases ht with
  | looking fd path address =>
    rcases afterLook_cases host fd path address with ⟨e, heq⟩ | heq | heq
    · exact .inl (hnative heq h)
    all_goals exact absurd h (hwaits heq)
  | probing fd path address =>
    rcases afterProbe_cases host fd path address with ⟨e, heq⟩ | heq | heq
    · exact .inl (hnative heq h)
    all_goals exact absurd h (hwaits heq)
  | clearing fd path address =>
    rcases afterClear_cases host fd path address with ⟨e, heq⟩ | heq
    · exact .inl (hnative heq h)
    · exact absurd h (hwaits heq)
  | sweeping path f quiet result =>
    obtain ⟨-, rfl⟩ := told_failed h
    exact .inr rfl

/-- What an operation is blamed for when it goes on. -/
theorem Listener.react_replied (hr : State.Frame.takes (.working l t) r = true)
    (h : (x.react host (.reply t r)).1 = .failed err) (herr : err.isMisuse = true) :
    (err = .alreadyClosed ∧ ∃ client, t = .refusing client) ∨ t.tells? = some err := by
  cases Task.meets_of_takes hr with
  | accepting fd r =>
    simp only [react] at h
    unfold afterAccept at h
    split at h
    · obtain rfl := Progress.failed.inj h
      simp [ListenerError.isMisuse] at herr
    · split at h <;> simp at h
  | binding fd path address r =>
    simp only [react] at h
    unfold afterBind at h
    split at h
    · simp at h
    · obtain rfl := Progress.failed.inj h
      simp [ListenerError.isMisuse] at herr
  | listening fd path created r =>
    simp [afterListen_failed h] at herr
  | givingUp fd path created cause r =>
    obtain rfl := Progress.failed.inj h
    exact .inr rfl
  | refusing client r => exact .inl ⟨(Progress.failed.inj h).symm, client, rfl⟩
  | shuttingDown fd quiet r => simp [react] at h
  | closing fd quiet r =>
    simp [not_misuse_of_mapError (told_failed h).2] at herr
  | givingUpSlowly fd path created cause r =>
    obtain rfl := Except.error.inj (finishEndSlowly_failed h).2
    exact .inr rfl
  | closingSlowly fd quiet r =>
    simp [not_misuse_of_mapError (finishEndSlowly_failed h).2] at herr
  | looking | probing | clearing | sweeping =>
    rcases files_failed (by constructor) h with hno | htells
    · simp [hno] at herr
    · exact .inr htells

end Reactions

/-! ## Errors of misuse are true -/

section Turns

variable {s s' : State} {e : Event} {l : Nat} {x : Listener}

theorem State.Candid.take {g : Trigger} (h : s.Candid)
    (hg : ∀ t r err, g = .reply t r → t.tells? = some err → err.isMisuse = false) (host : Host) :
    (s.take l (x.react host g)).Candid := by
  intro k t err hmem htells
  rcases State.mem_tasks_take.mp hmem with ⟨u, hu, heq⟩ | hmem
  · obtain ⟨rfl, rfl⟩ := Frame.working.inj heq
    cases Listener.react_waits hu with
    | givingUp fd k path created r cause hc => exact Option.some.inj htells ▸ hc
    | givenUp fd path f cause r hs => exact hg _ _ err rfl htells
    | closed fd quiet path f r ho hs =>
      rcases r with e | u
      · obtain rfl := Option.some.inj htells
        rfl
      · cases htells
    | led t u h => cases h <;> simp [Task.tells?] at htells
    | _ => simp [Task.tells?] at htells
  · exact h k t err hmem htells

theorem State.Candid.turn (h : s.Candid) (ht : Turn s e s') : s'.Candid := by
  induction ht with
  | aside e ha => exact fun k t err hmem => h k t err (ha.working _ _ hmem)
  | world host => exact h
  | made config fd rest ht =>
    exact fun k t err hmem => h k t err (ht ▸ List.mem_cons_of_mem _ hmem)
  | asked op l x g hop hd hr =>
    refine State.Candid.take (s := s.note _) h (fun t r err heq => ?_) s.host
    exact absurd heq (Operation.asks?_ne_reply hop t r)
  | answered l x t r rest ht htakes hx =>
    refine State.Candid.take (s := { s with tasks := rest }.note _) ?_ ?_ s.host
    · exact fun k t err hmem => h k t err (ht ▸ List.mem_cons_of_mem _ hmem)
    · intro u r' err heq
      obtain ⟨rfl, -⟩ := Trigger.reply.inj heq
      exact h l t err (ht ▸ List.mem_cons_self ..)
  | dropped l hl => exact h
  | letGo e m l x ht hr ih => exact State.Candid.take ih (by simp) m.host

theorem State.Candid.run (h : s.Candid) (es : List Event) : (s.run es).Candid :=
  State.run_keeps h (fun hm ht => hm.turn ht) es

/-- A close that nobody waits for tells nobody of a failure. -/
theorem State.tells_letGo (s : State) (l : Nat) (x : Listener) (p : ListenerError → Prop) :
    s.Tells (s.take l (x.react s.host (.close true))) p := by
  refine State.tells_take.mono fun err herr => ?_
  have hquiet := x.beginClose_quiet s.host
  simp only [Listener.react] at herr
  simp [herr, Progress.reports] at hquiet

/-- Whoever is told of a misuse is told the truth. -/
theorem Turn.blames (ht : Turn s e s') (ho : Orderly s) (hc : s.Candid) :
    s.Tells s' fun err => err.isMisuse = true → s.Blames e err := by
  induction ht with
  | aside e ha => exact ha.tells.mono fun err herr hmis => absurd (herr.symm.trans hmis) (by simp)
  | world host => exact .same rfl
  | made config fd rest ht => exact .of_append [_, _] (List.append_assoc ..) (by simp)
  | asked op l x g hop hd hr =>
    refine .trans (.of_append [.began op] rfl (by simp)) (State.tells_take.mono ?_)
    intro err herr hmis
    rcases Listener.react_begun (ho.proper l x hr.listener) hop herr hmis with
      ⟨rfl, hlock, hclosed⟩ | ⟨rfl, rfl, hu⟩ | ⟨path, rfl, hbind, hb⟩
    · exact .closed op l x hlock hr.listener hclosed
    · exact .notBound l x hr.listener hu
    · exact .alreadyBound op l x path hbind hr.listener hb
  | answered l x t r rest ht htakes hx =>
    refine .trans (.of_append [.replied r] rfl (by simp)) (State.tells_take.mono ?_)
    intro err herr hmis
    rcases Listener.react_replied htakes herr hmis with ⟨rfl, client, rfl⟩ | htells
    · -- a client is refused only once the listener is closed
      obtain ⟨y, hy, hclosed⟩ := ho.placed (.working l (.refusing client)) (by simp [ht])
      exact .refused l y client rest r ht hy hclosed
    · have := hc l t err (by simp [ht]) htells
      simp [hmis] at this
  | dropped l hl => exact .of_append [_, _] (List.append_assoc ..) (by simp)
  | letGo e m l x ht hr ih => exact ih.trans (m.tells_letGo l x _)

end Turns

/-! ## A closed listener -/

section Closed

variable {s s' : State} {l : Nat} {x : Listener}

theorem Move.keeps_closed (hm : Move s s') (hx : s.listeners[l]? = some x)
    (hc : x.phase = .closed) : s'.listeners[l]? = some x := by
  have hset : ∀ {k y z}, s.listeners[k]? = some y → y.phase ≠ .closed →
      (s.setListener k z).listeners[l]? = some x := by
    intro k y z hy hne
    have hkl : k ≠ l := by
      rintro rfl
      exact hne (Option.some.inj (hx.symm.trans hy) ▸ hc)
    exact (List.getElem?_set_ne hkl).trans hx
  cases hm with
  | made config fd rest ht hfd =>
    exact (List.getElem?_append_left (List.getElem?_eq_some_iff.mp hx).1).trans hx
  | bound k y path created hy hp hl => exact hset hy (by simp [hp])
  | shutDown k y fd quiet hs hy hp hfd hl => exact hset hy (by simp [hp])
  | closed k y fd t hs hy hp hfd hl ht => exact hset hy (by simp [hp])
  | _ => exact hx

theorem Moves.keeps_closed (hm : Moves s s') (hx : s.listeners[l]? = some x)
    (hc : x.phase = .closed) : s'.listeners[l]? = some x := by
  induction hm with
  | refl s => exact hx
  | step hm ht ih => exact ih (hm.keeps_closed hx hc)

/-- A closed listener refuses what is asked of it. -/
theorem Listener.react_closed {op : Operation} {g : Trigger} (hop : op.asks? = some (l, g))
    (hc : x.phase = .closed) (host : Host) :
    x.react host g = (.failed .alreadyClosed, x, host) := by
  cases op with
  | bind k path =>
    obtain ⟨-, rfl⟩ : k = l ∧ Trigger.bind path = g := by simpa [Operation.asks?] using hop
    simp [react, beginBind, checkBind, hc]
  | bindSlowly k path =>
    obtain ⟨-, rfl⟩ : k = l ∧ Trigger.bindSlowly path = g := by simpa [Operation.asks?] using hop
    simp [react, beginBindSlowly, checkBind, hc]
  | accept k =>
    obtain ⟨-, rfl⟩ : k = l ∧ Trigger.accept = g := by simpa [Operation.asks?] using hop
    simp [react, beginAccept, hc]
  | close k =>
    obtain ⟨-, rfl⟩ : k = l ∧ Trigger.close false = g := by simpa [Operation.asks?] using hop
    simp [react, beginClose, hc]
  | _ => simp [Operation.asks?] at hop

/-- With its listener closed, an operation ends before anything is done. -/
theorem State.step_closed {op : Operation} (hop : lockOf op = some l)
    (hx : s.listener? l = some x) (hc : x.phase = .closed) :
    s.step (.start op) = if s.isLocked l then s else
      (s.note (.began op)).finish (.failed .alreadyClosed) := by
  obtain ⟨-, hget⟩ := listener?_eq_some hx
  obtain ⟨g, hg⟩ := Operation.asks_of_lockOf hop
  cases hl : s.isLocked l with
  | true => simp [step, perform, hop, hl]
  | false =>
    have hsame := advanceWith_same (s := s.note (.began op)) hget (.failed .alreadyClosed) s.host
    rw [step_asks hg hx hl, Listener.react_closed hg hc, hsame, if_neg (by simp)]
    -- an end that finds its listener closed lets nothing go
    exact closeUnheld_closed (s := (s.note (.began op)).finish (.failed .alreadyClosed)) hget hc

/-- A close closes its listener when it begins. -/
theorem State.closes_start (hx : s.listener? l = some x) (hl : s.isLocked l = false) :
    ∃ y, (s.step (.start (.close l))).listeners[l]? = some y ∧ y.phase = .closed := by
  obtain ⟨-, hget⟩ := listener?_eq_some hx
  have hclosed := x.phase_beginClose s.host false
  have htake := get_take (s := s.note (.began (.close l))) (p := x.beginClose s.host false) hget
  refine ⟨_, ?_, hclosed⟩
  rw [step_asks (g := .close false) rfl hx hl]
  rcases advanceWith_cases (s.note (.began (.close l))) l (x.beginClose s.host false) with
    heq | heq
  · exact (congrArg (·.listeners[l]?) heq).trans htake
  · rw [← closeUnheld_closed htake hclosed] at htake
    exact (congrArg (·.listeners[l]?) heq).trans htake

/-- The task belongs to the end of its listener. -/
def Task.ends : Task → Bool
  | shuttingDown .. | closing .. | givingUp .. | sweeping .. => true
  | _ => false

/-- The step on the event is one of an accept of listener `l`: it begins, or it goes on. -/
def State.Serves (s : State) (l : Nat) (e : Event) : Prop :=
  e = .start (.accept l) ∨ ∃ t rest r, s.tasks = .working l t :: rest ∧ e = .reply r ∧
    ((∃ fd, t = .accepting fd) ∨ ∃ client, t = .refusing client)

/-- What is closed is closed for good, and an error of misuse tells the truth. -/
structure ClosedForGood (s : State) : Prop where
  /-- A close leaves its listener closed from its beginning on. -/
  closes : ∀ l x, s.listener? l = some x → s.isLocked l = false →
    ∃ y, (s.step (.start (.close l))).listeners[l]? = some y ∧ y.phase = .closed
  /-- While a listener is closed, or given up after its native bind, it is closed. -/
  ending : ∀ l t, .working l t ∈ s.tasks → t.ends = true →
    ∃ x, s.listeners[l]? = some x ∧ x.phase = .closed
  /-- Nothing changes a closed listener any more. -/
  stays : ∀ (l : Nat) (x : Listener), s.listeners[l]? = some x → x.phase = .closed →
    ∀ es, OpensValid es → (s.run es).listeners[l]? = some x
  /-- A closed listener is not bound, accepts nothing and is not closed again. The operation waits
  for an end of the listener that is still under way; then it fails, and that is all it does. -/
  refuses : ∀ op l x, State.lockOf op = some l → s.listener? l = some x → x.phase = .closed →
    s.step (.start op) = if s.isLocked l then s else
      (s.note (.began op)).finish (.failed .alreadyClosed)
  truthful : ∀ e err, .finished (.failed err) ∈ s.news e → err.isMisuse = true → s.Blames e err
  /-- An accept of a bound listener never fails as if the listener had stopped. -/
  serving : ∀ (l : Nat) (x : Listener), s.listeners[l]? = some x → x.phase = .bound →
    ∀ e err, s.Serves l e → .finished (.failed err) ∈ s.news e → err.isMisuse = false

theorem State.Blames.not_serving {e : Event} {err : ListenerError} (h : s.Blames e err)
    (hx : s.listeners[l]? = some x) (ha : s.Serves l e) : x.phase ≠ .bound := by
  have hsame : ∀ {k : Nat} {y : Listener}, k = l → s.listeners[k]? = some y → y = x := by
    rintro k y rfl hy
    exact Option.some.inj (hy.symm.trans hx)
  rcases ha with rfl | ⟨t, rest, r, ht, rfl, hor⟩
  · cases h with
    | closed op k y hop hy hc =>
      rw [← hsame (Option.some.inj hop).symm hy, hc]
      simp
    | notBound k y hy hu =>
      rw [← hsame rfl hy, hu]
      simp
    | alreadyBound op k y path hop => simp [Operation.bindsTo?] at hop
  · cases h with
    | refused k y client rest' r ht' hy hc =>
      obtain ⟨heq, -⟩ := List.cons.inj (ht'.symm.trans ht)
      rw [← hsame (Frame.working.inj heq).1 hy, hc]
      simp

theorem Orderly.closedForGood (ho : Orderly s) (hc : s.Candid) : ClosedForGood s := by
  have htruthful : ∀ e err, .finished (.failed err) ∈ s.news e → err.isMisuse = true →
      s.Blames e err := fun e err herr =>
    ((s.turn_step e).blames ho hc).of_mem_news herr
  refine { closes := ?closes, ending := ?ending, stays := ?stays, refuses := ?refuses,
           truthful := htruthful, serving := ?serving }
  case closes =>
    exact fun l x hx hlock => State.closes_start hx hlock
  case ending =>
    -- a task that ends a listener is suited to no other phase
    intro l t ht hends
    obtain ⟨x, hx, hsuits⟩ := ho.placed _ ht
    refine ⟨x, hx, ?_⟩
    cases t with
    | shuttingDown fd quiet => exact hsuits.1
    | closing fd quiet => exact hsuits
    | givingUp fd path created cause => exact hsuits
    | sweeping path f quiet result => exact hsuits
    | _ => simp [Task.ends] at hends
  case stays =>
    intro l x hx hclosed es hv
    exact (State.moves_run ho hv).keeps_closed hx hclosed
  case refuses =>
    intro op l x hop hx hclosed
    exact State.step_closed hop hx hclosed
  case serving =>
    intro l x hx hb e err ha herr
    cases hmis : err.isMisuse with
    | false => rfl
    | true => exact absurd hb ((htruthful e err herr hmis).not_serving hx ha)

end Closed

/-- In every run that opens only valid descriptors, a closed listener is closed for good, and an
error of misuse tells the truth. -/
theorem closedForGood_run (host : Host) (es : List Event) (hv : OpensValid es) :
    ClosedForGood ((State.start host).run es) :=
  ((Orderly.start host).run hv).closedForGood
    (State.Candid.run (s := State.start host) (by simp [State.Candid, State.start]) es)

end LocalIpc.Unix

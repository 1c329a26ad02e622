import LocalIpc.Proofs.Host.Files
import LocalIpc.Unix.SocketFile
/-!
# The queue of a listening socket

Whoever connects to a listening socket joins the end of its queue, and an accept takes the head.
Nothing else moves the queue as long as the socket listens. A connect that was hung up at once stays
in the queue, and whoever accepts it finds the end of its stream.
-/

namespace LocalIpc

/-! ## Deals -/

/-- What a step does to the sockets of a host. -/
inductive Host.Deal
  | idle
  | socket
  | bind (fd : Fd) (path : Path)
  | listen (fd : Fd)
  | accept (fd : Fd)
  | shutdown (fd : Fd)
  | close (fd : Fd)
  | connect (path : Path)
  /-- A connect that is hung up at once. -/
  | probe (path : Path)
  | read (fd : Fd) (n : Nat)
  | write (fd : Fd) (data : Bytes)

namespace Host

def deal (h : Host) : Deal → Host
  | .idle => h
  | .socket => h.socket.2
  | .bind fd path => (h.bind fd path false).2
  | .listen fd => (h.listen fd).2
  | .accept fd => (h.accept fd).elim h (·.2)
  | .shutdown fd => (h.shutdown fd).2
  | .close fd => (h.close fd).2
  | .connect path => (h.connect path).2
  | .probe path => (Unix.probe h path).2
  | .read fd n => (h.read fd n).2
  | .write fd data => (h.write fd data).2

/-- The streams that wait to be accepted at a listening socket. -/
def queue (h : Host) (fd : Fd) : List Nat :=
  match h.descriptor? fd with
  | some (.listening _ waiting) => waiting
  | _ => []

/-- A connect to the path comes to this listening socket. -/
def reaches (h : Host) (fd : Fd) (path : Path) : Bool :=
  match h.listenerAt path with
  | .ok (k, _, _) => k == fd
  | .error _ => false

/-- The stream that joins the queue. -/
def joins? (h : Host) (fd : Fd) : Deal → Option Nat
  | .connect path | .probe path => if h.reaches fd path then some h.streams.length else none
  | _ => none

/-- The stream that is taken from the queue. -/
def admits? (h : Host) (fd : Fd) : Deal → Option Nat
  | .accept k => if k = fd then (h.queue fd).head? else none
  | _ => none

/-- The descriptor that a deal opens. -/
def opens? (h : Host) : Deal → Option Fd
  | .socket => some h.nextFd
  | .accept k => (h.queue k).head?.map fun _ => h.nextFd
  | .connect path | .probe path => (h.listenerAt path).toOption.map fun _ => h.nextFd
  | _ => none

/-- The descriptor that a deal closes. What a probe opens it closes as well. -/
def closes? (h : Host) : Deal → Option Fd
  | .close k => some k
  | .probe path => (h.listenerAt path).toOption.map fun _ => h.nextFd
  | _ => none

/-! ## Descriptors after a deal -/

section Descriptors

variable {h : Host} {fd k : Fd} {d : Descriptor}

theorem lookup_filter_ne {α β : Type} [DecidableEq α] (a k : α) (l : List (α × β)) :
    (l.filter fun x => x.1 ≠ k).lookup a = if a = k then none else l.lookup a := by
  induction l with
  | nil => simp
  | cons x l ih =>
    obtain ⟨b, d⟩ := x
    by_cases hbk : b = k
    · subst hbk
      by_cases hab : a = b
      · simpa [hab] using ih
      · simpa [List.lookup_cons, beq_eq_false_iff_ne.mpr hab, hab] using ih
    · by_cases hab : a = b
      · simp [hab, hbk]
      · simpa [hbk, List.lookup_cons, beq_eq_false_iff_ne.mpr hab] using ih

theorem mem_of_descriptor? (hd : h.descriptor? fd = some d) : (fd, d) ∈ h.descriptors := by
  obtain ⟨front, back, heq, -⟩ := List.lookup_eq_some_iff.mp hd
  simp [heq]

theorem descriptor?_setDescriptor_ne (hne : fd ≠ k) (d : Descriptor) :
    (h.setDescriptor k d).descriptor? fd = h.descriptor? fd := by
  unfold descriptor? setDescriptor
  simp only [List.lookup_cons, beq_eq_false_iff_ne.mpr hne, lookup_filter_ne, if_neg hne]

theorem descriptor?_openFd (h : Host) (d : Descriptor) (fd : Fd) :
    (h.openFd d).2.descriptor? fd = if fd = h.nextFd then some d else h.descriptor? fd := by
  unfold descriptor? openFd
  by_cases hfd : fd = h.nextFd
  · simp [hfd]
  · simp [List.lookup_cons, beq_eq_false_iff_ne.mpr hfd, hfd]

theorem descriptors_refuse (h : Host) (waiting : List Nat) :
    (h.refuse waiting).descriptors = h.descriptors := by
  unfold refuse
  induction waiting generalizing h with
  | nil => rfl
  | cons i waiting ih => exact ih (h.onStream i Stream.refuse)

theorem descriptors_onEnd {α : Type} (h : Host) (fd : Fd)
    (use : Side → Stream → Except IoError α × Stream) :
    (h.onEnd fd use).2.descriptors = h.descriptors := by
  unfold onEnd
  split
  · split <;> rfl
  · rfl
  · rfl

theorem descriptor?_close (h : Host) (k fd : Fd) :
    (h.close k).2.descriptor? fd = if fd = k then none else h.descriptor? fd := by
  have hfilter : ∀ host : Host, host.descriptors = h.descriptors →
      { host with descriptors := host.descriptors.filter fun x => x.1 ≠ k }.descriptor? fd =
        if fd = k then none else h.descriptor? fd := by
    intro host hsame
    unfold descriptor?
    rw [lookup_filter_ne, hsame]
  unfold close
  split
  · exact hfilter _ rfl
  · exact hfilter _ (descriptors_refuse h _)
  · exact hfilter h rfl
  · rename_i hnone
    split
    · rename_i heq
      rw [heq, hnone]
    · rfl

end Descriptors

/-! ## The order of the queue -/

section Order

variable {h : Host} {fd k : Fd} {file : FileId} {waiting : List Nat} {path : Path}

/-- A descriptor stands for one thing. -/
def Sole (h : Host) (fd : Fd) : Prop := ∀ d, (fd, d) ∈ h.descriptors → h.descriptor? fd = some d

/-- The descriptor is a socket that listens. -/
def IsListening (h : Host) (fd : Fd) : Prop :=
  ∃ file waiting, h.descriptor? fd = some (.listening file waiting)

theorem queue_of_listening (hd : h.descriptor? fd = some (.listening file waiting)) :
    h.queue fd = waiting := by
  rw [queue, hd]

theorem listenerAt_mem (hat : h.listenerAt path = .ok (k, file, waiting)) :
    (k, .listening file waiting) ∈ h.descriptors := by
  simp only [listenerAt, Bind.bind, Except.bind] at hat
  split at hat
  · simp at hat
  split at hat
  · simp at hat
  split at hat
  · simp at hat
  split at hat
  · rename_i howner
    simp only [Except.ok.injEq, Prod.mk.injEq] at hat
    obtain ⟨rfl, rfl, rfl⟩ := hat
    exact List.mem_of_find?_eq_some howner
  · simp at hat
  · simp at hat

/-- Where somebody waits, an accept takes the first. -/
theorem accept_cases (h : Host) (k : Fd) :
    (∃ file i rest, h.descriptor? k = some (.listening file (i :: rest)) ∧
      h.accept k = some (.ok h.nextFd,
        ((h.setDescriptor k (.listening file rest)).openFd (.stream i .far)).2)) ∨
    h.queue k = [] ∧ (h.accept k).elim h (·.2) = h ∧ ∀ c h', h.accept k ≠ some (.ok c, h') := by
  unfold accept
  split
  · rename_i file i rest hd
    exact .inl ⟨file, i, rest, hd, rfl⟩
  · rename_i file hd
    exact .inr ⟨queue_of_listening hd, rfl, by simp⟩
  · rename_i d hcons hnil hd
    refine .inr ⟨?_, rfl, by simp⟩
    rw [queue, hd]
    cases d with
    | listening file waiting =>
      cases waiting with
      | nil => exact absurd rfl (hnil file)
      | cons i rest => exact absurd rfl (hcons file i rest)
    | _ => rfl
  · rename_i hd
    exact .inr ⟨by rw [queue, hd], rfl, by simp⟩

theorem admits?_eq_some {x : Deal} {n : Nat} (hx : h.admits? fd x = some n) :
    x = .accept fd ∧ (h.queue fd).head? = some n := by
  unfold admits? at hx
  split at hx
  · split at hx
    · rename_i k heq
      exact ⟨heq ▸ rfl, hx⟩
    · simp at hx
  · simp at hx

theorem joins?_eq_some {x : Deal} {n : Nat} (hx : h.joins? fd x = some n) :
    n = h.streams.length ∧ ∃ p, (x = .connect p ∨ x = .probe p) ∧ h.reaches fd p = true := by
  unfold joins? at hx
  split at hx
  · split at hx
    · exact ⟨(Option.some.inj hx).symm, _, .inl rfl, ‹_›⟩
    · simp at hx
  · split at hx
    · exact ⟨(Option.some.inj hx).symm, _, .inr rfl, ‹_›⟩
    · simp at hx
  · simp at hx

/-- An accept takes the head of the queue. -/
theorem accept_of_head {n : Nat} (hn : (h.queue fd).head? = some n) :
    h.accept fd = some (.ok h.nextFd, h.deal (.accept fd)) ∧
      (h.deal (.accept fd)).descriptor? h.nextFd = some (.stream n .far) := by
  rcases h.accept_cases fd with ⟨file, i, rest, hd, haccept⟩ | ⟨hempty, -⟩
  · rw [queue_of_listening hd, List.head?_cons] at hn
    obtain rfl := Option.some.inj hn
    simp only [deal, haccept, Option.elim_some, true_and]
    exact (descriptor?_openFd ..).trans (if_pos rfl)
  · simp [hempty] at hn

/-- The host after a connect has joined the queue of a socket. -/
def joined (h : Host) (k : Fd) (file : FileId) (waiting : List Nat) : Host :=
  ({ h with streams := h.streams ++ [Stream.fresh] }.setDescriptor k
    (.listening file (waiting ++ [h.streams.length]))).openFd (.stream h.streams.length .near) |>.2

theorem connect_cases (h : Host) (path : Path) :
    (∃ k file waiting, h.listenerAt path = .ok (k, file, waiting) ∧
      h.connect path = (.ok h.nextFd, h.joined k file waiting)) ∨
    ∃ e, h.listenerAt path = .error e ∧ h.connect path = (.error e, h) := by
  unfold connect
  split
  · rename_i e hat
    exact .inr ⟨e, hat, rfl⟩
  · rename_i k file waiting hat
    exact .inl ⟨k, file, waiting, hat, rfl⟩

theorem probe_cases (h : Host) (path : Path) :
    (∃ k file waiting, h.listenerAt path = .ok (k, file, waiting) ∧
      Unix.probe h path = (.ok (), ((h.joined k file waiting).close h.nextFd).2)) ∨
    ∃ e, h.listenerAt path = .error e ∧ Unix.probe h path = (.error e, h) := by
  unfold Unix.probe
  rcases h.connect_cases path with ⟨k, file, waiting, hat, hc⟩ | ⟨e, hat, hc⟩
  · exact .inl ⟨k, file, waiting, hat, by rw [hc]⟩
  · exact .inr ⟨e, hat, by rw [hc]⟩

/-! ### What a deal comes to -/

/-- What a socket turns into while its descriptor stays open. -/
inductive Turns : Descriptor → Descriptor → Prop
  | bound (file : FileId) : Turns .unbound (.bound file false)
  | listening (file : FileId) : Turns (.bound file false) (.listening file [])
  | shutdown (file : FileId) (waiting : List Nat) :
      Turns (.listening file waiting) (.bound file false)

/-- A deal that opens nothing, and that nobody joins a queue or leaves it by. -/
structure Quiet (h : Host) (x : Deal) : Prop where
  opens : h.opens? x = none
  joins : ∀ fd, h.joins? fd x = none
  admits : ∀ fd, h.admits? fd x = none

/-- The host after the first who waits at a socket has been accepted. -/
def admitted (h : Host) (k : Fd) (file : FileId) (i : Nat) (rest : List Nat) : Host :=
  ((h.setDescriptor k (.listening file rest)).openFd (.stream i .far)).2

/-- What a deal makes of the descriptors. -/
inductive Outcome (h : Host) : Deal → Host → Prop
  | kept {x : Deal} {h' : Host} (quiet : h.Quiet x) (same : h'.descriptors = h.descriptors) :
      Outcome h x h'
  | turned {x : Deal} {h' : Host} (k : Fd) {d d' : Descriptor} (quiet : h.Quiet x)
      (before : h.descriptor? k = some d) (turns : Turns d d')
      (after : h'.descriptors = (h.setDescriptor k d').descriptors) : Outcome h x h'
  | opened {h' : Host} (after : h' = (h.openFd .unbound).2) : Outcome h .socket h'
  | admitted {h' : Host} (k : Fd) {file : FileId} {i : Nat} {rest : List Nat}
      (before : h.descriptor? k = some (.listening file (i :: rest)))
      (after : h' = h.admitted k file i rest) : Outcome h (.accept k) h'
  | joined {h' : Host} (path : Path) (k : Fd) {file : FileId} {waiting : List Nat}
      (reached : h.listenerAt path = .ok (k, file, waiting))
      (after : h' = h.joined k file waiting) : Outcome h (.connect path) h'
  | probed {h' : Host} (path : Path) (k : Fd) {file : FileId} {waiting : List Nat}
      (reached : h.listenerAt path = .ok (k, file, waiting))
      (after : h' = ((h.joined k file waiting).close h.nextFd).2) : Outcome h (.probe path) h'
  | closed {h' : Host} (k : Fd) (after : h' = (h.close k).2) : Outcome h (.close k) h'

theorem quiet_accept (hempty : h.queue k = []) : h.Quiet (.accept k) where
  opens := by simp [opens?, hempty]
  joins _ := rfl
  admits fd := by
    by_cases hk : k = fd
    · simp [admits?, ← hk, hempty]
    · simp [admits?, hk]

theorem quiet_of_unreached {e : IoError} {x : Deal} (hx : x = .connect path ∨ x = .probe path)
    (hat : h.listenerAt path = .error e) : h.Quiet x := by
  rcases hx with rfl | rfl <;>
    exact ⟨by simp [opens?, hat, Except.toOption], fun fd => by simp [joins?, reaches, hat],
      fun fd => rfl⟩

/-- Every deal comes to one of the outcomes. What is said of descriptors below is said of these. -/
theorem outcome_deal (h : Host) (x : Deal) : h.Outcome x (h.deal x) := by
  cases x with
  | idle => exact .kept ⟨rfl, fun _ => rfl, fun _ => rfl⟩ rfl
  | socket => exact .opened rfl
  | bind k path =>
    have hquiet : h.Quiet (.bind k path) := ⟨rfl, fun _ => rfl, fun _ => rfl⟩
    simp only [deal, bind]
    split
    · -- the path may be taken, or there may be no directory for it
      split
      · exact .kept hquiet rfl
      · exact .turned k hquiet ‹_› (.bound _) rfl
    · exact .kept hquiet rfl
    · exact .kept hquiet rfl
  | listen k =>
    have hquiet : h.Quiet (.listen k) := ⟨rfl, fun _ => rfl, fun _ => rfl⟩
    simp only [deal, listen]
    split
    · exact .turned k hquiet ‹_› (.listening _) rfl
    · exact .kept hquiet rfl
    · exact .kept hquiet rfl
    · exact .kept hquiet rfl
  | accept k =>
    simp only [deal]
    rcases h.accept_cases k with ⟨file, i, rest, hk, haccept⟩ | ⟨hempty, hsame, -⟩
    · exact .admitted k hk (by rw [haccept, Option.elim_some, admitted])
    · exact .kept (quiet_accept hempty) (by rw [hsame])
  | shutdown k =>
    have hquiet : h.Quiet (.shutdown k) := ⟨rfl, fun _ => rfl, fun _ => rfl⟩
    simp only [deal, shutdown]
    split
    · refine .turned k hquiet ‹_› (.shutdown ..) ?_
      simp only [setDescriptor, descriptors_refuse]
    · exact .kept hquiet rfl
    · exact .kept hquiet rfl
  | close k => exact .closed k rfl
  | connect path =>
    simp only [deal]
    rcases h.connect_cases path with ⟨k, file, waiting, hat, hc⟩ | ⟨e, hat, hc⟩
    · exact .joined path k hat (by rw [hc])
    · exact .kept (quiet_of_unreached (.inl rfl) hat) (by rw [hc])
  | probe path =>
    simp only [deal]
    rcases h.probe_cases path with ⟨k, file, waiting, hat, hc⟩ | ⟨e, hat, hc⟩
    · exact .probed path k hat (by rw [hc])
    · exact .kept (quiet_of_unreached (.inr rfl) hat) (by rw [hc])
  | read k n => exact .kept ⟨rfl, fun _ => rfl, fun _ => rfl⟩ (descriptors_onEnd h k _)
  | write k data => exact .kept ⟨rfl, fun _ => rfl, fun _ => rfl⟩ (descriptors_onEnd h k _)

/-! ### The queue after a deal -/

theorem descriptor?_congr {h' : Host} (hd : h'.descriptors = h.descriptors) (fd : Fd) :
    h'.descriptor? fd = h.descriptor? fd := by
  rw [descriptor?, hd, descriptor?]

theorem descriptor?_set (h : Host) (k : Fd) (d : Descriptor) (fd : Fd) :
    (h.setDescriptor k d).descriptor? fd = if fd = k then some d else h.descriptor? fd := by
  by_cases hfd : fd = k
  · rw [if_pos hfd, hfd, descriptor?_setDescriptor]
  · rw [if_neg hfd, descriptor?_setDescriptor_ne hfd]

theorem descriptor?_admitted {i : Nat} {rest : List Nat} :
    (h.admitted k file i rest).descriptor? fd =
      if fd = h.nextFd then some (.stream i .far)
      else if fd = k then some (.listening file rest) else h.descriptor? fd :=
  (descriptor?_openFd ..).trans (ite_congr rfl (fun _ => rfl) fun _ => descriptor?_set ..)

theorem descriptor?_joined : (h.joined k file waiting).descriptor? fd =
    if fd = h.nextFd then some (.stream h.streams.length .near)
    else if fd = k then some (.listening file (waiting ++ [h.streams.length]))
    else h.descriptor? fd :=
  (descriptor?_openFd ..).trans (ite_congr rfl (fun _ => rfl) fun _ => descriptor?_set ..)

/-- Whoever connects joins the end of the queue that is reached. -/
theorem listening_joined {file' : FileId} {waiting' : List Nat} (hs : h.Sole fd)
    (hat : h.listenerAt path = .ok (k, file, waiting))
    (hd : (h.joined k file waiting).descriptor? fd = some (.listening file' waiting')) :
    ∃ before, h.descriptor? fd = some (.listening file' before) ∧ waiting' =
      before ++ (if h.reaches fd path then some h.streams.length else none).toList := by
  rw [descriptor?_joined] at hd
  split at hd
  · simp at hd
  split at hd
  · rename_i hk
    subst hk
    obtain ⟨rfl, rfl⟩ := Descriptor.listening.inj (Option.some.inj hd)
    exact ⟨waiting, hs _ (listenerAt_mem hat), by simp [reaches, hat]⟩
  · rename_i hk
    exact ⟨waiting', hd, by simp [reaches, hat, Ne.symm hk]⟩

/-- What listens after a deal did so before, and its queue has lost at the head who is admitted and
gained at the end who joins. Or it begins to listen, and nobody waits. -/
theorem listening_deal (hs : h.Sole fd) (x : Deal)
    (hd : (h.deal x).descriptor? fd = some (.listening file waiting)) :
    (∃ before, h.descriptor? fd = some (.listening file before) ∧
      (h.admits? fd x).toList ++ waiting = before ++ (h.joins? fd x).toList) ∨
    ¬ h.IsListening fd ∧ waiting = [] := by
  have houtcome := h.outcome_deal x
  generalize h.deal x = h' at houtcome hd
  cases houtcome with
  | kept quiet same =>
    rw [descriptor?_congr same] at hd
    exact .inl ⟨waiting, hd, by simp [quiet.admits, quiet.joins]⟩
  | turned k quiet before turns after =>
    rw [descriptor?_congr after, descriptor?_set] at hd
    split at hd
    · rename_i hk
      subst hk
      obtain rfl := Option.some.inj hd
      -- of the three turns only that of a bound socket comes to listening
      cases turns
      exact .inr ⟨fun ⟨_, _, hl⟩ => by simp [before] at hl, rfl⟩
    · exact .inl ⟨waiting, hd, by simp [quiet.admits, quiet.joins]⟩
  | opened after =>
    subst after
    rw [descriptor?_openFd] at hd
    split at hd
    · simp at hd
    · exact .inl ⟨waiting, hd, by simp [admits?, joins?]⟩
  | admitted k before after =>
    subst after
    rw [descriptor?_admitted] at hd
    split at hd
    · simp at hd
    split at hd
    · rename_i hk
      subst hk
      obtain ⟨rfl, rfl⟩ := Descriptor.listening.inj (Option.some.inj hd)
      exact .inl ⟨_, before, by simp [admits?, joins?, queue_of_listening before]⟩
    · rename_i hk
      exact .inl ⟨waiting, hd, by simp [admits?, joins?, Ne.symm hk]⟩
  | joined path k reached after =>
    subst after
    obtain ⟨before, hbefore, rfl⟩ := listening_joined hs reached hd
    exact .inl ⟨before, hbefore, rfl⟩
  | probed path k reached after =>
    subst after
    rw [descriptor?_close] at hd
    split at hd
    · simp at hd
    · obtain ⟨before, hbefore, rfl⟩ := listening_joined hs reached hd
      exact .inl ⟨before, hbefore, rfl⟩
  | closed k after =>
    subst after
    rw [descriptor?_close] at hd
    split at hd
    · simp at hd
    · exact .inl ⟨waiting, hd, by simp [admits?, joins?]⟩

/-- While the socket listens, its queue loses at the head who is admitted and gains at the end who
joins. -/
theorem queue_deal (hs : h.Sole fd) (hl : h.IsListening fd) (x : Deal)
    (hl' : (h.deal x).IsListening fd) :
    (h.admits? fd x).toList ++ (h.deal x).queue fd = h.queue fd ++ (h.joins? fd x).toList := by
  obtain ⟨file, waiting, hd⟩ := hl'
  rcases listening_deal hs x hd with ⟨before, hbefore, hqueue⟩ | ⟨hbegan, -⟩
  · rwa [queue_of_listening hd, queue_of_listening hbefore]
  · exact absurd hl hbegan

/-! ### An empty queue -/

theorem queue_of_silent (hl : ¬ h.IsListening fd) : h.queue fd = [] := by
  unfold queue
  split
  · rename_i file waiting hd
    exact absurd ⟨file, waiting, hd⟩ hl
  · rfl

/-- A socket that begins to listen has nobody in its queue. -/
theorem queue_of_began (hs : h.Sole fd) (hl : ¬ h.IsListening fd) (x : Deal)
    (hl' : (h.deal x).IsListening fd) : (h.deal x).queue fd = [] := by
  obtain ⟨file, waiting, hd⟩ := hl'
  rcases listening_deal hs x hd with ⟨before, hbefore, -⟩ | ⟨-, hempty⟩
  · exact absurd ⟨file, before, hbefore⟩ hl
  · rw [queue_of_listening hd, hempty]

/-- A queue stays empty while nobody joins it. -/
theorem queue_deal_nil (hs : h.Sole fd) (x : Deal) (hq : h.queue fd = [])
    (hjoins : h.joins? fd x = none) : (h.deal x).queue fd = [] := by
  by_cases hl' : (h.deal x).IsListening fd
  · by_cases hl : h.IsListening fd
    · have hqueue := queue_deal hs hl x hl'
      rw [hq, hjoins] at hqueue
      exact (List.append_eq_nil_iff.mp hqueue).2
    · exact queue_of_began hs hl x hl'
  · exact queue_of_silent hl'

/-! ### A descriptor that stands for one thing -/

theorem sole_congr {h' : Host} (hs : h.Sole fd) (hd : h'.descriptors = h.descriptors) :
    h'.Sole fd := by
  unfold Sole descriptor? at *
  rwa [hd]

theorem sole_setDescriptor (hs : h.Sole fd) (k : Fd) (d : Descriptor) :
    (h.setDescriptor k d).Sole fd := by
  intro d' hmem
  rcases List.mem_cons.mp hmem with heq | hmem
  · obtain ⟨rfl, rfl⟩ := Prod.mk.inj heq
    exact descriptor?_setDescriptor _ fd _
  · obtain ⟨hold, hne⟩ := List.mem_filter.mp hmem
    rw [descriptor?_setDescriptor_ne (by simpa using hne)]
    exact hs d' hold

theorem sole_openFd (hs : h.Sole fd) (hfresh : fd = h.nextFd → h.descriptor? fd = none)
    (d : Descriptor) : (h.openFd d).2.Sole fd := by
  intro d' hmem
  rw [descriptor?_openFd]
  rcases List.mem_cons.mp hmem with heq | hmem
  · obtain ⟨rfl, rfl⟩ := Prod.mk.inj heq
    exact if_pos rfl
  · have hold := hs d' hmem
    rwa [if_neg fun heq => by simp [hfresh heq] at hold]

/-- One descriptor is set that was open, and another is opened that was not. -/
theorem sole_handed (hs : h.Sole fd) {d : Descriptor} (hk : h.descriptor? fd = none → fd ≠ k)
    (hfresh : fd = h.nextFd → h.descriptor? fd = none) (d' : Descriptor) :
    ((h.setDescriptor k d).openFd d').2.Sole fd := by
  refine sole_openFd (sole_setDescriptor hs k d) (fun heq => ?_) d'
  have hnone := hfresh heq
  rwa [descriptor?_setDescriptor_ne (hk hnone)]

theorem mem_descriptors_close (h : Host) (k : Fd) (x : Fd × Descriptor) :
    x ∈ (h.close k).2.descriptors ↔ x ∈ h.descriptors ∧ x.1 ≠ k := by
  unfold close
  split
  · simp [onStream]
  · simp [descriptors_refuse]
  · simp
  · rename_i hnone
    have habsent : ∀ x ∈ h.descriptors, x.1 ≠ k := fun x hx heq =>
      bne_iff_ne.mp (List.lookup_eq_none_iff.mp hnone x hx) heq.symm
    exact (and_iff_left_of_imp (habsent x)).symm

theorem sole_close (hs : h.Sole fd) (k : Fd) : (h.close k).2.Sole fd := by
  intro d hmem
  obtain ⟨hold, hne⟩ := (mem_descriptors_close h k _).mp hmem
  rw [descriptor?_close, if_neg hne]
  exact hs d hold

theorem opens?_of_reached {x : Deal} (hx : x = .connect path ∨ x = .probe path)
    (hat : h.listenerAt path = .ok (k, file, waiting)) : h.opens? x = some h.nextFd := by
  rcases hx with rfl | rfl <;> simp [opens?, hat, Except.toOption]

theorem opens?_accept {i : Nat} {rest : List Nat}
    (hk : h.descriptor? k = some (.listening file (i :: rest))) :
    h.opens? (.accept k) = some h.nextFd := by
  simp [opens?, queue_of_listening hk]

theorem sole_joined (hs : h.Sole fd) (hat : h.listenerAt path = .ok (k, file, waiting))
    (hfresh : fd = h.nextFd → h.descriptor? fd = none) :
    (h.joined k file waiting).Sole fd := by
  refine sole_handed (sole_congr hs rfl) (fun hnone => ?_) hfresh _
  rintro rfl
  exact absurd ((hs _ (listenerAt_mem hat)).symm.trans hnone) (by simp)

/-- A descriptor stands for one thing as long as it is not opened while it is open. -/
theorem sole_deal (hs : h.Sole fd) (x : Deal)
    (hfresh : h.opens? x = some fd → h.descriptor? fd = none) : (h.deal x).Sole fd := by
  have houtcome := h.outcome_deal x
  generalize h.deal x = h' at houtcome ⊢
  cases houtcome with
  | kept quiet same => exact sole_congr hs same
  | turned k quiet before turns after => exact sole_congr (sole_setDescriptor hs k _) after
  | opened after =>
    subst after
    exact sole_openFd hs (fun heq => hfresh (congrArg some heq.symm)) _
  | admitted k before after =>
    subst after
    refine sole_handed hs (fun hnone => ?_) (fun heq => hfresh (heq ▸ opens?_accept before)) _
    rintro rfl
    exact absurd (before.symm.trans hnone) (by simp)
  | joined path k reached after =>
    subst after
    exact sole_joined hs reached fun heq => hfresh (heq ▸ opens?_of_reached (.inl rfl) reached)
  | probed path k reached after =>
    subst after
    have hjoined := sole_joined hs reached fun heq =>
      hfresh (heq ▸ opens?_of_reached (.inr rfl) reached)
    exact sole_close hjoined h.nextFd
  | closed k after =>
    subst after
    exact sole_close hs k

end Order

/-! ## Descriptors that stay open -/

/-- The descriptor stays open, and if it is an end of a stream, it stays that. -/
structure Stays (h h' : Host) (fd : Fd) : Prop where
  opened : h.descriptor? fd ≠ none → h'.descriptor? fd ≠ none
  stream : ∀ n side, h.descriptor? fd = some (.stream n side) →
    h'.descriptor? fd = some (.stream n side)

section Stays

variable {h h' : Host} {fd k : Fd} {d d' : Descriptor} {path : Path} {file : FileId}
  {waiting : List Nat}

theorem stays_of_eq (hd : h'.descriptor? fd = h.descriptor? fd) : h.Stays h' fd :=
  ⟨fun hne => hd ▸ hne, fun _ _ heq => hd.trans heq⟩

theorem Stays.trans {h'' : Host} (hs : h.Stays h' fd) (hs' : h'.Stays h'' fd) : h.Stays h'' fd :=
  ⟨fun hne => hs'.opened (hs.opened hne),
    fun n side heq => hs'.stream n side (hs.stream n side heq)⟩

/-- A socket becomes another socket. -/
theorem stays_setDescriptor (hk : h.descriptor? k = some d) (hd : ∀ n side, d ≠ .stream n side)
    (hafter : h'.descriptor? fd = if fd = k then some d' else h.descriptor? fd) :
    h.Stays h' fd := by
  split at hafter
  · rename_i hfd
    subst hfd
    refine ⟨fun _ => by simp [hafter], fun n side heq => ?_⟩
    exact absurd (Option.some.inj (hk.symm.trans heq)) (hd n side)
  · exact stays_of_eq hafter

theorem stays_close (hne : fd ≠ k) : h.Stays (h.close k).2 fd :=
  stays_of_eq ((descriptor?_close ..).trans (if_neg hne))

theorem stays_joined (hs : h.Sole k) (hat : h.listenerAt path = .ok (k, file, waiting))
    (hne : fd ≠ h.nextFd) : h.Stays (h.joined k file waiting) fd :=
  stays_setDescriptor (hs _ (listenerAt_mem hat)) (by simp) (descriptor?_joined.trans (if_neg hne))

/-- Every descriptor stays but those that the deal opens or closes. -/
theorem stays_deal (hs : ∀ k, h.Sole k) (x : Deal) (hopens : h.opens? x ≠ some fd)
    (hcloses : h.closes? x ≠ some fd) : h.Stays (h.deal x) fd := by
  have houtcome := h.outcome_deal x
  generalize h.deal x = h' at houtcome ⊢
  cases houtcome with
  | kept quiet same => exact stays_of_eq (descriptor?_congr same fd)
  | turned k quiet before turns after =>
    exact stays_setDescriptor before (by cases turns <;> simp)
      ((descriptor?_congr after fd).trans (descriptor?_set ..))
  | opened after =>
    subst after
    exact stays_of_eq ((descriptor?_openFd ..).trans
      (if_neg fun heq => hopens (congrArg some heq.symm)))
  | admitted k before after =>
    subst after
    refine stays_setDescriptor before (by simp) (descriptor?_admitted.trans (if_neg ?_))
    exact fun heq => hopens (heq ▸ opens?_accept before)
  | joined path k reached after =>
    subst after
    exact stays_joined (hs k) reached fun heq =>
      hopens (heq ▸ opens?_of_reached (.inl rfl) reached)
  | probed path k reached after =>
    subst after
    have hne : fd ≠ h.nextFd := fun heq => hopens (heq ▸ opens?_of_reached (.inr rfl) reached)
    exact (stays_joined (hs k) reached hne).trans (stays_close hne)
  | closed k after =>
    subst after
    exact stays_close fun heq => hcloses (congrArg some heq.symm)

/-- What a deal opens and does not close is open. -/
theorem descriptor?_of_opens {x : Deal} (hopens : h.opens? x = some fd)
    (hcloses : h.closes? x ≠ some fd) : (h.deal x).descriptor? fd ≠ none := by
  have houtcome := h.outcome_deal x
  generalize h.deal x = h' at houtcome ⊢
  cases houtcome with
  | kept quiet same => exact absurd (quiet.opens.symm.trans hopens) (by simp)
  | turned k quiet before turns after => exact absurd (quiet.opens.symm.trans hopens) (by simp)
  | opened after =>
    subst after
    obtain rfl := Option.some.inj hopens
    simp [descriptor?_openFd]
  | admitted k before after =>
    subst after
    obtain rfl := Option.some.inj ((opens?_accept before).symm.trans hopens)
    simp [descriptor?_admitted]
  | joined path k reached after =>
    subst after
    obtain rfl := Option.some.inj ((opens?_of_reached (.inl rfl) reached).symm.trans hopens)
    simp [descriptor?_joined]
  | probed path k reached after => exact absurd hopens hcloses
  | closed k after => simp [opens?] at hopens

end Stays

end Host

end LocalIpc

import LocalIpc.Proofs.Unix.Waiting
/-!
# A listener that was just bound

Making a listener and binding it is a run of its own. Nobody waits in the queue of a listener that
comes out of it, and no accept of it is under way.
-/

namespace LocalIpc.Unix

/-! ## Operations that are carried out -/

/-- The calls above `depth` other operations return, up to `n` times. -/
def State.answers (depth : Nat) : Nat → State → List Happening
  | 0, _ => []
  | n + 1, s =>
    if ((s.waiting? depth).bind (nativeReply s.host)).isSome then
      .answer :: State.answers depth n (s.happen .answer)
    else []

/-- What happens when an operation is carried out. -/
def State.carrying (s : State) (op : Operation) : List Happening :=
  .start op :: State.answers s.tasks.length State.callBound (s.happen (.start op))

/-- What happens when a listener is made. -/
def making (config : UnixConfig) : List Happening := [.start (.create config), .answer]

/-- What happens when a listener is made and bound. -/
def makingBound (s : State) (config : UnixConfig) (path : Path) : List Happening :=
  making config ++ (s.live (making config)).carrying (.bind s.listeners.length path)

section Carried

variable {s : State} {depth : Nat} {op : Operation}

theorem State.settle_live (depth n : Nat) (s : State) :
    s.settle depth n = s.live (State.answers depth n s) := by
  induction n generalizing s with
  | zero => rfl
  | succ n ih =>
    unfold State.settle State.answers
    rcases hr : (s.waiting? depth).bind (nativeReply s.host) with _ | ⟨r, host⟩
    · rfl
    obtain ⟨c, hwaits, hreply⟩ := Option.bind_eq_some_iff.mp hr
    have hanswer : s.answer? = some (r, host) := by
      unfold State.waiting? at hwaits
      split at hwaits
      · split at hwaits
        · rename_i ht hdepth
          simp [State.answer?, ht, hwaits, hreply]
        · simp at hwaits
      · simp at hwaits
    have hstep : s.happen .answer = { s with host }.reply r := by
      simp only [State.happen, hanswer]
      rfl
    simp only [Option.isSome_some, if_true, ih, ← hstep]
    rfl

theorem State.carryOut_live (s : State) (op : Operation) :
    s.carryOut op = s.live (s.carrying op) :=
  State.settle_live s.tasks.length State.callBound (s.perform op)

theorem State.answers_eq (depth n : Nat) (s : State) :
    ∃ i, State.answers depth n s = List.replicate i .answer := by
  induction n generalizing s with
  | zero => exact ⟨0, rfl⟩
  | succ n ih =>
    unfold State.answers
    split
    · obtain ⟨i, hi⟩ := ih (s.happen .answer)
      exact ⟨i + 1, by rw [hi]; rfl⟩
    · exact ⟨0, rfl⟩

theorem State.settle_of_length (h : s.tasks.length ≤ depth) (n : Nat) : s.settle depth n = s := by
  have hnone : s.waiting? depth = none := by
    unfold State.waiting?
    split
    · rename_i ht
      rw [if_neg]
      rw [ht, List.length_cons] at h
      omega
    · rfl
  cases n with
  | zero => rfl
  | succ n => simp [State.settle, hnone]

/-- What a listener comes from. -/
theorem State.carryOut_create (s : State) (config : UnixConfig) :
    s.carryOut (.create config) = s.live (making config) := by
  have hwaits : (s.perform (.create config)).waiting? s.tasks.length = some .socket := by
    simp [State.perform, State.lockOf, State.begin, State.push, State.note, State.waiting?,
      State.callOf]
  rw [State.carryOut, State.callBound, State.settle, hwaits]
  exact State.settle_of_length (s := s.live (making config)) (Nat.le_refl s.tasks.length) 3

end Carried

/-! ## Its queue -/

section Queues

variable {s : State} {l depth : Nat} {fd : Fd} {path : Path} {e : Happening}

/-- A socket that does not listen is reached by nobody. -/
theorem joins?_of_not_listening (h : s.host.Tidy) (hl : ¬ s.host.IsListening fd) (e : Happening) :
    s.joins? fd e = none := by
  rcases hjoins : s.joins? fd e with _ | ⟨n, who⟩
  · rfl
  obtain ⟨-, p, hreaches, -⟩ := joins_cases hjoins
  unfold Host.reaches at hreaches
  split at hreaches
  · rename_i k file waiting hat
    obtain rfl : k = fd := by simpa using hreaches
    exact absurd ⟨file, waiting, h.sole k _ (Host.listenerAt_mem hat)⟩ hl
  · simp at hreaches

theorem queue_happen_nil (h : s.Apart) (hq : s.host.queue fd = []) (hjoins : s.joins? fd e = none) :
    (s.happen e).host.queue fd = [] := by
  rw [(sameSockets_happen s e).queue]
  exact Host.queue_deal_nil (h.tidy.sole fd) _ hq (by simpa [State.joins?] using hjoins)

/-- Nobody joins a queue when a call returns. -/
theorem joins?_of_waiting {c : Call} (hw : s.waiting? depth = some c) :
    s.joins? fd .answer = none := by
  unfold State.waiting? at hw
  split at hw
  rotate_left
  · simp at hw
  rename_i f rest ht
  obtain ⟨-, hc⟩ : rest.length = depth ∧ s.callOf f = some c := by simpa using hw
  have hdeal : s.deal .answer = c.deal := by simp [State.deal, ht, dealOf_of_call hc]
  cases c <;> simp [State.joins?, hdeal, Call.deal, Host.joins?]

/-- While calls return, nobody joins a queue. -/
theorem queue_answers_nil (h : s.Apart) (hq : s.host.queue fd = []) {n : Nat}
    (hopens : s.OpensUnused (State.answers depth n s)) :
    (s.live (State.answers depth n s)).host.queue fd = [] := by
  induction n generalizing s with
  | zero => exact hq
  | succ n ih =>
    unfold State.answers at hopens ⊢
    split
    · rename_i hsome
      rw [if_pos hsome] at hopens
      obtain ⟨c, hc⟩ : ∃ c, s.waiting? depth = some c := by
        cases hw : s.waiting? depth with
        | none => simp [hw] at hsome
        | some c => exact ⟨c, rfl⟩
      exact ih (h.happen hopens.1) (queue_happen_nil h hq (joins?_of_waiting hc)) hopens.2
    · exact hq

/-- A listener that was made and bound: no accept of it is under way, and nobody waits in its
queue. -/
structure State.Newborn (s : State) (l : Nat) : Prop where
  idle : s.Idle l
  empty : ∀ fd p, s.Answers l fd p → s.host.queue fd = []

theorem bindNew_ok {config : UnixConfig} {s' : State}
    (hbind : bindNew s config path = (.ok l, s')) :
    s' = s.live (makingBound s config path) ∧
      (s.Apart → s.OpensUnused (makingBound s config path) → s'.Newborn l) := by
  have hcreated : (s.live (making config)).lastOutcome = .created s.listeners.length := by
    simp [State.live, making, State.happen, State.step, State.perform, State.lockOf, State.begin,
      State.push, State.note, State.answer?, State.callOf, nativeReply, State.reply,
      State.Frame.takes, State.resumeFrame, State.finish, State.lastOutcome, Host.socket,
      Host.openFd]
  simp only [bindNew, State.carryOut_create, hcreated] at hbind
  simp only [State.carryOut_live] at hbind
  obtain ⟨i, hi⟩ := State.answers_eq (s.live (making config)).tasks.length State.callBound
    ((s.live (making config)).happen (.start (.bind s.listeners.length path)))
  obtain ⟨rfl, rfl⟩ : s.listeners.length = l ∧ s.live (makingBound s config path) = s' := by
    rw [makingBound, live_append]
    split at hbind
    · simp at hbind
    · simpa using hbind
  refine ⟨rfl, fun ha hopens => ⟨?_, fun fd p hs => ?_⟩⟩
  · have hidle : s.Idle s.listeners.length := fun f hf => Nat.lt_irrefl _ (ha.aligned _ f hf).1
    refine hidle.live ?_
    rw [makingBound, State.carrying, hi]
    simp [making]
  · rw [makingBound, State.carrying] at hs hopens ⊢
    obtain ⟨hmaking, hbinding⟩ := State.opensUnused_append.mp hopens
    obtain ⟨y, hy, -, hslot⟩ := hs.listener
    rw [live_append] at hy ⊢
    have hmade := ha.live hmaking
    have hlisteners : (s.live (making config)).listeners =
        s.listeners ++ [Listener.fresh config s.host.nextFd] := rfl
    obtain ⟨x, hx, hfd⟩ := slot_live (by simp [hlisteners]) hy hslot
    -- the socket is the one that was made for it, which does not listen yet
    obtain rfl : s.host.nextFd = fd := by
      obtain rfl : Listener.fresh config s.host.nextFd = x := by simpa [hlisteners] using hx
      exact Option.some.inj (Option.ite_none_left_eq_some.mp hfd).2
    have hunbound : (s.live (making config)).host.descriptor? s.host.nextFd = some .unbound :=
      (Host.descriptor?_openFd ..).trans (if_pos rfl)
    have hsilent : ¬ (s.live (making config)).host.IsListening s.host.nextFd := by
      simp [Host.IsListening, hunbound]
    have hbegun := queue_happen_nil hmade (Host.queue_of_silent hsilent)
      (joins?_of_not_listening hmade.tidy hsilent (.start (.bind s.listeners.length path)))
    exact queue_answers_nil (hmade.happen hbinding.1) hbegun hbinding.2

end Queues

end LocalIpc.Unix

import LocalIpc.Proofs.History
import LocalIpc.Proofs.Unix.Step
/-!
# The descriptors of socket listeners

Every descriptor that the socket layer opens is closed once, by whoever owes it: its listener until
the listener is closed, then the shutdown that the close begins with, and for a client its
connection. A client that comes too late is closed in the same breath.
-/

namespace LocalIpc.Unix

/-! ## Who owes a descriptor -/

/-- Descriptors are opened by the replies to native socket and accept calls, and closed by close
calls. -/
def account : Account Entry Fd where
  opens
    | .replied (.opened (.ok fd)) => some fd
    | _ => none
  closes
    | .called (.close fd) => some fd
    | _ => none

/-- The descriptor of a listener that is not closed. -/
def Listener.owes (x : Listener) : List Fd := x.slot.get.toList

/-- The descriptor of an accepted connection in use. -/
def heldFd : Option Held → List Fd
  | some ⟨c, true⟩ => [c.handle.fd]
  | _ => []

/-- The descriptors that connections in use owe. -/
def State.heldFds (s : State) : List Fd := s.connections.flatMap heldFd

def State.owed (s : State) : List Fd :=
  s.tasks.flatMap Frame.owes ++ (s.listeners.flatMap Listener.owes ++ s.heldFds)

/-- What is owed is what is open. -/
def Books (s : State) : Prop := account.Balanced s.history s.owed

theorem fd_ofFd (fd : Fd) : (Connection.ofFd fd).handle.fd = fd := by
  simp [Connection.ofFd, Handle.ofFd, Handle.fd]

/-! ## The books are kept -/

section Kept

variable {s s' : State}

theorem opens_replied {r : Reply} (h : r.isPlain = true) : account.opens (.replied r) = none := by
  rcases r with (e | fd) | r | r | _
  · rfl
  · simp [Reply.isPlain] at h
  all_goals rfl

theorem closes_called {c : Call} (h : c.isPlain = true) : account.closes (.called c) = none := by
  cases c with
  | shutdown fd | close fd => simp [Call.isPlain] at h
  | _ => rfl

theorem Listener.owes_retired (x : Listener) : x.retired.owes = [] := rfl

/-- A connection that is let go takes what it owes out of the books. -/
theorem State.heldFds_letGo {i : Nat} {held : Held} (hc : s.connection? i = some held) :
    s.heldFds.Perm (heldFd (some held) ++
      ({ s with connections := s.connections.set i none } : State).heldFds) := by
  have hget : s.connections[i]? = some (some held) := by
    simpa [connection?, Option.join_eq_some_iff] using hc
  obtain ⟨rest, hheld, hset⟩ := perm_flatMap_set hget heldFd
  exact hheld.trans ((hset none).symm.append_left _)

/-- The first task owes what it owes, and the rest is owed without it. -/
theorem State.owed_tasks {f : Frame} {rest : List Frame} (ht : s.tasks = f :: rest) :
    s.owed = f.owes ++ ({ s with tasks := rest } : State).owed := by
  simp [owed, heldFds, ht]

/-- A listener that is made owes its descriptor. -/
theorem State.owed_made (s : State) (config : UnixConfig) {fd : Fd}
    (hfd : fd ≠ DescriptorSlot.invalid) :
    (fd :: s.owed).Perm
      ({ s with listeners := s.listeners ++ [Listener.fresh config fd] } : State).owed := by
  have hslot : (s.listeners ++ [Listener.fresh config fd]).flatMap Listener.owes =
      s.listeners.flatMap Listener.owes ++ [fd] := by
    simp [Listener.owes, Listener.fresh, DescriptorSlot.get, hfd]
  rw [owed, owed, hslot]
  refine List.perm_middle.symm.trans (List.Perm.append_left _ ?_)
  exact (List.perm_append_singleton fd _).symm.append_right _

/-- A connection that is accepted owes its descriptor. -/
theorem State.owed_accepted (s : State) (client : Fd) :
    (client :: s.owed).Perm ({ s with
      connections := s.connections ++ [some ⟨Connection.ofFd client, true⟩] } : State).owed := by
  have hheld : (s.connections ++ [some (Held.mk (Connection.ofFd client) true)]).flatMap heldFd =
      s.heldFds ++ [client] := by
    simp [heldFds, heldFd, fd_ofFd]
  rw [owed, owed, heldFds, heldFds, hheld, ← List.append_assoc, ← List.append_assoc,
    ← List.append_assoc]
  exact (List.perm_append_singleton client _).symm

/-- A close takes the descriptor of the listener out of its slot. -/
theorem State.owed_retire {l : Nat} {x : Listener} {fd : Fd} (hx : s.listeners[l]? = some x)
    (hfd : x.slot.get = some fd) : s.owed.Perm (fd :: (s.setListener l x.retired).owed) := by
  obtain ⟨rest, hold, hset⟩ := perm_flatMap_set hx Listener.owes
  have hnew := hset x.retired
  have howes : x.owes = [fd] := by simp [Listener.owes, hfd]
  rw [howes] at hold
  rw [x.owes_retired, List.nil_append] at hnew
  calc s.owed
    _ |>.Perm (s.tasks.flatMap Frame.owes ++ ((fd :: rest) ++ s.heldFds)) :=
      (hold.append_right _).append_left _
    _ |>.Perm (fd :: (s.tasks.flatMap Frame.owes ++ (rest ++ s.heldFds))) := List.perm_middle
    _ |>.Perm (fd :: (s.setListener l x.retired).owed) :=
      (((hnew.symm.append_right _).append_left _).cons fd)

/-- A connection that is let go takes its descriptor along. -/
theorem State.owed_letGo {i : Nat} {c : Connection} (hc : s.connection? i = some ⟨c, true⟩) :
    s.owed.Perm
      (c.handle.fd :: ({ s with connections := s.connections.set i none } : State).owed) := by
  have hheld := State.heldFds_letGo hc
  exact ((hheld.append_left _).append_left _).trans
    ((List.perm_middle.append_left _).trans List.perm_middle)

/-- Every move keeps the books, when the descriptors that are opened are not open. -/
theorem Books.move (h : Books s) (hm : Move s s') (hf : account.OpensFresh s'.history) :
    Books s' := by
  have hpop : ∀ {f : Frame} {rest : List Frame}, s.tasks = f :: rest →
      account.Balanced s.history (f.owes ++ ({ s with tasks := rest } : State).owed) :=
    fun ht => State.owed_tasks ht ▸ h
  cases hm with
  | hosted host => exact h
  | began op => exact h.note rfl rfl
  | finished o hs => exact h.note rfl rfl
  | dropped l hl => exact h
  | connected c =>
    have howed : ({ s with connections := s.connections ++ [some ⟨c, false⟩] } : State).owed =
        s.owed := by simp [State.owed, State.heldFds, heldFd]
    unfold Books
    rw [howed]
    exact h
  | forgotten i c hc =>
    exact h.of_perm (((State.heldFds_letGo hc).append_left _).append_left _)
  | pushed f c hs hc hfree hp hl =>
    have howed : (s.push f c).owed = s.owed := by
      rw [State.owed_tasks (s := s.push f c) rfl, hfree]
      rfl
    unfold Books
    rw [howed]
    exact h.note rfl (closes_called hc)
  | paused l t config hs hc hp hl =>
    -- before a call to the file system a task owes nothing
    have howed : (s.wait l config t).owed = s.owed := by
      cases t with
      | looking | probing | clearing | sweeping => rfl
      | _ => simp [Task.call] at hc
    unfold Books
    rw [howed, State.history_wait hc]
    exact h
  | popped f rest r ht hfree hr =>
    have hrest := hpop ht
    rw [hfree] at hrest
    exact hrest.note (opens_replied hr) rfl
  | made config fd rest ht hfd =>
    have hopen := (hpop ht).opened (k := fd) rfl rfl hf.of_append
    exact (hopen.note rfl rfl).of_perm (State.owed_made { s with tasks := rest } config hfd)
  | bound l x path created hx hp hl =>
    obtain ⟨rest, hold, hset⟩ := perm_flatMap_set hx Listener.owes
    have hnew := hset { x with phase := .bound, path := some path, created }
    exact h.of_perm (((hold.trans hnew.symm).append_right _).append_left _)
  | shutDown l x fd quiet hs hx hp hfd hl =>
    -- the slot gives the descriptor to the task
    have hnow := h.of_perm (State.owed_retire hx hfd)
    exact hnow.note rfl rfl
  | closed l x fd t hs hx hp hfd hl ht =>
    have hnow := h.of_perm (State.owed_retire hx hfd)
    have hfree : (Frame.working l t).owes = [] := by
      rcases ht with ⟨quiet, rfl⟩ | ⟨path, created, cause, rfl⟩ <;> rfl
    refine (hnow.closed (e := .called (.close fd)) rfl rfl).of_perm ?_
    rw [State.owed_tasks (s := (s.setListener l x.retired).push _ _) rfl, hfree]
    exact .refl _
  | shut l fd quiet rest r ht =>
    exact ((hpop ht).note (e := .replied (.done r)) rfl rfl).closed (e := .called (.close fd)) rfl
      rfl
  | accepted l fd client rest ht =>
    have hopen := (hpop ht).opened (k := client) rfl rfl hf.of_append
    exact (hopen.note rfl rfl).of_perm (State.owed_accepted { s with tasks := rest } client)
  | refused l x fd client rest ht hx hp =>
    -- nobody but the task ever owes this client
    have hopen := (hpop ht).opened (k := client) rfl rfl hf.of_append
    exact hopen.closed (e := .called (.close client)) rfl rfl
  | released i c quiet hs hc => exact (h.of_perm (State.owed_letGo hc)).closed rfl rfl

theorem Move.history (h : Move s s') : s.history <+: s'.history := by
  cases h with
  | hosted | dropped | connected | forgotten | bound => exact List.prefix_refl _
  | began | finished | pushed | popped | shutDown | closed | released =>
    exact List.prefix_append _ _
  | paused l t config hs hc hp hl => exact List.prefix_append _ _
  | made | shut | accepted | refused =>
    exact (List.prefix_append _ [_]).trans (List.prefix_append _ _)

theorem Moves.history (h : Moves s s') : s.history <+: s'.history := by
  induction h with
  | refl s => exact List.prefix_refl _
  | step h ht ih => exact h.history.trans ih

theorem Books.moves (h : Books s) (hm : Moves s s') (hf : account.OpensFresh s'.history) :
    Books s' := by
  induction hm with
  | refl s => exact h
  | step hm ht ih => exact ih (h.move hm (hf.of_prefix ht.history)) hf

end Kept

end LocalIpc.Unix

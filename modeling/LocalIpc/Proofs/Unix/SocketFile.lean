import LocalIpc.Proofs.Host.Files
import LocalIpc.Unix.SocketFile
/-!
# When a socket file goes

Clearing the way for a bind removes a socket file just when a connect to it is refused, and the end
of a listener removes a socket file just when it is the one that the listener made.
-/

namespace LocalIpc.Unix

/-- There is a socket file at the path. -/
def SocketAt (host : Host) (path : Path) (f : FileId) : Prop :=
  host.tree.status path = .ok ⟨f, .socket⟩

/-- A connect to the path is refused. -/
def Refused (host : Host) (path : Path) : Prop :=
  ∃ e, (host.connect path).1 = .error e ∧ e.kind = .connectionRefused

/-- What is at the path is no socket, or somebody answers there. -/
def Barred (host : Host) (path : Path) : Prop :=
  ∃ status, host.tree.status path = .ok status ∧
    (status.kind ≠ .socket ∨ ∃ fd, (host.connect path).1 = .ok fd)

section Files

variable {host : Host} {path : Path} {f : FileId}

theorem probe_failed {e : IoError} (h : (host.connect path).1 = .error e) :
    probe host path = (.error e, host) := by
  rw [probe, Host.connect_failed h]

theorem probe_answered {fd : Fd} (h : (host.connect path).1 = .ok fd) :
    probe host path = (.ok (), ((host.connect path).2.close fd).2) := by
  have heq : host.connect path = (.ok fd, (host.connect path).2) := Prod.ext h rfl
  rw [probe, heq]

/-! ### One call after another -/

theorem look_eq_true : look host path = .ok true ↔ ∃ f, SocketAt host path f := by
  unfold look SocketAt
  rcases host.tree.status path with e | ⟨f, kind⟩
  · simp
  · by_cases hk : kind = .socket <;> simp [hk]

theorem isDead_refused (h : Refused host path) : isDead host path = (.ok true, host) := by
  obtain ⟨e, he, hk⟩ := h
  simp [isDead, probe_failed he, hk]

theorem isDead_answered {fd : Fd} (h : (host.connect path).1 = .ok fd) :
    isDead host path = (.error listenerActive, ((host.connect path).2.close fd).2) := by
  simp [isDead, probe_answered h]

/-- A file that counts as dead has refused a connect, and nothing has changed by that. -/
theorem refused_of_isDead (h : (isDead host path).1 = .ok true) :
    Refused host path ∧ (isDead host path).2 = host := by
  rcases hc : (host.connect path).1 with e | fd
  · simp only [isDead, probe_failed hc] at h ⊢
    by_cases hk : e.kind = .connectionRefused
    · exact ⟨⟨e, hc, hk⟩, by simp [hk]⟩
    · by_cases hn : e.kind = .notFound <;> simp [hk, hn] at h
  · simp [isDead_answered hc] at h

theorem tree_answered (host : Host) (path : Path) (fd : Fd) :
    ((host.connect path).2.close fd).2.tree = host.tree := by
  rw [Host.tree_close, Host.tree_connect]

theorem tree_isDead (host : Host) (path : Path) : (isDead host path).2.tree = host.tree := by
  rcases hc : (host.connect path).1 with e | fd
  · simp only [isDead, probe_failed hc]
    split
    · rfl
    · split <;> rfl
  · rw [isDead_answered hc]
    exact tree_answered host path fd

/-- Whatever comes of it, all that a bind does to see whether somebody answers is to connect and
hang up. -/
theorem host_isDead (host : Host) (path : Path) : (isDead host path).2 = (probe host path).2 := by
  unfold isDead
  rcases probe host path with ⟨e | u, host'⟩
  · dsimp only
    split
    · rfl
    · split <;> rfl
  · rfl

theorem remove_removes (h : host.tree.Removes path f) :
    remove host path = (.ok (), host.without f) := by
  simp [remove, show host.tree.unlink path = _ from h, Host.without]

theorem remove_stuck {e : IoError} (h : host.tree.unlink path = .error e) :
    remove host path = (.error e, host) := by
  simp [remove, h]

/-- A removal takes one file away, or fails. -/
theorem tree_remove (host : Host) (path : Path) :
    (remove host path).2.tree = host.tree ∨
      ∃ f, host.tree.Removes path f ∧ (remove host path).2.tree = host.tree.erase f := by
  rcases hu : host.tree.unlink path with e | tree
  · exact .inl (by rw [remove_stuck hu])
  · obtain ⟨f, -, hremoves⟩ := Tree.removes_of_unlink hu
    exact .inr ⟨f, hremoves, by rw [remove_removes hremoves]; rfl⟩

/-! ### The three calls in a row -/

/-- A socket file on which a connect is refused is to be removed. -/
theorem clearWay_refused (hs : SocketAt host path f) (hr : Refused host path) :
    clearWay host path = remove host path := by
  simp [clearWay, look_eq_true.mpr ⟨f, hs⟩, isDead_refused hr]

theorem clearWay_answered {fd : Fd} (hs : SocketAt host path f)
    (hc : (host.connect path).1 = .ok fd) :
    clearWay host path = (.error listenerActive, ((host.connect path).2.close fd).2) := by
  simp [clearWay, look_eq_true.mpr ⟨f, hs⟩, isDead_answered hc]

/-- What bars the way stays where it is. -/
theorem clearWay_barred (h : Barred host path) :
    ∃ e host', clearWay host path = (.error e, host') ∧ host'.tree = host.tree := by
  obtain ⟨status, hs, hor⟩ := h
  by_cases hk : status.kind = .socket
  · obtain ⟨fd, hfd⟩ := hor.resolve_left fun hne => hne hk
    have hsocket : SocketAt host path status.id := by rw [SocketAt, hs, ← hk]
    exact ⟨_, _, clearWay_answered hsocket hfd, tree_answered host path fd⟩
  · exact ⟨notASocket, host, by simp [clearWay, look, hs, hk], rfl⟩

/-- Nothing else is removed to clear the way. -/
theorem clearWay_tree (host : Host) (path : Path) :
    (clearWay host path).2.tree = host.tree ∨ ∃ f, SocketAt host path f ∧ Refused host path ∧
      host.tree.Removes path f ∧ clearWay host path = (.ok (), host.without f) := by
  rcases hl : look host path with e | _ | _
  · exact .inl (by simp [clearWay, hl])
  · exact .inl (by simp [clearWay, hl])
  obtain ⟨f, hs⟩ := look_eq_true.mp hl
  rcases hd : isDead host path with ⟨e | _ | _, host'⟩
  · exact .inl (by simpa [clearWay, hl, hd] using tree_isDead host path)
  · exact .inl (by simpa [clearWay, hl, hd] using tree_isDead host path)
  obtain ⟨hr, -⟩ := refused_of_isDead (by rw [hd])
  rw [clearWay_refused hs hr]
  rcases Tree.unlink_of_status hs with hremoves | ⟨e, he⟩
  · exact .inr ⟨f, hs, hr, hremoves, remove_removes hremoves⟩
  · exact .inl (by rw [remove_stuck he])

/-- A connect to a socket file that listens is not refused. -/
theorem Refused.not_listens (hr : Refused host path) (hs : SocketAt host path f) :
    ¬ host.Listens f := by
  intro hl
  obtain ⟨e, he, hk⟩ := hr
  -- a path that cannot be connected to at all is no refusal
  have ha : Host.checkAddress path = .ok () := by
    cases ha : Host.checkAddress path with
    | ok u => rfl
    | error e' =>
      have hat : host.listenerAt path = .error e' := by
        simp [Host.listenerAt, ha, Bind.bind, Except.bind]
      obtain rfl : e' = e := by simpa [Host.connect, hat] using he
      unfold Host.checkAddress at ha
      split at ha
      · cases ha
        simp [IoError.kind] at hk
      split at ha
      · cases ha
        simp [IoError.kind] at hk
      split at ha
      · cases ha
        exact absurd hk (by decide)
      · simp at ha
  obtain ⟨fd, hfd⟩ := Host.connect_of_listens ha hs hl
  simp [hfd] at he

theorem isOwn_iff : isOwn host path f = true ↔ SocketAt host path f := by
  unfold isOwn SocketAt
  split
  · rename_i status hs
    obtain ⟨id, kind⟩ := status
    simp [hs, and_comm]
  · simp [*]

/-- The own socket file goes, if it can be removed. -/
theorem removeOwn_own (h : SocketAt host path f) :
    removeOwn host path f = (remove host path).2 := by
  simp [removeOwn, isOwn_iff.mpr h]

/-- Whatever else is at the path stays. -/
theorem removeOwn_other (h : ¬ SocketAt host path f) : removeOwn host path f = host := by
  simp [removeOwn, mt isOwn_iff.mp h]

end Files

end LocalIpc.Unix

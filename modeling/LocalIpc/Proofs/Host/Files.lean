import LocalIpc.Host.Basic
/-!
# What becomes of the files

A path at which there is a socket file ends with its name, so what a look at the path finds is what
a removal takes away. Sockets come and go without a file.
-/

namespace LocalIpc

/-! ## Looking and removing -/

namespace Tree

variable {t : Tree} {last : LastLink} {place : Place} {path : Path} {f : FileId}

/-- A walk that asks for a directory at its end finds no file, whatever a symbolic link on the way
leads to. -/
theorem walkWith_dot {jump : FileId → List Bytes → Except IoError Place}
    (hjump : ∀ dir names, jump dir (names ++ [[Path.dot]]) = .ok place → ∃ d, place = .within d)
    (names : List Bytes) (dir : FileId)
    (h : t.walkWith last jump dir (names ++ [[Path.dot]]) = .ok place) :
    ∃ d, place = .within d := by
  induction names generalizing dir with
  | nil => exact ⟨dir, by simpa [walkWith, eq_comm] using h⟩
  | cons name names ih =>
    have hrest : names ++ [[Path.dot]] ≠ [] := by simp
    rw [List.cons_append] at h
    unfold walkWith at h
    split at h
    · exact ih _ h
    split at h
    · exact ih _ h
    split at h
    · simp at h
    split at h
    · simp at h
    split at h
    · simp only [hrest, false_and, if_false] at h
      rw [← List.append_assoc] at h
      exact hjump _ _ h
    · exact ih _ h
    · simp at h

theorem walk_dot (links : Nat) (names : List Bytes) (dir : FileId)
    (h : t.walk last links dir (names ++ [[Path.dot]]) = .ok place) : ∃ d, place = .within d := by
  induction links generalizing names dir with
  | zero => exact walkWith_dot (by simp) names dir h
  | succ links ih => exact walkWith_dot (fun dir names => ih names dir) names dir h

/-- Following a last name that is no symbolic link changes nothing. -/
theorem walkWith_follow {g : File} {jump jump' : FileId → List Bytes → Except IoError Place}
    (hjump : ∀ dir names, jump dir names = .ok (.file g) → jump' dir names = .ok (.file g))
    (hg : ∀ target, g.kind ≠ .symlink target) (names : List Bytes) (dir : FileId)
    (h : t.walkWith .keep jump dir names = .ok (.file g)) :
    t.walkWith .follow jump' dir names = .ok (.file g) := by
  induction names generalizing dir with
  | nil => simp [walkWith] at h
  | cons name names ih =>
    by_cases hdot : name = [Path.dot]
    · simp only [walkWith, if_pos hdot] at h ⊢
      exact ih _ h
    by_cases hup : name = Path.up
    · simp only [walkWith, if_neg hdot, if_pos hup] at h ⊢
      exact ih _ h
    by_cases hlong : maxName < name.length
    · simp only [walkWith, if_neg hdot, if_neg hup, if_pos hlong] at h
      split at h <;> simp at h
    rcases hf : t.find? dir name with _ | f
    · simp only [walkWith, if_neg hdot, if_neg hup, if_neg hlong, hf] at h
      split at h <;> simp at h
    by_cases hlink : ∃ target, f.kind = .symlink target
    · obtain ⟨target, hkind⟩ := hlink
      simp only [walkWith, if_neg hdot, if_neg hup, if_neg hlong, hf, hkind] at h ⊢
      by_cases hend : names = []
      · -- a last link that is kept would be the file at the end
        simp only [hend, and_self, if_true] at h
        obtain rfl := Place.file.inj (Except.ok.inj h)
        exact absurd hkind (hg target)
      · simp only [hend, false_and, if_false] at h ⊢
        exact hjump _ _ h
    · by_cases hdir : f.kind = .directory
      · simp only [walkWith, if_neg hdot, if_neg hup, if_neg hlong, hf, hdir] at h ⊢
        split at h
        · rwa [if_pos ‹_›]
        · rw [if_neg ‹_›]
          exact ih _ h
      · simp only [walkWith, if_neg hdot, if_neg hup, if_neg hlong, hf] at h ⊢
        split at h
        · exact absurd ⟨_, ‹_›⟩ hlink
        · exact absurd ‹_› hdir
        · exact h

theorem walk_follow {g : File} (hg : ∀ target, g.kind ≠ .symlink target) (links : Nat)
    (names : List Bytes) (dir : FileId) (h : t.walk .keep links dir names = .ok (.file g)) :
    t.walk .follow links dir names = .ok (.file g) := by
  induction links generalizing names dir with
  | zero => exact walkWith_follow (by simp) hg names dir h
  | succ links ih => exact walkWith_follow (fun dir names => ih names dir) hg names dir h

theorem go_eq_ok {turns : List Bytes} : t.go last path turns = .ok place ↔
    path ≠ [] ∧ path.length < maxPath ∧
      t.walk last maxLinks (startOf workDir path) turns = .ok place := by
  unfold go
  by_cases hne : path = []
  · simp [hne]
  by_cases hlong : maxPath ≤ path.length
  · have : ¬ path.length < maxPath := by omega
    simp [hne, hlong, this]
  · have : path.length < maxPath := by omega
    simp [hne, hlong, this]

/-- A look finds a socket file where the path leads to it. -/
theorem resolve_of_status (h : t.status path = .ok ⟨f, .socket⟩) :
    ∃ g, t.resolve .keep path = .ok (.file g) ∧ g.id = f ∧ g.kind = .socket := by
  rcases hplace : t.resolve .keep path with e | place
  · simp [status, hplace, bind, Except.bind] at h
  simp only [status, hplace, bind, Except.bind] at h
  cases place with
  | file g => exact ⟨g, rfl, by simpa [Place.status] using h⟩
  | _ => simp [Place.status] at h

/-- What is no directory is found under the name that it can be removed by. -/
theorem locate_of_resolve {g : File} (h : t.resolve .keep path = .ok (.file g)) :
    t.locate path = .ok (.file g) ∧ path.endsInSeparator = false := by
  obtain ⟨hne, hlt, hwalk⟩ := go_eq_ok.mp h
  cases hsep : path.endsInSeparator with
  | true =>
    rw [Path.turns, hsep] at hwalk
    obtain ⟨d, hd⟩ := walk_dot _ _ _ hwalk
    simp at hd
  | false =>
    rw [Path.turns, hsep] at hwalk
    exact ⟨go_eq_ok.mpr ⟨hne, hlt, by simpa using hwalk⟩, rfl⟩

/-- A removal at the path takes this file away. -/
def Removes (t : Tree) (path : Path) (f : FileId) : Prop := t.unlink path = .ok (t.erase f)

/-- A socket file that a look at the path finds is what a removal takes away, unless the directory
keeps it. -/
theorem unlink_of_status (h : t.status path = .ok ⟨f, .socket⟩) :
    t.Removes path f ∨ ∃ e, t.unlink path = .error e := by
  obtain ⟨g, hplace, rfl, hkind⟩ := resolve_of_status h
  obtain ⟨hlocate, hsep⟩ := locate_of_resolve hplace
  cases hkept : t.frozen? g.parent with
  | none => exact .inl (by simp [Removes, unlink, hlocate, hkind, hsep, hkept, bind, Except.bind])
  | some e => exact .inr ⟨e, by simp [unlink, hlocate, hsep, hkept, bind, Except.bind]⟩

/-- A removal that works takes one file away. -/
theorem removes_of_unlink {t' : Tree} (h : t.unlink path = .ok t') :
    ∃ f, t' = t.erase f ∧ t.Removes path f := by
  obtain ⟨f, rfl⟩ : ∃ f, t' = t.erase f := by
    rcases hlocate : t.locate path with e | place
    · simp [unlink, hlocate, bind, Except.bind] at h
    simp only [unlink, hlocate, bind, Except.bind] at h
    cases place with
    | file g =>
      simp only at h
      split at h
      · simp at h
      split at h
      · simp at h
      split at h
      · simp at h
      · exact ⟨g.id, (Except.ok.inj h).symm⟩
    | _ => simp at h
  exact ⟨f, rfl, h⟩

/-- A socket file is no symbolic link, so to follow its path leads to it. -/
theorem target_of_status (h : t.status path = .ok ⟨f, .socket⟩) :
    t.target path = .ok ⟨f, .socket⟩ := by
  obtain ⟨g, hplace, rfl, hkind⟩ := resolve_of_status h
  obtain ⟨hne, hlt, hwalk⟩ := go_eq_ok.mp hplace
  have hfollow : t.resolve .follow path = .ok (.file g) :=
    go_eq_ok.mpr ⟨hne, hlt, walk_follow (by simp [hkind]) _ _ _ hwalk⟩
  simp [target, hfollow, Place.status, hkind, bind, Except.bind]

/-! ## Which files there are -/

/-- The file is there, wherever that is. -/
def Holds (t : Tree) (f : FileId) : Prop := ∃ g ∈ t.files, g.id = f

/-- A walk ends at a file that is there. -/
theorem walkWith_mem {g : File} {jump : FileId → List Bytes → Except IoError Place}
    (hjump : ∀ dir names, jump dir names = .ok (.file g) → g ∈ t.files) (names : List Bytes)
    (dir : FileId) (h : t.walkWith last jump dir names = .ok (.file g)) : g ∈ t.files := by
  induction names generalizing dir with
  | nil => simp [walkWith] at h
  | cons name names ih =>
    unfold walkWith at h
    split at h
    · exact ih _ h
    split at h
    · exact ih _ h
    split at h
    · split at h <;> simp at h
    split at h
    · split at h <;> simp at h
    rename_i f hf
    have hmem : f ∈ t.files := List.mem_of_find?_eq_some hf
    split at h
    · split at h
      · simp_all
      split at h
      · unfold Except.bind at h
        split at h <;> simp at h
      · exact hjump _ _ h
    · split at h
      · simp_all
      · exact ih _ h
    · split at h <;> simp_all

theorem walk_mem {g : File} (links : Nat) (names : List Bytes) (dir : FileId)
    (h : t.walk last links dir names = .ok (.file g)) : g ∈ t.files := by
  induction links generalizing names dir with
  | zero => exact walkWith_mem (by simp) names dir h
  | succ links ih => exact walkWith_mem (fun dir names => ih names dir) names dir h

theorem holds_of_status (h : t.status path = .ok ⟨f, .socket⟩) : t.Holds f := by
  obtain ⟨g, hplace, hid, -⟩ := resolve_of_status h
  obtain ⟨-, -, hwalk⟩ := go_eq_ok.mp hplace
  exact ⟨g, walk_mem _ _ _ hwalk, hid⟩

theorem not_holds_erase (t : Tree) (f : FileId) : ¬ (t.erase f).Holds f := by
  simp [Holds, erase]

theorem Holds.erase {i : FileId} (h : t.Holds f) (hne : f ≠ i) : (t.erase i).Holds f := by
  obtain ⟨g, hg, rfl⟩ := h
  exact ⟨g, by simp [Tree.erase, hg, hne], rfl⟩

/-- Permissions are given to a file without a change of who it is. -/
theorem Holds.changeMode {t' : Tree} {mode : UInt32} (h : t.Holds f)
    (ht : t.changeMode path mode = .ok t') : t'.Holds f := by
  obtain ⟨g, hg, rfl⟩ := h
  rcases hs : t.target path with e | status
  · simp [Tree.changeMode, hs, bind, Except.bind] at ht
  obtain rfl : t.setMode status.id (mode &&& 0o7777) = t' := by
    simpa [Tree.changeMode, hs, bind, Except.bind] using ht
  refine ⟨if g.id = status.id then { g with mode := mode &&& 0o7777 } else g, ?_, ?_⟩
  · exact List.mem_map_of_mem hg
  · split <;> rfl

end Tree

/-! ## Sockets and files -/

namespace Host

/-- The host with a file removed. -/
def without (h : Host) (f : FileId) : Host := { h with tree := h.tree.erase f }

/-- A connect that fails leaves the host as it was. -/
theorem connect_failed {h : Host} {path : Path} {e : IoError} (he : (h.connect path).1 = .error e) :
    h.connect path = (.error e, h) := by
  unfold connect at he ⊢
  split at he
  · rw [Except.error.inj he]
  · simp at he

/-- The socket of a file listens. -/
def Listens (h : Host) (f : FileId) : Prop :=
  ∃ fd file waiting, h.owner? f = some (fd, .listening file waiting)

/-- The socket of a file is a datagram socket. -/
def HasDatagram (h : Host) (f : FileId) : Prop :=
  ∃ fd file, h.owner? f = some (fd, .bound file true)

/-- The descriptor that was set last is found first. -/
theorem owner?_setDescriptor {h : Host} {fd : Fd} {d : Descriptor} {f : FileId}
    (hd : (∃ datagram, d = .bound f datagram) ∨ ∃ waiting, d = .listening f waiting) :
    (h.setDescriptor fd d).owner? f = some (fd, d) := by
  rcases hd with ⟨datagram, rfl⟩ | ⟨waiting, rfl⟩ <;>
    simp [owner?, setDescriptor]

theorem descriptor?_setDescriptor (h : Host) (fd : Fd) (d : Descriptor) :
    (h.setDescriptor fd d).descriptor? fd = some d := by
  simp [descriptor?, setDescriptor]

/-- The socket of a file that a native bind has made does not listen before its native listen. -/
theorem silent_of_bind {h h' : Host} {fd : Fd} {path : Path}
    (hb : h.bind fd path false = (.ok (), h')) :
    ∃ f, h'.descriptor? fd = some (.bound f false) ∧ ¬ h'.Listens f ∧ ¬ h'.HasDatagram f := by
  unfold bind at hb
  split at hb
  rotate_left
  · simp at hb
  · simp at hb
  split at hb
  · simp at hb
  rename_i f tree hmade
  obtain rfl := (Prod.mk.inj hb).2
  have howner : ({ h with tree }.setDescriptor fd (.bound f false)).owner? f =
      some (fd, .bound f false) := owner?_setDescriptor (.inl ⟨false, rfl⟩)
  refine ⟨f, descriptor?_setDescriptor _ fd _, ?_, ?_⟩
  · rintro ⟨k, file, waiting, hk⟩
    simp [howner] at hk
  · rintro ⟨k, file, hk⟩
    simp [howner] at hk

/-- From its native listen on it listens. -/
theorem listens_of_listen {h : Host} {fd : Fd} {f : FileId}
    (hd : h.descriptor? fd = some (.bound f false)) : (h.listen fd).2.Listens f := by
  simp only [listen, hd]
  exact ⟨fd, f, [], owner?_setDescriptor (.inr ⟨[], rfl⟩)⟩

/-- A listening socket answers a connect to its file. -/
theorem connect_of_listens {h : Host} {path : Path} {f : FileId} (ha : checkAddress path = .ok ())
    (hs : h.tree.status path = .ok ⟨f, .socket⟩) (hl : h.Listens f) :
    ∃ fd, (h.connect path).1 = .ok fd := by
  obtain ⟨fd, file, waiting, howner⟩ := hl
  have hat : h.listenerAt path = .ok (fd, file, waiting) := by
    simp [listenerAt, ha, Tree.target_of_status hs, howner, Bind.bind, Except.bind]
  rw [connect, hat]
  exact ⟨_, rfl⟩

/-- A socket file is refused whose socket is gone, or has not begun to listen. -/
theorem connect_of_not_listens {h : Host} {path : Path} {f : FileId}
    (ha : checkAddress path = .ok ()) (hs : h.tree.status path = .ok ⟨f, .socket⟩)
    (hl : ¬ h.Listens f) (hd : ¬ h.HasDatagram f) :
    (h.connect path).1 = .error .connectionRefused := by
  have hat : h.listenerAt path = .error .connectionRefused := by
    simp only [listenerAt, ha, Tree.target_of_status hs, Bind.bind, Except.bind, ne_eq,
      not_true_eq_false, if_false]
    split
    · exact absurd ⟨_, _, _, ‹_›⟩ hl
    · exact absurd ⟨_, _, ‹_›⟩ hd
    · rfl
  rw [connect, hat]

theorem tree_connect (h : Host) (path : Path) : (h.connect path).2.tree = h.tree := by
  unfold connect
  split <;> rfl

theorem tree_refuse (h : Host) (waiting : List Nat) : (h.refuse waiting).tree = h.tree := by
  unfold refuse
  induction waiting generalizing h with
  | nil => rfl
  | cons i waiting ih => exact (ih (h.onStream i Stream.refuse)).trans rfl

theorem tree_close (h : Host) (fd : Fd) : (h.close fd).2.tree = h.tree := by
  unfold close
  split
  · rfl
  · exact tree_refuse h _
  · rfl
  · rfl

end Host

end LocalIpc

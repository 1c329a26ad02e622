import LocalIpc.Proofs.Unix.Noting
import LocalIpc.Proofs.Unix.Removing
/-!
# Alone with the files

An operation that would let others in between its calls to the file system, and finds that nobody
comes, ends where it would have ended without.
-/

namespace LocalIpc.Unix

/-- The operation that waits at the file system goes on `n` times, and nothing else happens. -/
def goingOn (n : Nat) : List Event := .replicate n (.reply .files)

/-- From `s` on, `slow` has come where `quick` is, with as many waits at the file system in between.
The operations began with these entries. -/
def State.ComesTo (s slow quick : State) (e e' : Entry) (n : Nat) : Prop :=
  ∃ tail, quick.history = s.history ++ e' :: tail ∧
    slow = { quick with history := s.history ++ e :: (.replicate n (.replied .files) ++ tail) }

section Alone

variable {s : State} {l : Nat} {x : Listener} {t : Task} {path : Path} {p : Progress} {host : Host}
  {host' : Host} {past : List Entry} {fd : Fd} {address : AddressRecord}

/-- What has happened before does not matter to what comes of a reaction. -/
theorem State.advance_history (s : State) (l : Nat) (config : UnixConfig) (p : Progress) :
    ∃ (m : State) (tail : List Entry), ∀ h,
      ({ s with history := h } : State).advance l config p = { m with history := h ++ tail } := by
  let bare : State := { s with history := [] }
  refine ⟨bare.advance l config p, (bare.advance l config p).history, fun h => ?_⟩
  have hpast := withPast_advance h bare l config p
  simpa [withPast, bare] using hpast

/-- The state in which an operation of listener `l` comes to `p`, after what has happened. -/
def State.comes (s : State) (l : Nat) (x : Listener) (past : List Entry) (p : Progress × Host) :
    State :=
  { s with host := p.2, history := past }.advance l x.config p.1

/-- What waits at the file system comes to `q` in the end. -/
def State.SoonComes (s : State) (l : Nat) (x : Listener) (p q : Progress × Host) : Prop :=
  ∃ n, ∀ past, (s.comes l x past p).run (goingOn n) =
    s.comes l x (past ++ .replicate n (.replied .files)) q

theorem State.SoonComes.refl (p : Progress × Host) : s.SoonComes l x p p :=
  ⟨0, fun past => by rw [List.replicate_zero, List.append_nil]; rfl⟩

/-- An operation that waits at the file system goes on with its listener as it was. -/
theorem State.SoonComes.waits {q : Progress × Host} (hx : s.listeners[l]? = some x)
    (ht : t.takes .files = true) (hr : x.react host (.reply t .files) = (p, x, host'))
    (h : s.SoonComes l x (p, host') q) : s.SoonComes l x (.waits t, host) q := by
  obtain ⟨n, hn⟩ := h
  refine ⟨n + 1, fun past => ?_⟩
  have hcall : t.call x.config = none := by
    cases t <;> first | rfl | simp [Task.takes] at ht
  let m : State := { s with host, history := past, tasks := .working l t :: s.tasks }
  have hwait : s.comes l x past (.waits t, host) = m := by
    simp [comes, advance, wait, hcall, m]
  have hstep : m.step (.reply .files) = s.comes l x (past ++ [.replied .files]) (p, host') := by
    have htasks : m.tasks = .working l t :: s.tasks := rfl
    rw [step_answered htasks ht hx]
    simp only [m, hr]
    exact advanceWith_same (s := { s with host, history := past ++ [.replied .files] }) hx p host'
  have hpast := hn (past ++ [.replied .files])
  rw [← hstep, List.append_assoc] at hpast
  rw [hwait, List.replicate_succ]
  exact hpast

theorem State.SoonComes.comesTo {slow quick : State} {e e' : Entry} {p q : Progress × Host}
    (h : s.SoonComes l x p q) (hslow : slow = s.comes l x (s.history ++ [e]) p)
    (hquick : quick = s.comes l x (s.history ++ [e']) q) :
    ∃ n, s.ComesTo (slow.run (goingOn n)) quick e e' n := by
  obtain ⟨n, hn⟩ := h
  obtain ⟨m, tail, hm⟩ := advance_history { s with host := q.2 } l x.config q.1
  refine ⟨n, tail, ?_, ?_⟩
  · rw [hquick, comes, hm]
    simp
  · rw [hslow, hn, hquick, comes, comes, hm, hm]
    simp

/-! ## Binds -/

theorem Listener.beginBindSlowly_soon (hx : s.listeners[l]? = some x) (host : Host) (path : Path) :
    s.SoonComes l x (x.beginBindSlowly path, host) (x.beginBind host path) := by
  unfold beginBindSlowly beginBind
  split
  · exact .refl _
  rename_i fd address hcheck
  refine .waits hx rfl rfl ?_
  unfold afterLook clearWay
  rcases look host path with e | _ | _
  · exact .refl _
  · exact .refl _
  refine .waits hx rfl rfl ?_
  unfold afterProbe
  rcases isDead host path with ⟨e | _ | _, host⟩
  · exact .refl _
  · exact .refl _
  refine .waits hx rfl rfl ?_
  unfold afterClear
  rcases hg : remove host path with ⟨e | u, host⟩
  · simp only [hg]
    exact .refl _
  · simp only [hg]
    exact .refl _

/-- A bind that nobody disturbs clears its way in three calls as it would in one. -/
theorem State.bindSlowly_alone (hx : s.listener? l = some x) (hl : s.isLocked l = false)
    (path : Path) :
    ∃ n, s.ComesTo ((s.step (.start (.bindSlowly l path))).run (goingOn n))
      (s.step (.start (.bind l path))) (.began (.bindSlowly l path)) (.began (.bind l path)) n := by
  obtain ⟨-, hget⟩ := listener?_eq_some hx
  apply (Listener.beginBindSlowly_soon hget s.host path).comesTo
  · rw [step_asks (g := .bindSlowly path) rfl hx hl]
    exact advanceWith_same (s := s.note (.began (.bindSlowly l path))) hget _ _
  · exact step_bind hx hl path

/-! ## Ends -/

theorem Listener.finishEndSlowly_soon (hx : s.listeners[l]? = some x) (host : Host)
    (own : Option (Path × FileId)) (quiet : Bool) (result : Except ListenerError Unit) :
    s.SoonComes l x (finishEndSlowly host own quiet result, host)
      (finishEnd host own quiet result) := by
  unfold finishEndSlowly finishEnd
  rcases own with _ | ⟨path, f⟩
  · exact .refl _
  simp only [removeOwn]
  split
  · exact .waits hx rfl rfl (.refl _)
  · exact .refl _

/-- An operation that lets others in at its end would end alone in the same way. -/
theorem Listener.react_doneSlowly {r : Except IoError Unit} (ht : t.takes (.doneSlowly r) = true)
    (x : Listener) (host : Host) : t.takes (.done r) = true ∧ ∃ own quiet result,
      x.react host (.reply t (.doneSlowly r)) = (finishEndSlowly host own quiet result, x, host) ∧
      x.react host (.reply t (.done r)) =
        ((finishEnd host own quiet result).1, x, (finishEnd host own quiet result).2) := by
  cases Task.meets_of_takes ht with
  | givingUpSlowly | closingSlowly => exact ⟨rfl, _, _, _, rfl, rfl⟩

/-- An end that nobody disturbs removes its own file as it would at once. -/
theorem State.doneSlowly_alone {rest : List Frame} {r : Except IoError Unit}
    (ht : s.tasks = .working l t :: rest) (htakes : t.takes (.doneSlowly r) = true)
    (hx : s.listeners[l]? = some x) :
    ∃ n, ({ s with tasks := rest } : State).ComesTo
      ((s.step (.reply (.doneSlowly r))).run (goingOn n)) (s.step (.reply (.done r)))
      (.replied (.doneSlowly r)) (.replied (.done r)) n := by
  obtain ⟨htakes', own, quiet, result, hslow, hquick⟩ :=
    Listener.react_doneSlowly htakes x s.host
  have hsoon := Listener.finishEndSlowly_soon (s := { s with tasks := rest }) hx s.host own quiet
    result
  apply hsoon.comesTo
  · rw [step_answered ht htakes hx, hslow]
    exact advanceWith_same (s := { s with tasks := rest }.note (.replied (.doneSlowly r))) hx _ _
  · rw [step_answered ht htakes' hx, hquick]
    exact advanceWith_same (s := { s with tasks := rest }.note (.replied (.done r))) hx _ _

end Alone

end LocalIpc.Unix

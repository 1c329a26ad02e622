import LocalIpc.Proofs.Unix.Accepting
import LocalIpc.Proofs.Unix.Recorded
import LocalIpc.Proofs.Unix.SocketFile
/-!
# What a step makes of the files

Most steps leave every file where it is. A bind gives its file permissions and removes a socket file
at its path on which a connect is refused, and an operation at its end removes its own file. An
operation that lets others in between removes what is at the path by then. Any removal may fail.
-/

namespace LocalIpc.Unix

/-! ## The end of an operation -/

/-- A close of the listener is to remove the file at the path. -/
structure Listener.CleansUp (x : Listener) (path : Path) (f : FileId) : Prop where
  asked : x.config.cleanupOnClose = true
  named : x.path = some path
  made : x.created = some f

/-- What an operation at its end makes of the files, where `own` says which file is its own: a
socket file at its path that is its own goes if it can be removed. -/
structure TriesOwn (own : Path → FileId → Prop) (host : Host) (tree : Tree) : Prop where
  removed : ∀ path f, own path f → SocketAt host path f → host.tree.Removes path f →
    tree = host.tree.erase f
  stuck : ∀ path f e, own path f → host.tree.unlink path = .error e → tree = host.tree
  spared : (∀ path f, own path f → ¬ SocketAt host path f) → tree = host.tree

section Ends

variable {x : Listener} {host : Host} {path : Path} {f : FileId} {quiet : Bool}
  {result : Except ListenerError Unit} {own : Path → FileId → Prop} {tree : Tree}

theorem TriesOwn.mono {own' : Path → FileId → Prop} (h : TriesOwn own host tree)
    (heq : ∀ path f, own' path f ↔ own path f) : TriesOwn own' host tree where
  removed path f ho := h.removed path f ((heq path f).mp ho)
  stuck path f e ho := h.stuck path f e ((heq path f).mp ho)
  spared hs := h.spared fun path f ho => hs path f ((heq path f).mpr ho)

theorem Listener.triesOwn_finishEnd (host : Host) (own : Option (Path × FileId)) (quiet : Bool)
    (result : Except ListenerError Unit) :
    TriesOwn (fun path f => own = some (path, f)) host
      (finishEnd host own quiet result).2.tree := by
  have hend : ∀ path f, own = some (path, f) →
      (finishEnd host own quiet result).2 = removeOwn host path f := by
    rintro path f rfl
    rfl
  refine ⟨fun path f ho hs hremoves => ?_, fun path f e ho he => ?_, fun h => ?_⟩
  · rw [hend path f ho, removeOwn_own hs, remove_removes hremoves]
    rfl
  · rw [hend path f ho, removeOwn]
    split
    · rw [remove_stuck he]
    · rfl
  · rcases own with _ | ⟨path, f⟩
    · rfl
    · rw [hend path f rfl, removeOwn_other (h path f rfl)]

/-- The end of an operation takes its own file away, or leaves all files where they are. -/
theorem TriesOwn.cases (h : TriesOwn own host tree) : tree = host.tree ∨ ∃ path f,
    own path f ∧ SocketAt host path f ∧ host.tree.Removes path f ∧ tree = host.tree.erase f := by
  by_cases hown : ∃ path f, own path f ∧ SocketAt host path f
  · obtain ⟨path, f, ho, hs⟩ := hown
    rcases Tree.unlink_of_status hs with hremoves | ⟨e, he⟩
    · exact .inr ⟨path, f, ho, hs, hremoves, h.removed path f ho hs hremoves⟩
    · exact .inl (h.stuck path f e ho he)
  · exact .inl (h.spared fun path f ho hs => hown ⟨path, f, ho, hs⟩)

theorem Listener.madeAt_eq_some {created : Option FileId} {path' : Path} :
    madeAt path created = some (path', f) ↔ path' = path ∧ created = some f := by
  cases created with
  | none => simp [madeAt]
  | some i => simp [madeAt, eq_comm]

theorem Listener.cleansUp_iff : x.CleansUp path f ↔ x.own? = some (path, f) := by
  rw [own?_eq_some]
  exact ⟨fun h => ⟨h.asked, h.named, h.made⟩, fun h => ⟨h.1, h.2.1, h.2.2⟩⟩

theorem Listener.triesOwn_finishClose (x : Listener) (host : Host) (quiet : Bool)
    (r : Except IoError Unit) : TriesOwn x.CleansUp host (x.finishClose host quiet r).2.tree :=
  (triesOwn_finishEnd ..).mono fun _ _ => cleansUp_iff

theorem Listener.triesOwn_finishGiveUp (host : Host) (path : Path) (created : Option FileId)
    (cause : ListenerError) : TriesOwn (fun p f => p = path ∧ created = some f) host
      (finishGiveUp host path created cause).2.tree :=
  (triesOwn_finishEnd ..).mono fun _ _ => madeAt_eq_some.symm

end Ends

/-! ## Reactions -/

/-- The path at which a task is about to remove what is there. -/
def Task.removes? : Task → Option Path
  | clearing _ path _ | sweeping path _ _ _ => some path
  | _ => none

theorem Task.takes_files_of_removes? {t : Task} {path : Path} (h : t.removes? = some path) :
    t.takes .files = true := by
  cases t <;> first | rfl | simp [removes?] at h

/-- What a reaction of a listener makes of the files. -/
inductive Reshapes (x : Listener) (host : Host) : Trigger → Tree → Prop
  | nothing (g : Trigger) : Reshapes x host g host.tree
  | mode (k : Fd) (path : Path) (created : Option FileId) (mode : UInt32) (tree : Tree)
      (hm : x.config.mode = some mode) (ht : host.tree.changeMode path mode = .ok tree) :
      Reshapes x host (.reply (.listening k path created) (.done (.ok ()))) tree
  | dead (path : Path) (fd : Fd) (address : AddressRecord) (f : FileId)
      (hc : x.checkBind path = .ok (fd, address)) (hs : SocketAt host path f)
      (hr : Refused host path) (hg : host.tree.Removes path f) :
      Reshapes x host (.bind path) (host.tree.erase f)
  | givenUp (fd : Fd) (path : Path) (f : FileId) (cause : ListenerError) (r : Except IoError Unit)
      (hs : SocketAt host path f) (hg : host.tree.Removes path f) :
      Reshapes x host (.reply (.givingUp fd path (some f) cause) (.done r)) (host.tree.erase f)
  | closed (fd : Fd) (quiet : Bool) (r : Except IoError Unit) (path : Path) (f : FileId)
      (hc : x.CleansUp path f) (hs : SocketAt host path f) (hg : host.tree.Removes path f) :
      Reshapes x host (.reply (.closing fd quiet) (.done r)) (host.tree.erase f)
  | late (t : Task) (path : Path) (f : FileId) (ht : t.removes? = some path)
      (hg : host.tree.Removes path f) : Reshapes x host (.reply t .files) (host.tree.erase f)

section Reactions

variable {x : Listener} {host : Host} {g : Trigger} {path : Path} {f : FileId} {quiet : Bool}
  {p : Path → FileId → Prop}

/-- Half way through a bind the listener has its descriptor, so no file goes yet. -/
theorem Listener.giveUp_eq (h : x.Binding) (host : Host) (path : Path) (created : Option FileId)
    (cause : ListenerError) :
    ∃ fd, x.giveUp host path created cause =
      (.waits (.givingUp fd path created cause), x.retired, host) := by
  obtain ⟨fd, hfd⟩ := Option.isSome_iff_exists.mp h.2
  exact ⟨fd, by simp [giveUp, hfd, retired]⟩

/-- A close finds its listener closed or its descriptor in place, or there is no path yet. -/
theorem Listener.Owns.tree_beginClose (h : x.Owns p) :
    (x.beginClose host quiet).2.2.tree = host.tree := by
  unfold beginClose
  split
  · rfl
  rename_i hc
  split
  · rfl
  · rename_i hslot
    have hpath : x.path = none := by
      refine h.named ?_
      cases hp : x.phase with
      | unbound => rfl
      | bound =>
        have := h.live hp
        simp [hslot] at this
      | closed => exact absurd hp hc
    refine (triesOwn_finishClose _ host quiet (.ok ())).spared fun path f hclean => ?_
    have := hclean.named
    simp [hpath] at this

theorem Listener.tree_afterListen (h : x.Binding) (fd : Fd) (created : Option FileId)
    (r : Except IoError Unit) :
    Reshapes x host (.reply (.listening fd path created) (.done r))
      (x.afterListen host path created r).2.2.tree := by
  -- a bind that gives up has its descriptor closed first, and removes its file after that
  unfold afterListen
  split
  · obtain ⟨k, heq⟩ := giveUp_eq h host path created (.native .listen ‹_›)
    rw [heq]
    exact .nothing _
  · rename_i u
    rcases hmode : applyMode x.config host path with e | host'
    · obtain ⟨k, heq⟩ := giveUp_eq h host path created (.native .bind e)
      simp only [heq]
      exact .nothing _
    · unfold applyMode at hmode
      split at hmode
      · obtain rfl := Except.ok.inj hmode
        exact .nothing _
      · rename_i mode hm
        rcases htree : host.tree.changeMode path mode with e | tree
        · simp [htree, Except.map] at hmode
        · obtain rfl : { host with tree } = host' := by simpa [htree, Except.map] using hmode
          exact .mode fd path created mode tree hm htree

theorem Listener.tree_afterProbe (host : Host) (fd : Fd) (path : Path) (address : AddressRecord) :
    (afterProbe host fd path address).2.tree = host.tree := by
  rw [← tree_isDead host path]
  unfold afterProbe
  split <;> simp [*]

theorem Listener.tree_afterClear (host : Host) (fd : Fd) (path : Path) (address : AddressRecord) :
    (afterClear host fd path address).2 = (remove host path).2 := by
  unfold afterClear
  split <;> simp [*]

/-- A late removal takes away what is at the path by then. -/
theorem Reshapes.of_remove {t : Task} {tree : Tree} (ht : t.removes? = some path)
    (h : (remove host path).2.tree = tree) : Reshapes x host (.reply t .files) tree := by
  subst h
  rcases tree_remove host path with hsame | ⟨f, hg, heq⟩
  · exact hsame ▸ .nothing _
  · exact heq ▸ .late t path f ht hg

theorem Listener.reply_reshapes {reply : Reply} (hf : Fits p host x (.reply t reply))
    (hm : t.Meets reply) :
    Reshapes x host (.reply t reply) (x.react host (.reply t reply)).2.2.tree := by
  have hsame : ∀ {host' : Host}, host'.tree = host.tree →
      Reshapes x host (.reply t reply) host'.tree := fun h => h ▸ .nothing _
  cases hm with
  | listening fd path created r => exact tree_afterListen (hf.binds _ _ rfl rfl) fd created r
  | givingUp fd path created cause r =>
    rcases (triesOwn_finishGiveUp host path created cause).cases with
      htree | ⟨p, f, ⟨rfl, rfl⟩, hs, hg, heq⟩
    · exact hsame htree
    · exact heq ▸ .givenUp fd p f cause r hs hg
  | closing fd quiet r =>
    rcases (triesOwn_finishClose x host quiet r).cases with htree | ⟨path, f, hc, hs, hg, heq⟩
    · exact hsame htree
    · exact heq ▸ .closed fd quiet r path f hc hs hg
  | probing fd path address => exact hsame (tree_afterProbe host fd path address)
  | clearing fd path address =>
    exact .of_remove rfl (congrArg Host.tree (tree_afterClear host fd path address)).symm
  | sweeping path own quiet result => exact .of_remove rfl rfl
  | _ => exact .nothing _

theorem Listener.react_reshapes (ho : x.Owns p) (hf : Fits p host x g) :
    Reshapes x host g (x.react host g).2.2.tree := by
  have hsame : ∀ {host' : Host}, host'.tree = host.tree → Reshapes x host g host'.tree :=
    fun h => h ▸ .nothing g
  cases g with
  | bind path =>
    simp only [react, beginBind]
    split
    · exact .nothing _
    · -- past the check, what may go is a socket that nobody listens at
      rename_i fd address hcheck
      have hclear := clearWay_tree host path
      split <;> rename_i heq <;> rw [heq] at hclear <;>
        rcases hclear with htree | ⟨f, hs, hr, hg, hgone⟩
      · exact hsame htree
      · rw [(Prod.mk.inj hgone).2]
        exact .dead path fd address f hcheck hs hr hg
      · exact hsame htree
      · simp at hgone
  | bindSlowly path => exact .nothing _
  | accept => exact .nothing _
  | close quiet => exact hsame ho.tree_beginClose
  | reply t reply =>
    cases htakes : t.takes reply with
    | false =>
      rw [react_untaken htakes]
      exact .nothing _
    | true => exact reply_reshapes hf (Task.meets_of_takes htakes)

end Reactions

/-! ## Steps -/

/-- What a step of `s` on an event makes of the files, where `r` says what is whose own. -/
inductive Alters (r : Nat → Path → FileId → Prop) (s : State) : Event → Tree → Prop
  | nothing (e : Event) : Alters r s e s.host.tree
  /-- A bind gives its file the permissions that are asked for. -/
  | mode (l : Nat) (x : Listener) (fd : Fd) (path : Path) (created : Option FileId)
      (rest : List Frame) (mode : UInt32) (tree : Tree) (hx : s.listeners[l]? = some x)
      (ht : s.tasks = .working l (.listening fd path created) :: rest)
      (hm : x.config.mode = some mode) (htree : s.host.tree.changeMode path mode = .ok tree) :
      Alters r s (.reply (.done (.ok ()))) tree
  /-- A bind removes a socket file on which a connect is refused. -/
  | dead (l : Nat) (x : Listener) (path : Path) (fd : Fd) (address : AddressRecord) (f : FileId)
      (hx : s.listener? l = some x) (hl : s.isLocked l = false)
      (hc : x.checkBind path = .ok (fd, address)) (hs : SocketAt s.host path f)
      (hr : Refused s.host path) (hg : s.host.tree.Removes path f) :
      Alters r s (.start (.bind l path)) (s.host.tree.erase f)
  /-- A bind that has failed half way removes its own file. -/
  | givenUp (l : Nat) (x : Listener) (fd : Fd) (path : Path) (f : FileId) (cause : ListenerError)
      (rest : List Frame) (reply : Except IoError Unit)
      (ht : s.tasks = .working l (.givingUp fd path (some f) cause) :: rest)
      (hx : s.listeners[l]? = some x) (hs : SocketAt s.host path f) (hr : r l path f)
      (hg : s.host.tree.Removes path f) : Alters r s (.reply (.done reply)) (s.host.tree.erase f)
  /-- A close removes the own file of its listener. -/
  | closed (l : Nat) (x : Listener) (fd : Fd) (quiet : Bool) (path : Path) (f : FileId)
      (rest : List Frame) (reply : Except IoError Unit)
      (ht : s.tasks = .working l (.closing fd quiet) :: rest) (hx : s.listeners[l]? = some x)
      (hc : x.CleansUp path f) (hs : SocketAt s.host path f) (hr : r l path f)
      (hg : s.host.tree.Removes path f) : Alters r s (.reply (.done reply)) (s.host.tree.erase f)
  /-- A bind that was refused at its path, or an operation at its end that has seen its own file
  there, removes what is there by now. -/
  | late (l : Nat) (x : Listener) (t : Task) (path : Path) (f : FileId) (rest : List Frame)
      (ht : s.tasks = .working l t :: rest) (hx : s.listeners[l]? = some x)
      (hp : t.removes? = some path) (hr : ∀ own, t.made? = some (path, own) → r l path own)
      (hg : s.host.tree.Removes path f) : Alters r s (.reply .files) (s.host.tree.erase f)

/-- The file that an operation removes at its end, as its own. -/
def Listener.last? (x : Listener) : Task → Option (Path × FileId)
  | .givingUp _ path created _ => madeAt path created
  | .closing .. => x.own?
  | _ => none

/-- The step of `s` on an event takes the file away, where `r` says what is whose own. -/
inductive Takes (r : Nat → Path → FileId → Prop) (s : State) : Event → FileId → Prop
  /-- A bind is refused at the path, and removes the file at once. -/
  | dead (l : Nat) (x : Listener) (path : Path) (fd : Fd) (address : AddressRecord) (f : FileId)
      (hx : s.listener? l = some x) (hl : s.isLocked l = false)
      (hc : x.checkBind path = .ok (fd, address)) (hs : SocketAt s.host path f)
      (hr : Refused s.host path) (hg : s.host.tree.Removes path f) :
      Takes r s (.start (.bind l path)) f
  /-- An operation that looked at the path before removes what is there by now. -/
  | late (l : Nat) (x : Listener) (t : Task) (path : Path) (f : FileId) (rest : List Frame)
      (ht : s.tasks = .working l t :: rest) (hx : s.listeners[l]? = some x)
      (hp : t.removes? = some path) (hg : s.host.tree.Removes path f) : Takes r s (.reply .files) f
  /-- An operation comes to its end that takes the file for its own. -/
  | own (l : Nat) (x : Listener) (t : Task) (path : Path) (f : FileId) (rest : List Frame)
      (reply : Except IoError Unit) (ht : s.tasks = .working l t :: rest)
      (hx : s.listeners[l]? = some x) (ho : x.last? t = some (path, f)) (hr : r l path f)
      (hs : SocketAt s.host path f) (hg : s.host.tree.Removes path f) :
      Takes r s (.reply (.done reply)) f

section Steps

variable {r : Nat → Path → FileId → Prop} {s s' : State} {l : Nat} {x : Listener} {e : Event}
  {t : Task} {rest : List Frame} {reply : Reply} {path : Path} {f : FileId}

/-- A listener that is let go loses no file when its close begins. -/
theorem Traced.tree_letGo (h : Traced r s) (hr : s.Ready l x (.close true)) :
    (s.take l (x.react s.host (.close true))).host.tree = s.host.tree := by
  rw [State.host_take]
  exact (h.owns l x hr.listener).tree_beginClose

theorem State.isLocked_of_not_mem (h : l ∉ s.locks) : s.isLocked l = false :=
  Bool.eq_false_iff.mpr fun hl => h (isLocked_iff.mp hl)

/-- Whatever is recorded, what a turn makes of the files is one of these. -/
theorem Traced.alters_turn (h : Traced (fun _ _ _ => True) s) (ht : Turn s e s')
    (he : ∀ host, e ≠ .world host) : Alters (fun _ _ _ => True) s e s'.host.tree := by
  induction ht with
  | aside e ha => exact ha.tree ▸ .nothing e
  | world host => exact absurd rfl (he host)
  | made config fd rest ht => exact .nothing _
  | dropped l hl => exact .nothing _
  | asked op l x g hop hd hready =>
    rw [State.host_take]
    have hfits : Fits (fun _ _ => True) s.host x g := .of_begun (Operation.asks?_ne_reply hop)
    have hshape := Listener.react_reshapes (h.owns l x hready.listener) hfits
    generalize (x.react s.host g).2.2.tree = tree at hshape
    cases hshape with
    | nothing => exact .nothing _
    | dead path fd address f hc hs hrefused hg =>
      cases op with
      | bind k p =>
        obtain ⟨rfl, rfl⟩ : k = l ∧ p = path := by simpa [Operation.asks?] using hop
        have hfree := State.isLocked_of_not_mem (hready.free rfl)
        exact .dead k x p fd address f (State.listener?_of_get hd hready.listener) hfree hc hs
          hrefused hg
      | _ => simp [Operation.asks?] at hop
    | mode | givenUp | closed | late => exact absurd rfl (Operation.asks?_ne_reply hop _ _)
  | answered l x t reply rest ht htakes hx =>
    rw [State.host_take]
    have hfits : Fits (fun _ _ => True) s.host x (.reply t reply) :=
      h.fits ht hx fun _ _ _ _ _ _ _ _ => trivial
    have hshape := Listener.react_reshapes (h.owns l x hx) hfits
    generalize (x.react s.host (.reply t reply)).2.2.tree = tree at hshape
    cases hshape with
    | nothing => exact .nothing _
    | mode k path created mode tree hm htree =>
      exact .mode l x k path created rest mode tree hx ht hm htree
    | givenUp fd path f cause reply hs hg =>
      exact .givenUp l x fd path f cause rest reply ht hx hs trivial hg
    | closed fd quiet reply path f hc hs hg =>
      exact .closed l x fd quiet path f rest reply ht hx hc hs trivial hg
    | late t path f hp hg => exact .late l x t path f rest ht hx hp (fun _ _ => trivial) hg
  | letGo e m l x ht hready ih =>
    rw [(h.turn ht fun _ _ _ _ _ _ _ _ _ => trivial).tree_letGo hready]
    exact ih he

/-- What goes at the end of a listener is what was recorded as its own. -/
theorem Traced.alters_step (h : Traced r s) (he : ∀ host, e ≠ .world host) :
    Alters r s e (s.step e).host.tree := by
  have hany := (h.mono fun _ _ _ _ => trivial).alters_turn (s.turn_step e) he
  generalize (s.step e).host.tree = tree at hany
  cases hany with
  | nothing => exact .nothing e
  | mode l x fd path created rest mode tree hx ht hm htree =>
    exact .mode l x fd path created rest mode tree hx ht hm htree
  | dead l x path fd address f hx hl hc hs hr hg =>
    exact .dead l x path fd address f hx hl hc hs hr hg
  | givenUp l x fd path f cause rest reply ht hx hs _ hg =>
    have hown := h.made l (.givingUp fd path (some f) cause) path f (by simp [ht]) rfl
    exact .givenUp l x fd path f cause rest reply ht hx hs hown hg
  | closed l x fd quiet path f rest reply ht hx hc hs _ hg =>
    have hown := (h.owns l x hx).file path f hc.named hc.made
    exact .closed l x fd quiet path f rest reply ht hx hc hs hown hg
  | late l x t path f rest ht hx hp _ hg =>
    exact .late l x t path f rest ht hx hp (fun own hm => h.made l t path own (by simp [ht]) hm) hg

/-! ### Single steps -/

theorem State.step_answered (ht : s.tasks = .working l t :: rest)
    (htakes : State.Frame.takes (.working l t) reply = true) (hx : s.listeners[l]? = some x) :
    s.step (.reply reply) = ({ s with tasks := rest }.note (.replied reply)).advanceWith l
      (x.react s.host (.reply t reply)) := by
  have hx' : ({ s with tasks := rest }.note (.replied reply)).listeners[l]? = some x := hx
  simp only [State.step, State.reply, ht, htakes, if_true, State.resumeFrame, hx']
  exact State.resume_eq hx' htakes

/-- A listener that has an owner is not let go. -/
theorem State.closeUnheld_of_owned (hl : l ∉ s.dropped) : s.closeUnheld l = s :=
  State.closeUnheld_of_held (by simp [isUnheld, hl])

section Owned

variable {u : Task} {y : Listener} {host : Host} {p : Progress}

theorem State.step_waits (ht : s.tasks = .working l t :: rest)
    (htakes : State.Frame.takes (.working l t) reply = true) (hx : s.listener? l = some x)
    (hr : x.react s.host (.reply t reply) = (.waits u, y, host)) :
    s.step (.reply reply) = { ({ s with tasks := rest }.note (.replied reply)).setListener l y with
      host }.wait l y.config u := by
  rw [step_answered ht htakes (listener?_eq_some hx).2, hr]
  rfl

/-- What an operation tells that is over. -/
def Progress.outcome? : Progress → Option Outcome
  | .done => some .done
  | .failed err => some (.failed err)
  | .waits _ | .accepted _ | .over => none

theorem State.step_ends {o : Outcome} (ht : s.tasks = .working l t :: rest)
    (htakes : State.Frame.takes (.working l t) reply = true) (hx : s.listener? l = some x)
    (hr : x.react s.host (.reply t reply) = (p, y, host)) (hp : p.outcome? = some o) :
    s.step (.reply reply) = { s with
      host
      listeners := s.listeners.set l y
      tasks := rest
      history := s.history ++ [.replied reply, .finished o] } := by
  obtain ⟨hd, hget⟩ := listener?_eq_some hx
  rw [step_answered ht htakes hget, hr]
  have hheld : ∀ n : State, n.dropped = s.dropped → n.closeUnheld l = n :=
    fun n hn => closeUnheld_of_owned (hn ▸ hd)
  have hentries : s.history ++ [.replied reply] ++ [.finished o] =
      s.history ++ [.replied reply, .finished o] := List.append_assoc ..
  cases p with
  | done =>
    obtain rfl := Option.some.inj hp
    rw [← hentries]
    exact hheld _ rfl
  | failed err =>
    obtain rfl := Option.some.inj hp
    rw [← hentries]
    exact hheld _ rfl
  | _ => simp [Progress.outcome?] at hp

end Owned

/-- The files after a task has gone on are those that the reaction leaves, even when the listener is
let go then. -/
theorem Traced.tree_answered (h : Traced r s) (ht : s.tasks = .working l t :: rest)
    (htakes : State.Frame.takes (.working l t) reply = true) (hx : s.listeners[l]? = some x) :
    (s.step (.reply reply)).host.tree = (x.react s.host (.reply t reply)).2.2.tree := by
  -- which files are recorded does not matter here
  have hany : Traced (fun _ _ _ => True) s := h.mono fun _ _ _ _ => trivial
  have hturn := hany.turn (Turn.answered l x t reply rest ht htakes hx)
    fun _ _ _ _ _ _ _ _ _ => trivial
  rw [State.step_answered ht htakes hx]
  generalize hm : { s with tasks := rest }.note (.replied reply) = m at hturn
  rcases m.advanceWith_cases l (x.react s.host (.reply t reply)) with heq | heq
  · rw [heq, State.host_take]
  · rw [heq]
    rcases (m.take l (x.react s.host (.reply t reply))).closeUnheld_cases l with
      heq | ⟨y, hready, heq⟩
    · rw [heq, State.host_take]
    · rw [heq, hturn.tree_letGo hready, State.host_take]

/-- A step that a file is lost in takes it away. -/
theorem Traced.takes_of_lost (h : Traced r s) (he : ∀ host, e ≠ .world host)
    (hf : s.host.tree.Holds f) (hn : ¬ (s.step e).host.tree.Holds f) : Takes r s e f := by
  have halters := h.alters_step he
  -- what is lost is the one file that was removed
  have hsame : ∀ {i : FileId}, ¬ (s.host.tree.erase i).Holds f → f = i := fun hlost =>
    Classical.byContradiction fun hne => hlost (hf.erase hne)
  generalize (s.step e).host.tree = tree at halters hn
  cases halters with
  | nothing => exact absurd hf hn
  | mode l x fd path created rest mode tree hx ht hm htree => exact absurd (hf.changeMode htree) hn
  | dead l x path fd address i hx hl hc hs hr hg =>
    exact hsame hn ▸ .dead l x path fd address i hx hl hc hs hr hg
  | givenUp l x fd path i cause rest reply ht hx hs hr hg =>
    exact hsame hn ▸ .own l x _ path i rest reply ht hx rfl hr hs hg
  | closed l x fd quiet path i rest reply ht hx hc hs hr hg =>
    exact hsame hn ▸ .own l x _ path i rest reply ht hx (Listener.cleansUp_iff.mp hc) hr hs hg
  | late l x t path i rest ht hx hp hr hg => exact hsame hn ▸ .late l x t path i rest ht hx hp hg

end Steps

end LocalIpc.Unix

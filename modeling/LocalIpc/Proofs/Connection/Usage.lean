import Mathlib.Data.List.Forall2
import LocalIpc.Connection.Exchange
import LocalIpc.Proofs.History
/-!
# A connection in use

What comes over a connection is read in order, and nothing of it twice. A native read takes what it
gives and no more, also when a strict connection refuses what it gave, so that the next one goes on
behind it. The handle is given back once, by the close or else by the drop.
-/

namespace LocalIpc

/-- A connection in the hands of its owner, over a stream that gives bytes in the order in which
they came. -/
structure Usage where
  /-- The connection was neither closed nor dropped. -/
  held : Bool
  /-- What has come and was not read yet. -/
  unread : Bytes
  /-- The handles passed to the release so far. -/
  released : List Handle

namespace Usage

/-! ## What is done with a connection -/

def start : Usage := ⟨true, [], []⟩

/-- Gives the handle of `c` back. Nobody reads what is left. -/
def letGo (c : Connection) (u : Usage) : Usage := ⟨false, [], u.released ++ [c.handle]⟩

/-- A native read of up to `n` bytes: it takes what comes first, or it fails and takes nothing. -/
inductive Takes (n : Nat) : Bytes → Except IoError Bytes → Bytes → Prop
  | front {data rest : Bytes} : data.length ≤ n → Takes n (data ++ rest) (.ok data) rest
  | failed {unread : Bytes} (e : IoError) : Takes n unread (.error e) unread

inductive Deed
  /-- The owner reads; `native` is what the native read gave, if there was one. -/
  | read (wanted : Nat) (native : Option (Except IoError Bytes)) (given : Except IoError Bytes)
  | write (data : Bytes) (given : Except IoError Nat)
  | flush
  | close (given : Except ListenerError Unit)
  | drop
  /-- The peer has written. -/
  | came (data : Bytes)
  /-- Something that changes neither what can be read nor who holds the connection. -/
  | aside

/-- What native reads took. -/
@[simp]
def Deed.taken : Deed → Bytes
  | .read _ (some (.ok data)) _ => data
  | _ => []

/-- What reads gave to the owner. -/
@[simp]
def Deed.delivered : Deed → Bytes
  | .read _ _ (.ok data) => data
  | _ => []

/-- What has come from the peer. -/
@[simp]
def Deed.arrived : Deed → Bytes
  | .came data => data
  | _ => []

@[simp]
def Deed.letsGo : Deed → Bool
  | .close _ | .drop => true
  | .read .. | .write .. | .flush | .came _ | .aside => false

section Deeds

variable (ds : List Deed)

def taken : Bytes := ds.flatMap Deed.taken

def delivered : Bytes := ds.flatMap Deed.delivered

def arrived : Bytes := ds.flatMap Deed.arrived

@[simp]
theorem taken_snoc (d : Deed) : taken (ds ++ [d]) = taken ds ++ d.taken := by
  simp [taken, List.flatMap_append]

@[simp]
theorem delivered_snoc (d : Deed) : delivered (ds ++ [d]) = delivered ds ++ d.delivered := by
  simp [delivered, List.flatMap_append]

@[simp]
theorem arrived_snoc (d : Deed) : arrived (ds ++ [d]) = arrived ds ++ d.arrived := by
  simp [arrived, List.flatMap_append]

end Deeds

/-- A native read that gives `r` and leaves `rest`. It is noted that it was made. -/
def noted (r : Except IoError Bytes) (rest : Bytes) :
    Nat → Option (Except IoError Bytes) × Bytes →
      Except IoError Bytes × Option (Except IoError Bytes) × Bytes :=
  fun _ _ => (r, some r, rest)

variable {c : Connection} {release : Except IoError Unit} {ds : List Deed} {u u' : Usage} {d : Deed}

inductive Step (c : Connection) (release : Except IoError Unit) : Usage → Deed → Usage → Prop
  | read {u : Usage} {n : Nat} {r given : Except IoError Bytes} {rest after : Bytes}
      {native : Option (Except IoError Bytes)} : u.held = true → Takes n u.unread r rest →
      c.read (noted r rest) n (none, u.unread) = (given, native, after) →
      Step c release u (.read n native given) { u with unread := after }
  | write {u : Usage} {data : Bytes} {r given : Except IoError Nat} : u.held = true →
      c.write (fun _ s => (r, s)) data () = (given, ()) → Step c release u (.write data given) u
  | flush {u : Usage} : u.held = true → Step c release u .flush u
  | close {u : Usage} : u.held = true →
      Step c release u (.close (Connection.closeResult release)) (u.letGo c)
  | drop {u : Usage} : u.held = true → Step c release u .drop (u.letGo c)
  | came {u : Usage} (data : Bytes) :
      Step c release u (.came data) { u with unread := u.unread ++ data }
  | aside {u : Usage} : Step c release u .aside u

/-- What was done with a connection so far, and what has come of it. -/
inductive Steps (c : Connection) (release : Except IoError Unit) : List Deed → Usage → Prop
  | start : Steps c release [] .start
  | snoc {ds : List Deed} {u u' : Usage} {d : Deed} : Steps c release ds u →
      Step c release u d u' → Steps c release (ds ++ [d]) u'

/-! ## How a read is answered -/

/-- What the owner is given by a read of up to `n` bytes, from what the native read gave. -/
inductive Answers (c : Connection) (n : Nat) :
    Option (Except IoError Bytes) → Except IoError Bytes → Prop
  /-- A read of no bytes reaches no native read, of whatever kind the connection is. -/
  | nothing : n = 0 → Answers c n none (.ok [])
  | noStream : n ≠ 0 → c.kind = .pipe → Answers c n none (.error Connection.noStream)
  | failed {e : IoError} : n ≠ 0 → c.kind = .socket → Answers c n (some (.error e)) (.error e)
  /-- A strict connection takes the end of the stream and what fills the buffer. -/
  | whole {data : Bytes} : n ≠ 0 → c.kind = .socket → data.length ≤ n →
      (c.strictLength = true → data = [] ∨ data.length = n) →
      Answers c n (some (.ok data)) (.ok data)
  | short {data : Bytes} : n ≠ 0 → c.kind = .socket → c.strictLength = true → data ≠ [] →
      data.length < n →
      Answers c n (some (.ok data)) (.error (.custom .invalidData
        ("read " ++ toString data.length ++ " bytes, expected " ++ toString n)))

/-- A read is answered by the rules, and takes what its native read gave. -/
theorem answers_of_read {n : Nat} {unread rest after : Bytes} {r given : Except IoError Bytes}
    {native : Option (Except IoError Bytes)} (htakes : Takes n unread r rest)
    (h : c.read (noted r rest) n (none, unread) = (given, native, after)) :
    Answers c n native given ∧ unread = (Deed.read n native given).taken ++ after := by
  unfold Connection.read at h
  split at h
  · obtain ⟨rfl, rfl, rfl⟩ := h
    exact ⟨.nothing ‹_›, rfl⟩
  · rename_i hn
    split at h
    · obtain ⟨rfl, rfl, rfl⟩ := h
      exact ⟨.noStream hn ‹_›, rfl⟩
    · rename_i hkind
      obtain ⟨rfl, rfl, rfl⟩ := h
      cases htakes with
      | failed e => exact ⟨.failed hn hkind, rfl⟩
      | @front data _ hle =>
        refine ⟨?_, rfl⟩
        show Answers c n (some (.ok data)) (c.checkLength n data)
        unfold Connection.checkLength
        split
        · rename_i hshort
          obtain ⟨hstrict, hdata, hlength⟩ := hshort
          exact .short hn hkind hstrict hdata (Nat.lt_of_le_of_ne hle hlength)
        · rename_i hwhole
          refine .whole hn hkind hle fun hstrict => ?_
          by_contra hne
          exact hwhole ⟨hstrict, not_or.mp hne⟩

/-- Without strict length the owner is given all that a native read took. -/
theorem Answers.delivered_eq {n : Nat} {native : Option (Except IoError Bytes)}
    {given : Except IoError Bytes} (h : Answers c n native given)
    (hplain : c.strictLength = false) :
    (Deed.read n native given).delivered = (Deed.read n native given).taken := by
  cases h with
  | nothing | noStream | failed | whole => rfl
  | short _ _ hstrict => rw [hplain] at hstrict; contradiction

/-- What the owner is told: of a read by its rules, of a close whether the release has failed, and
of a write over a pipe that there is no stream for it. -/
def Deed.IsTold (c : Connection) (release : Except IoError Unit) : Deed → Prop
  | .read n native given => Answers c n native given
  | .write _ given => c.kind = .pipe → given = .error Connection.noStream
  | .close given => ∀ e, given = .error e ↔ ∃ e', release = .error e' ∧ e = .native .close e'
  | .flush | .drop | .came _ | .aside => True

theorem Step.isTold (h : Step c release u d u') : d.IsTold c release := by
  cases h with
  | read _ htakes hread => exact (answers_of_read htakes hread).1
  | write _ hwrite =>
    intro hkind
    unfold Connection.write at hwrite
    rw [hkind] at hwrite
    exact (Prod.mk.inj hwrite).1.symm
  | close =>
    intro e
    unfold Connection.closeResult
    cases release <;> simp [eq_comm]
  | flush | drop | came | aside => trivial

/-! ## What holds of every use -/

/-- The promises of a connection to its owner and to whoever waits for its handle. -/
structure Kept (c : Connection) (release : Except IoError Unit) (ds : List Deed) (u : Usage) :
    Prop where
  /-- The handle is given back once, and not before the connection is let go. -/
  released : u.released = if u.held then [] else [c.handle]
  /-- Only a close or a drop gives it back. -/
  byOwner : ds.countP Deed.letsGo = u.released.length
  isTold : ∀ d ∈ ds, d.IsTold c release
  /-- A native read goes on where the one before has stopped. -/
  inOrder : AtEveryPoint (fun before d => taken before ++ d.taken <+: arrived before) ds
  /-- What has come was taken, or it is left to be read. -/
  arrived : ∃ left, arrived ds = taken ds ++ left ∧ (u.held = true → left = u.unread)
  /-- Without strict length the owner is given all that was taken. -/
  plain : c.strictLength = false → delivered ds = taken ds

theorem kept_start : Kept c release [] .start where
  released := rfl
  byOwner := rfl
  isTold := by simp
  inOrder := atEveryPoint_nil
  arrived := ⟨[], rfl, fun _ => rfl⟩
  plain _ := rfl

theorem Kept.step (h : Kept c release ds u) (hstep : Step c release u d u') :
    Kept c release (ds ++ [d]) u' := by
  obtain ⟨left, harrived, hleft⟩ := h.arrived
  have hstart : taken ds <+: Usage.arrived ds := harrived ▸ List.prefix_append _ left
  have htold : ∀ d' ∈ ds ++ [d], d'.IsTold c release :=
    List.forall_mem_append.mpr ⟨h.isTold, by simpa using hstep.isTold⟩
  have hquiet : d.letsGo = false → (ds ++ [d]).countP Deed.letsGo = u.released.length := by
    intro hletsGo
    rw [List.countP_append, List.countP_singleton, hletsGo, h.byOwner]
    rfl
  have hnothing : d.taken = [] →
      AtEveryPoint (fun before d => taken before ++ d.taken <+: Usage.arrived before)
        (ds ++ [d]) := by
    intro htaken
    refine (atEveryPoint_snoc _ _).mpr ⟨h.inOrder, ?_⟩
    rwa [htaken, List.append_nil]
  cases hstep with
  | @read n r given rest after native hheld htakes hread =>
    obtain ⟨hanswers, hunread⟩ := answers_of_read htakes hread
    -- what a native read gave is taken even if the owner is refused it
    have hnext : Usage.arrived ds = taken ds ++ (Deed.read n native given).taken ++ after := by
      rw [harrived, hleft hheld, hunread, List.append_assoc]
    refine ⟨h.released, hquiet rfl, htold, ?_, ⟨after, ?_, fun _ => rfl⟩, fun hplain => ?_⟩
    · exact (atEveryPoint_snoc _ _).mpr ⟨h.inOrder, hnext ▸ List.prefix_append _ after⟩
    · simpa using hnext
    · rw [delivered_snoc, taken_snoc, h.plain hplain, hanswers.delivered_eq hplain]
  | close hheld | drop hheld =>
    -- what was left is lost now, and nobody will read on
    refine ⟨?_, ?_, htold, hnothing rfl, ⟨left, by simpa using harrived, nofun⟩, ?_⟩
    · simp [letGo, h.released, hheld]
    · simp [letGo, List.countP_append, h.byOwner]
    · simpa using h.plain
  | @came data =>
    refine ⟨h.released, hquiet rfl, htold, hnothing rfl, ⟨left ++ data, ?_, fun hheld => ?_⟩, ?_⟩
    · simp [harrived]
    · rw [hleft hheld]
    · simpa using h.plain
  | write | flush | aside =>
    exact ⟨h.released, hquiet rfl, htold, hnothing rfl, ⟨left, by simpa using harrived, hleft⟩,
      by simpa using h.plain⟩

theorem Steps.kept (h : Steps c release ds u) : Kept c release ds u := by
  induction h with
  | start => exact kept_start
  | snoc _ hstep ih => exact ih.step hstep

end Usage

/-! ## Exchanges -/

namespace Exchange

open Usage (Deed Takes noted)

variable {c : Connection} {release : Except IoError Unit} {x : Exchange}

/-- What can be read where a stream is, or is not. -/
def unread (s : Option Stream) : Bytes := s.elim [] fun s => s.near.unread

/-- An exchange, as the owner of its connection sees it. -/
def usage (x : Exchange) : Usage := ⟨x.held, unread x.stream, x.released⟩

/-- The deed that is behind a step and its answer. -/
inductive Shows : Deed → Step → Answer → Prop
  | read {n : Nat} {native : Option (Except IoError Bytes)} {given : Except IoError Bytes} :
      Shows (.read n native given) (.read n) (.data given)
  | write {data : Bytes} {given : Except IoError Nat} :
      Shows (.write data given) (.write data) (.count given)
  | flush : Shows .flush .flush (.count (.ok 0))
  | close {given : Except ListenerError Unit} : Shows (.close given) .close (.done given)
  | drop : Shows .drop .drop (.done (.ok ()))
  | came {data : Bytes} : Shows (.came data) (.peerWrite data) (.count (.ok data.length))
  | gone {t : Step} : Shows .aside t .gone
  | info {c : Connection} : Shows .aside .info (.info c)
  | peerRead {n : Nat} {r : Except IoError Bytes} : Shows .aside (.peerRead n) (.data r)
  | peerWriteFailed {data : Bytes} {e : IoError} :
      Shows .aside (.peerWrite data) (.count (.error e))
  | peerClose : Shows .aside .peerClose (.done (.ok ()))

theorem takes_read {n : Nat} {s s' : Stream} {r : Except IoError Bytes}
    (h : s.read .near n = (r, s')) : Takes n s.near.unread r s'.near.unread := by
  unfold Stream.read at h
  dsimp only at h
  split at h
  · obtain ⟨rfl, rfl⟩ := h
    have htakes := @Takes.front n _ (s.near.unread.drop n)
      (List.length_take_le n s.near.unread)
    rwa [List.take_append_drop] at htakes
  · split at h
    · obtain ⟨rfl, rfl⟩ := h
      exact .failed _
    · split at h <;> obtain ⟨rfl, rfl⟩ := h
      · exact @Takes.front n [] _ (Nat.zero_le n)
      · exact .failed _

theorem takes_nativeRead (n : Nat) (s : Option Stream) :
    Takes n (unread s) (nativeRead n s).1 (unread (nativeRead n s).2) := by
  cases s with
  | none => exact .failed _
  | some s => exact takes_read rfl

/-- A read reaches a native read, or it does not; a note tells which. -/
theorem read_noted {σ : Type} (c : Connection) (native : Nat → σ → Except IoError Bytes × σ)
    (n : Nat) (s : σ) (left : σ → Bytes) :
    ∃ log, c.read (noted (native n s).1 (left (native n s).2)) n (none, left s) =
      ((c.read native n s).1, log, left (c.read native n s).2) := by
  unfold Connection.read
  split
  · exact ⟨none, rfl⟩
  · split
    · exact ⟨none, rfl⟩
    · exact ⟨some _, rfl⟩

theorem unread_nativeWrite (data : Bytes) (s : Option Stream) :
    unread (nativeWrite data s).2 = unread s := by
  cases s with
  | none => rfl
  | some s =>
    simp only [nativeWrite, Stream.write]
    split <;> rfl

/-- A write changes nothing that can be read here. -/
theorem write_noted (c : Connection) (data : Bytes) (s : Option Stream) :
    ∃ r, c.write (fun _ s => (r, s)) data () = ((c.write nativeWrite data s).1, ()) ∧
      unread (c.write nativeWrite data s).2 = unread s := by
  unfold Connection.write
  split
  · exact ⟨.ok 0, rfl, rfl⟩
  · exact ⟨_, rfl, unread_nativeWrite data s⟩

/-- A read at the far end changes nothing at this one. -/
theorem near_read_far (n : Nat) (s : Stream) : (s.read .far n).2.near = s.near := by
  unfold Stream.read
  dsimp only
  split
  · rfl
  · split
    · rfl
    · split <;> rfl

/-- The handle is given back once, and the near end of the stream is closed with it. -/
theorem letGo_eq (x : Exchange) : x.letGo = if x.held then
    { x with
      held := false
      stream := x.stream.map (Stream.close .near)
      released := x.released ++ [x.connection.handle] }
    else x := by
  obtain ⟨c, held, stream, release, released⟩ := x
  cases held <;> rfl

/-- A close tells how the release went, and lets go. -/
theorem close_eq (hheld : x.held = true) :
    x.close = (Connection.closeResult x.release, x.letGo) := by
  obtain ⟨c, held, stream, release, released⟩ := x
  obtain rfl : held = true := hheld
  rfl

theorem usage_letGo (hheld : x.held = true) (hc : x.connection = c) :
    x.letGo.usage = x.usage.letGo c := by
  have hunread : unread (x.stream.map (Stream.close .near)) = [] := by
    cases x.stream <;> rfl
  rw [letGo_eq, if_pos hheld]
  simp only [usage, hunread, hc]
  rfl

/-- A step of the owner is a deed. -/
theorem exists_own_deed (hheld : x.held = true) (hc : x.connection = c) (hr : x.release = release)
    (t : Step) :
    ∃ d, Usage.Step c release x.usage d (x.own t).2.usage ∧ Shows d t (x.own t).1 := by
  cases t with
  | info => exact ⟨.aside, .aside, .info⟩
  | read n =>
    obtain ⟨native, hread⟩ := read_noted c nativeRead n x.stream unread
    subst hc
    exact ⟨.read n native _, .read hheld (takes_nativeRead n x.stream) hread, .read⟩
  | write data =>
    obtain ⟨r, hwrite, hunread⟩ := write_noted c data x.stream
    subst hc
    have hsame : (x.own (.write data)).2.usage = x.usage := by simp only [own, usage, hunread]
    exact ⟨_, hsame ▸ .write hheld hwrite, .write⟩
  | flush => exact ⟨.flush, .flush hheld, .flush⟩
  | close =>
    simp only [own, close_eq hheld, hr]
    exact ⟨_, usage_letGo hheld hc ▸ .close hheld, .close⟩
  | drop => exact ⟨.drop, usage_letGo hheld hc ▸ .drop hheld, .drop⟩
  | peerRead | peerWrite | peerClose => exact ⟨.aside, .aside, .gone⟩

/-- A step of the peer is a deed. What it reads, and its close, change nothing at this end. -/
theorem exists_peer_deed {s : Stream} (hs : x.stream = some s) (t : Step) :
    ∃ d, Usage.Step c release x.usage d (x.peer s t).2.usage ∧ Shows d t (x.peer s t).1 := by
  have husage : x.usage = ⟨x.held, s.near.unread, x.released⟩ := by simp [usage, hs, unread]
  rw [husage]
  cases t with
  | peerRead n =>
    refine ⟨.aside, ?_, .peerRead⟩
    simp only [peer, usage, unread, Option.elim_some, near_read_far]
    exact .aside
  | peerWrite data =>
    by_cases hgone : s.far.hungUp = true
    · have hwrite : s.write .far data = (.error .brokenPipe, s) := if_pos hgone
      simp only [peer, hwrite]
      exact ⟨.aside, .aside, .peerWriteFailed⟩
    · have hwrite : s.write .far data = _ := if_neg hgone
      simp only [peer, hwrite]
      exact ⟨.came data, .came data, .came⟩
  | peerClose => exact ⟨.aside, .aside, .peerClose⟩
  | info | read | write | flush | close | drop =>
    refine ⟨.aside, ?_, .gone⟩
    rw [← husage]
    exact .aside

/-- Every step is a deed. -/
theorem exists_deed (hc : x.connection = c) (hr : x.release = release) (t : Step) :
    ∃ d, Usage.Step c release x.usage d (x.step t).2.usage ∧ Shows d t (x.step t).1 := by
  cases t with
  | peerRead | peerWrite | peerClose =>
    simp only [step]
    split
    · split
      · exact ⟨.aside, .aside, .gone⟩
      · exact exists_peer_deed ‹_› _
    · exact ⟨.aside, .aside, .gone⟩
  | info | read | write | flush | close | drop =>
    simp only [step]
    split
    · exact exists_own_deed ‹_› hc hr _
    · exact ⟨.aside, .aside, .gone⟩

theorem own_keeps (x : Exchange) (t : Step) :
    (x.own t).2.connection = x.connection ∧ (x.own t).2.release = x.release := by
  cases t with
  | close | drop => exact ⟨rfl, rfl⟩
  | info | read | write | flush | peerRead | peerWrite | peerClose => exact ⟨rfl, rfl⟩

theorem peer_keeps (x : Exchange) (s : Stream) (t : Step) :
    (x.peer s t).2.connection = x.connection ∧ (x.peer s t).2.release = x.release := by
  cases t <;> exact ⟨rfl, rfl⟩

theorem step_keeps (x : Exchange) (t : Step) :
    (x.step t).2.connection = x.connection ∧ (x.step t).2.release = x.release := by
  cases t with
  | peerRead | peerWrite | peerClose =>
    simp only [step]
    split
    · split
      · exact ⟨rfl, rfl⟩
      · exact x.peer_keeps _ _
    · exact ⟨rfl, rfl⟩
  | info | read | write | flush | close | drop =>
    simp only [step]
    split
    · exact x.own_keeps _
    · exact ⟨rfl, rfl⟩

theorem connection_run (x : Exchange) (ts : List Step) :
    (x.run ts).2.connection = x.connection := by
  induction ts generalizing x with
  | nil => rfl
  | cons t ts ih => exact (ih (x.step t).2).trans (x.step_keeps t).1

/-- A run of steps is a list of deeds. -/
theorem exists_deeds {ds : List Deed} (hc : x.connection = c) (hr : x.release = release)
    (h : Usage.Steps c release ds x.usage) (ts : List Step) :
    ∃ ds', Usage.Steps c release (ds ++ ds') (x.run ts).2.usage ∧
      List.Forall₂ (fun d p => Shows d p.1 p.2) ds' (ts.zip ((x.run ts).1.map Prod.fst)) := by
  induction ts generalizing x ds with
  | nil => exact ⟨[], by simpa [run] using h, .nil⟩
  | cons t ts ih =>
    obtain ⟨d, hstep, hshows⟩ := exists_deed hc hr t
    obtain ⟨hc', hr'⟩ := step_keeps x t
    obtain ⟨ds', hsteps, hall⟩ := ih (hc'.trans hc) (hr'.trans hr) (h.snoc hstep)
    refine ⟨d :: ds', ?_, .cons hshows hall⟩
    rw [List.append_cons]
    exact hsteps

/-- Once the connection was let go, its handle has been given back once. -/
theorem released_letGo {ds : List Deed} (hc : x.connection = c)
    (h : Usage.Steps c release ds x.usage) : x.letGo.released = [c.handle] := by
  have hreleased : x.released = if x.held = true then [] else [c.handle] := h.kept.released
  rw [letGo_eq]
  split
  · rename_i hheld
    simp [hreleased, hheld, hc]
  · rename_i hheld
    simp [hreleased, hheld]

end Exchange

/-- Whatever the owner of a connection and its peer do, with any stream that gives bytes in the
order in which they came, the promises are kept. Every exchange is such a use, and when its
connection was let go in the end, the handle has been given back once. -/
theorem connection_keeps_promises (c : Connection) (release : Except IoError Unit) :
    (∀ ds u, Usage.Steps c release ds u → Usage.Kept c release ds u) ∧
    ∀ ts, let ended := (Exchange.start c release).run ts
      (∃ ds, Usage.Steps c release ds ended.2.usage ∧ List.Forall₂
        (fun d p => Exchange.Shows d p.1 p.2) ds (ts.zip (ended.1.map Prod.fst))) ∧
      ended.2.letGo.released = [c.handle] := by
  refine ⟨fun _ _ h => h.kept, fun ts => ?_⟩
  have hstart : (Exchange.start c release).usage = .start := by
    unfold Exchange.start Exchange.usage
    split <;> rfl
  obtain ⟨ds, hsteps, hshows⟩ :=
    Exchange.exists_deeds rfl rfl (hstart ▸ Usage.Steps.start) ts
  exact ⟨⟨ds, hsteps, hshows⟩, Exchange.released_letGo (Exchange.connection_run _ ts) hsteps⟩

/-- A strict connection is read in pieces of two. Three bytes come first, and the third of them is
refused; what comes then is read behind it. The release fails. -/
theorem short_read_is_not_repeated :
    let c : Connection := ⟨⟨7⟩, .socket, true⟩
    let short : IoError := .custom .invalidData "read 1 bytes, expected 2"
    let failed : ListenerError := .native .close .interrupted
    let ds : List Usage.Deed := [.came [1, 2, 3], .read 2 (some (.ok [1, 2])) (.ok [1, 2]),
      .read 2 (some (.ok [3])) (.error short), .came [4, 5], .read 0 none (.ok []),
      .read 2 (some (.ok [4, 5])) (.ok [4, 5]), .close (.error failed)]
    let ts : List Exchange.Step :=
      [.peerWrite [1, 2, 3], .read 2, .read 2, .peerWrite [4, 5], .read 0, .read 2, .close, .drop]
    let ended := (Exchange.start c (.error .interrupted)).run ts
    Usage.Kept c (.error .interrupted) ds ⟨false, [], [⟨7⟩]⟩ ∧ Usage.taken ds = [1, 2, 3, 4, 5] ∧
      ended.1.map Prod.fst = [.count (.ok 3), .data (.ok [1, 2]), .data (.error short),
        .count (.ok 2), .data (.ok []), .data (.ok [4, 5]), .done (.error failed), .gone] ∧
      ended.2.letGo.released = [⟨7⟩] := by
  intro c short failed ds ts ended
  obtain ⟨hkept, hexchange⟩ := connection_keeps_promises c (.error .interrupted)
  have htwo : Usage.Takes 2 [1, 2, 3] (.ok [1, 2]) [3] :=
    @Usage.Takes.front 2 [1, 2] [3] (by decide)
  have hone : Usage.Takes 2 [3] (.ok [3]) [] := @Usage.Takes.front 2 [3] [] (by decide)
  have hlast : Usage.Takes 2 [4, 5] (.ok [4, 5]) [] := @Usage.Takes.front 2 [4, 5] [] (by decide)
  have hstart : Usage.Steps c (.error .interrupted) [] .start := .start
  have hfirst := (hstart.snoc (.came [1, 2, 3])).snoc (.read rfl htwo rfl)
  have hshort := (hfirst.snoc (.read rfl hone rfl)).snoc (.came [4, 5])
  have hempty := hshort.snoc (.read (n := 0) rfl (.failed .interrupted) rfl)
  have hsteps := (hempty.snoc (.read rfl hlast rfl)).snoc (.close rfl)
  exact ⟨hkept ds _ hsteps, rfl, rfl, (hexchange ts).2⟩

end LocalIpc

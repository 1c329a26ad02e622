import LocalIpc.Proofs.Host.Queue
/-!
# Streams that were hung up at once

A connect that was hung up before anything was sent leaves a stream in the queue. Nobody can write
to it any more, so whoever accepts it reads nothing but the end of the stream, at any time.
-/

namespace LocalIpc

/-- The streams that a descriptor refers to. -/
def Descriptor.streams : Descriptor → List Nat
  | .listening _ waiting => waiting
  | .stream i _ => [i]
  | .unbound | .bound .. => []

/-- Nobody has written to the far end of the stream, and its near end is gone. -/
structure Stream.IsDead (s : Stream) : Prop where
  unread : s.far.unread = []
  hungUp : s.far.hungUp = true
  reset : s.far.reset = false

namespace Stream

variable {s : Stream}

theorem IsDead.read (h : s.IsDead) (n : Nat) : s.read .far n = (.ok [], s) := by
  simp [Stream.read, get, h.unread, h.hungUp, h.reset]

theorem IsDead.write (h : s.IsDead) (data : Bytes) :
    s.write .far data = (.error .brokenPipe, s) := by
  simp [Stream.write, get, h.hungUp]

theorem IsDead.close (h : s.IsDead) : (s.close .far).IsDead :=
  ⟨rfl, h.hungUp, h.reset⟩

theorem IsDead.refuse (h : s.IsDead) : s.refuse.IsDead :=
  ⟨rfl, h.hungUp, h.reset⟩

theorem isDead_close_fresh : (fresh.close .near).IsDead := ⟨rfl, rfl, rfl⟩

/-- What becomes of a stream in the hands of those who hold its ends, or when nobody wants it. -/
inductive Used (held : Side → Prop) (s : Stream) : Stream → Prop
  | same : Used held s s
  | read {t : Stream} {side : Side} (n : Nat) (ht : Used held s t) (hside : held side) :
      Used held s (t.read side n).2
  | write {t : Stream} {side : Side} (data : Bytes) (ht : Used held s t) (hside : held side) :
      Used held s (t.write side data).2
  | close {t : Stream} {side : Side} (ht : Used held s t) (hside : held side) :
      Used held s (t.close side)
  | refuse {t : Stream} (ht : Used held s t) : Used held s t.refuse

variable {held : Side → Prop} {t u : Stream}

theorem Used.trans (ht : s.Used held t) (hu : t.Used held u) : s.Used held u := by
  induction hu with
  | same => exact ht
  | read n _ hside ih => exact ih.read n hside
  | write data _ hside ih => exact ih.write data hside
  | close _ hside ih => exact ih.close hside
  | refuse _ ih => exact ih.refuse

/-- Nobody wakes a dead stream from its far end. -/
theorem IsDead.used (hs : s.IsDead) (hfar : ∀ side, held side → side = .far)
    (ht : s.Used held t) : t.IsDead := by
  induction ht with
  | same => exact hs
  | read n _ hside ih =>
    obtain rfl := hfar _ hside
    rwa [ih.read]
  | write data _ hside ih =>
    obtain rfl := hfar _ hside
    rwa [ih.write]
  | close _ hside ih =>
    obtain rfl := hfar _ hside
    exact ih.close
  | refuse _ ih => exact ih.refuse

end Stream

namespace Host

variable {h : Host} {fd k : Fd} {n : Nat} {path : Path} {file : FileId} {waiting : List Nat}

/-- Descriptors refer to streams that there are. -/
def Sound (h : Host) : Prop := ∀ x ∈ h.descriptors, ∀ n ∈ x.2.streams, n < h.streams.length

/-- The stream was hung up before anything was sent. -/
structure Silent (h : Host) (n : Nat) : Prop where
  dead : ∃ s, h.streams[n]? = some s ∧ s.IsDead
  gone : ∀ x ∈ h.descriptors, x.2 ≠ .stream n .near

/-- Whoever reads the other end finds the end of the stream. -/
theorem Silent.read (hs : h.Silent n) (hd : h.descriptor? fd = some (.stream n .far)) (len : Nat) :
    (h.read fd len).1 = .ok [] := by
  obtain ⟨s, hget, hdead⟩ := hs.dead
  simp [Host.read, onEnd, hd, hget, hdead.read]

/-- What stands behind a descriptor after a step, where it does not stand there before. -/
structure Stems (h h' : Host) (d : Descriptor) : Prop where
  streams : ∀ n ∈ d.streams, (∃ x ∈ h.descriptors, n ∈ x.2.streams) ∨
    n = h.streams.length ∧ n < h'.streams.length
  near : ∀ n, d = .stream n .near → n = h.streams.length

theorem stems_of_streams {h' : Host} {d : Descriptor} (hd : d.streams = []) : h.Stems h' d := by
  refine ⟨by simp [hd], ?_⟩
  rintro n rfl
  simp [Descriptor.streams] at hd

theorem mem_setDescriptor {d : Descriptor} {x : Fd × Descriptor}
    (hx : x ∈ (h.setDescriptor k d).descriptors) : x = (k, d) ∨ x ∈ h.descriptors :=
  (List.mem_cons.mp hx).imp_right fun hx => (List.mem_filter.mp hx).1

theorem mem_openFd {d : Descriptor} {x : Fd × Descriptor}
    (hx : x ∈ (h.openFd d).2.descriptors) : x = (h.nextFd, d) ∨ x ∈ h.descriptors :=
  List.mem_cons.mp hx

theorem mem_joined {x : Fd × Descriptor}
    (hx : x ∈ (h.joined k file waiting).descriptors) :
    x = (h.nextFd, .stream h.streams.length .near) ∨ x ∈ h.descriptors ∨
      x.2 = .listening file (waiting ++ [h.streams.length]) := by
  rcases mem_openFd hx with rfl | hx
  · exact .inl rfl
  · rcases mem_setDescriptor hx with rfl | hx
    · exact .inr (.inr rfl)
    · exact .inr (.inl hx)

theorem stems_joined {h' : Host} {d : Descriptor} (hat : h.listenerAt path = .ok (k, file, waiting))
    (hlength : h.streams.length < h'.streams.length)
    (hd : d = .stream h.streams.length .near ∨
      d = .listening file (waiting ++ [h.streams.length])) : h.Stems h' d := by
  rcases hd with rfl | rfl
  · refine ⟨fun n hn => .inr ?_, fun n hn => ?_⟩
    · exact ⟨List.mem_singleton.mp hn, List.mem_singleton.mp hn ▸ hlength⟩
    · exact (Descriptor.stream.inj hn).1.symm
  · refine ⟨fun n hn => ?_, by simp⟩
    rcases List.mem_append.mp hn with hn | hn
    · exact .inl ⟨_, listenerAt_mem hat, hn⟩
    · exact .inr ⟨List.mem_singleton.mp hn, List.mem_singleton.mp hn ▸ hlength⟩

/-! ### What becomes of streams -/

/-- Streams that there are stay where they are and are used by those who hold them. -/
def StreamsUsed (held : Nat → Side → Prop) (before after : List Stream) : Prop :=
  ∀ (i : Nat) (s : Stream), before[i]? = some s → ∃ t, after[i]? = some t ∧ s.Used (held i) t

section StreamsUsed

variable {held : Nat → Side → Prop} {before after : List Stream}

theorem streamsUsed_refl (held : Nat → Side → Prop) (streams : List Stream) :
    StreamsUsed held streams streams :=
  fun _ s hs => ⟨s, hs, .same⟩

theorem streamsUsed_append (held : Nat → Side → Prop) (streams new : List Stream) :
    StreamsUsed held streams (streams ++ new) := by
  intro i s hs
  obtain ⟨hlt, -⟩ := List.getElem?_eq_some_iff.mp hs
  exact ⟨s, (List.getElem?_append_left hlt).trans hs, .same⟩

theorem streamsUsed_modify (streams : List Stream) {k : Nat} {f : Stream → Stream}
    (hf : ∀ s : Stream, s.Used (held k) (f s)) : StreamsUsed held streams (streams.modify k f) := by
  intro i s hs
  by_cases hk : k = i
  · subst hk
    exact ⟨f s, by simp [hs], hf s⟩
  · exact ⟨s, by simp [hk, hs], .same⟩

theorem streamsUsed_refuse (held : Nat → Side → Prop) (h : Host) (waiting : List Nat) :
    StreamsUsed held h.streams (h.refuse waiting).streams := by
  unfold refuse
  induction waiting generalizing h with
  | nil => exact streamsUsed_refl held _
  | cons k waiting ih =>
    intro i s hs
    have hfirst : StreamsUsed held h.streams (h.onStream k Stream.refuse).streams :=
      streamsUsed_modify h.streams fun _ => .refuse .same
    obtain ⟨t, ht, hst⟩ := hfirst i s hs
    obtain ⟨u, hu, htu⟩ := ih (h.onStream k Stream.refuse) i t ht
    exact ⟨u, hu, hst.trans htu⟩

theorem StreamsUsed.length_le (hused : StreamsUsed held before after) :
    before.length ≤ after.length := by
  refine Nat.le_of_not_lt fun hlt => ?_
  obtain ⟨t, ht, -⟩ := hused after.length before[after.length] (List.getElem?_eq_getElem hlt)
  simp at ht

end StreamsUsed

/-- Somebody holds this end of a stream. -/
def Holds (h : Host) (i : Nat) (side : Side) : Prop :=
  ∃ fd, h.descriptor? fd = some (.stream i side)

theorem streamsUsed_close (h : Host) (k : Fd) :
    StreamsUsed h.Holds h.streams (h.close k).2.streams := by
  unfold close
  split
  · rename_i i side hk
    exact streamsUsed_modify h.streams fun _ => .close .same ⟨k, hk⟩
  · exact streamsUsed_refuse _ h _
  · exact streamsUsed_refl _ _
  · exact streamsUsed_refl _ _

theorem streamsUsed_onEnd {α : Type} (h : Host) (k : Fd)
    {use : Side → Stream → Except IoError α × Stream}
    (huse : ∀ (held : Side → Prop) (side : Side) (s : Stream), held side →
      s.Used held (use side s).2) :
    StreamsUsed h.Holds h.streams (h.onEnd k use).2.streams := by
  unfold onEnd
  split
  · rename_i i side hk
    split
    · exact streamsUsed_modify h.streams fun s => huse _ side s ⟨k, hk⟩
    · exact streamsUsed_refl _ _
  · exact streamsUsed_refl _ _
  · exact streamsUsed_refl _ _

theorem streams_joined : (h.joined k file waiting).streams = h.streams ++ [.fresh] := rfl

/-- A stream that is hung up at once comes behind the others. -/
theorem streams_close_joined : ((h.joined k file waiting).close h.nextFd).2.streams =
    h.streams ++ [Stream.fresh.close .near] := by
  have hopened : (h.joined k file waiting).descriptor? h.nextFd =
      some (.stream h.streams.length .near) := by
    rw [descriptor?_joined, if_pos rfl]
  simp [close, hopened, onStream, streams_joined, List.modify_eq_take_cons_drop]

/-- Whatever is done to sockets, streams are used by those who hold them, and others come behind. -/
theorem streamsUsed_deal (h : Host) (x : Deal) :
    StreamsUsed h.Holds h.streams (h.deal x).streams := by
  cases x with
  | idle => exact streamsUsed_refl _ _
  | socket => exact streamsUsed_refl _ _
  | bind k path =>
    simp only [deal, bind]
    split
    · split <;> exact streamsUsed_refl _ _
    · exact streamsUsed_refl _ _
    · exact streamsUsed_refl _ _
  | listen k =>
    simp only [deal, listen]
    split <;> exact streamsUsed_refl _ _
  | accept k =>
    simp only [deal]
    rcases h.accept_cases k with ⟨file, i, rest, -, haccept⟩ | ⟨-, hsame, -⟩
    · rw [haccept]
      exact streamsUsed_refl _ _
    · rw [hsame]
      exact streamsUsed_refl _ _
  | shutdown k =>
    simp only [deal, shutdown]
    split
    · exact streamsUsed_refuse _ h _
    · exact streamsUsed_refl _ _
    · exact streamsUsed_refl _ _
  | close k => exact h.streamsUsed_close k
  | connect path =>
    simp only [deal]
    rcases h.connect_cases path with ⟨k, file, waiting, -, hc⟩ | ⟨e, -, hc⟩ <;> rw [hc]
    · exact streamsUsed_append _ _ _
    · exact streamsUsed_refl _ _
  | probe path =>
    simp only [deal]
    rcases h.probe_cases path with ⟨k, file, waiting, -, hc⟩ | ⟨e, -, hc⟩ <;> rw [hc]
    · rw [streams_close_joined]
      exact streamsUsed_append _ _ _
    · exact streamsUsed_refl _ _
  | read k n => exact h.streamsUsed_onEnd k fun _ _ _ hside => .read n .same hside
  | write k data => exact h.streamsUsed_onEnd k fun _ _ _ hside => .write data .same hside

theorem length_streams_deal (h : Host) (x : Deal) :
    h.streams.length ≤ (h.deal x).streams.length :=
  (h.streamsUsed_deal x).length_le

/-! ### What stands behind descriptors -/

/-- Every descriptor was there before, or it stems from what was there. -/
theorem stems_deal (x : Deal) {y : Fd × Descriptor} (hy : y ∈ (h.deal x).descriptors) :
    y ∈ h.descriptors ∨ h.Stems (h.deal x) y.2 := by
  have houtcome := h.outcome_deal x
  generalize h.deal x = h' at houtcome hy ⊢
  cases houtcome with
  | kept quiet same => exact .inl (same ▸ hy)
  | turned k quiet before turns after =>
    rw [after] at hy
    rcases mem_setDescriptor hy with rfl | hy
    · exact .inr (stems_of_streams (by cases turns <;> rfl))
    · exact .inl hy
  | opened after =>
    subst after
    rcases mem_openFd hy with rfl | hy
    · exact .inr (stems_of_streams rfl)
    · exact .inl hy
  | admitted k before after =>
    subst after
    have hwaits := mem_of_descriptor? before
    rcases mem_openFd hy with rfl | hy
    · refine .inr ⟨fun n hn => .inl ⟨_, hwaits, ?_⟩, by simp⟩
      rw [List.mem_singleton.mp hn]
      exact List.mem_cons_self
    · rcases mem_setDescriptor hy with rfl | hy
      · exact .inr ⟨fun n hn => .inl ⟨_, hwaits, List.mem_cons_of_mem _ hn⟩, by simp⟩
      · exact .inl hy
  | joined path k reached after =>
    subst after
    rcases mem_joined hy with rfl | hold | hnew
    · exact .inr (stems_joined reached (by simp [streams_joined]) (.inl rfl))
    · exact .inl hold
    · exact .inr (stems_joined reached (by simp [streams_joined]) (.inr hnew))
  | probed path k reached after =>
    subst after
    rcases mem_joined ((mem_descriptors_close _ _ y).mp hy).1 with rfl | hold | hnew
    · exact .inr (stems_joined reached (by simp [streams_close_joined]) (.inl rfl))
    · exact .inl hold
    · exact .inr (stems_joined reached (by simp [streams_close_joined]) (.inr hnew))
  | closed k after =>
    subst after
    exact .inl ((mem_descriptors_close h k y).mp hy).1

theorem Sound.deal (hs : h.Sound) (x : Deal) : (h.deal x).Sound := by
  intro y hy n hn
  have hlength := h.length_streams_deal x
  rcases stems_deal x hy with hold | hstems
  · exact Nat.lt_of_lt_of_le (hs y hold n hn) hlength
  · rcases hstems.streams n hn with ⟨z, hz, hnz⟩ | ⟨-, hlt⟩
    · exact Nat.lt_of_lt_of_le (hs z hz n hnz) hlength
    · exact hlt

/-- Descriptors stand for one thing each, and refer to streams that there are. -/
structure Tidy (h : Host) : Prop where
  sole : ∀ fd, h.Sole fd
  sound : h.Sound

theorem tidy_of_closed (hd : h.descriptors = []) : h.Tidy := by
  constructor <;> simp [Sole, Sound, hd]

theorem Tidy.deal (ht : h.Tidy) (x : Deal)
    (hfresh : ∀ fd, h.opens? x = some fd → h.descriptor? fd = none) : (h.deal x).Tidy where
  sole fd := sole_deal (ht.sole fd) x (hfresh fd)
  sound := ht.sound.deal x

/-! ### A dead stream stays dead -/

/-- The stream is dead. -/
def DeadAt (h : Host) (n : Nat) : Prop := ∃ s, h.streams[n]? = some s ∧ s.IsDead

theorem DeadAt.used {h' : Host} {held : Nat → Side → Prop} (hd : h.DeadAt n)
    (hused : StreamsUsed held h.streams h'.streams) (hfar : ∀ side, held n side → side = .far) :
    h'.DeadAt n := by
  obtain ⟨s, hget, hdead⟩ := hd
  obtain ⟨t, ht, hst⟩ := hused n s hget
  exact ⟨t, ht, hdead.used hfar hst⟩

/-- Only the far end of a silent stream is held. -/
theorem Silent.far_of_holds (hs : h.Silent n) {side : Side} (hheld : h.Holds n side) :
    side = .far := by
  obtain ⟨k, hk⟩ := hheld
  cases side with
  | far => rfl
  | near => exact absurd rfl (hs.gone _ (mem_of_descriptor? hk))

theorem Silent.gone_deal (hs : h.Silent n) (x : Deal) :
    ∀ y ∈ (h.deal x).descriptors, y.2 ≠ .stream n .near := by
  obtain ⟨s, hget, -⟩ := hs.dead
  have hlt := (List.getElem?_eq_some_iff.mp hget).1
  intro y hy heq
  rcases stems_deal x hy with hold | hstems
  · exact hs.gone y hold heq
  · exact Nat.ne_of_lt hlt (hstems.near n heq)

/-- Nothing that is done to sockets wakes a silent stream. -/
theorem Silent.deal (hs : h.Silent n) (x : Deal) : (h.deal x).Silent n where
  dead := DeadAt.used hs.dead (h.streamsUsed_deal x) fun _ => hs.far_of_holds
  gone := hs.gone_deal x

/-- A connect that is hung up at once leaves a silent stream in the queue. -/
theorem silent_probe (hs : h.Sound) (hat : h.listenerAt path = .ok (k, file, waiting)) :
    (Unix.probe h path).2.Silent h.streams.length := by
  obtain ⟨k', file', waiting', hat', hprobe⟩ | ⟨e, he, -⟩ := h.probe_cases path
  rotate_left
  · rw [hat] at he
    contradiction
  rw [hprobe]
  constructor
  · exact ⟨Stream.fresh.close .near, by simp [streams_close_joined], Stream.isDead_close_fresh⟩
  · intro y hy heq
    obtain ⟨hy, hne⟩ := (mem_descriptors_close _ _ y).mp hy
    rcases mem_joined hy with rfl | hold | hnew
    · exact hne rfl
    · exact Nat.lt_irrefl _ (hs y hold _ (by simp [heq, Descriptor.streams]))
    · rw [hnew] at heq
      simp at heq

end Host

end LocalIpc

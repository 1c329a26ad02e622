import LocalIpc.Session.Copy
import LocalIpc.Proofs.History
/-!
# What a copier does for its client

A copier goes from native call to native call, and holds what was read and is still to be written.
It reads again only when it holds nothing, and a write offers all that it holds. So what it has
written is always a start of what it has read, and nothing is held back when its client hangs up.
-/

namespace LocalIpc

/-! ## From call to call -/

/-- Where a copier stands. -/
inductive Copier
  /-- So many bytes were read, and the last of them are still to be written. -/
  | going (total : Nat) (pending : Bytes)
  | ended (result : Except IoError Nat)

namespace Copier

/-- A native call with what it gave. -/
inductive Call
  | read (given : Except IoError Bytes)
  | write (offered : Bytes) (given : Except IoError Nat)

/-- What passes in a call. -/
def Call.transfer? : Call → Option Transfer
  | .read (.ok data) => if data = [] then none else some (.read data)
  | .write offered (.ok n) => if n = 0 then none else some (.wrote (offered.take n))
  | .read (.error _) | .write _ (.error _) => none

def bytesRead (calls : List Call) : Bytes := Transfer.bytesRead (calls.filterMap Call.transfer?)

def bytesWritten (calls : List Call) : Bytes :=
  Transfer.bytesWritten (calls.filterMap Call.transfer?)

/-- What a call failed with. An interrupted call is made again. -/
def Call.failure? : Call → Option IoError
  | .read (.error e) | .write _ (.error e) => if e.kind = .interrupted then none else some e
  | .write _ (.ok 0) => some nothingTaken
  | .write _ (.ok (_ + 1)) | .read (.ok _) => none

/-- One call. A copier that holds nothing reads; one that holds something offers all of it. -/
inductive Step : Copier → Call → Copier → Prop
  | hungUp {total : Nat} : Step (.going total []) (.read (.ok [])) (.ended (.ok total))
  | piece {total : Nat} {data : Bytes} : data ≠ [] →
      Step (.going total []) (.read (.ok data)) (.going (total + data.length) data)
  | readAgain {total : Nat} {e : IoError} : e.kind = .interrupted →
      Step (.going total []) (.read (.error e)) (.going total [])
  | readFailed {total : Nat} {e : IoError} : e.kind ≠ .interrupted →
      Step (.going total []) (.read (.error e)) (.ended (.error e))
  | wrote {total n : Nat} {pending : Bytes} : pending ≠ [] → n ≠ 0 →
      Step (.going total pending) (.write pending (.ok n)) (.going total (pending.drop n))
  | nothingTaken {total : Nat} {pending : Bytes} : pending ≠ [] →
      Step (.going total pending) (.write pending (.ok 0)) (.ended (.error nothingTaken))
  | writeAgain {total : Nat} {pending : Bytes} {e : IoError} : pending ≠ [] →
      e.kind = .interrupted →
      Step (.going total pending) (.write pending (.error e)) (.going total pending)
  | writeFailed {total : Nat} {pending : Bytes} {e : IoError} : pending ≠ [] →
      e.kind ≠ .interrupted →
      Step (.going total pending) (.write pending (.error e)) (.ended (.error e))

/-- These calls lead from one place to another. -/
inductive Steps : Copier → List Call → Copier → Prop
  | nil (k : Copier) : Steps k [] k
  | cons {k k₁ k₂ : Copier} {c : Call} {cs : List Call} : Step k c k₁ → Steps k₁ cs k₂ →
      Steps k (c :: cs) k₂

/-- The call gives what comes next in its list. Behind the lists the stream ends, and writes take
all. -/
def Call.Comes (reads : List (Except IoError Bytes)) (writes : List (Except IoError Nat)) :
    Call → Prop
  | .read given => given = reads.head?.getD (.ok [])
  | .write offered given => given = writes.head?.getD (.ok offered.length)

def Call.readsLeft (reads : List (Except IoError Bytes)) : Call → List (Except IoError Bytes)
  | .read _ => reads.tail
  | .write .. => reads

def Call.writesLeft (writes : List (Except IoError Nat)) : Call → List (Except IoError Nat)
  | .read _ => writes
  | .write .. => writes.tail

/-- The calls give what the lists say. -/
def Scripted : List (Except IoError Bytes) → List (Except IoError Nat) → List Call → Prop
  | _, _, [] => True
  | reads, writes, c :: cs =>
    c.Comes reads writes ∧ Scripted (c.readsLeft reads) (c.writesLeft writes) cs

/-! ## What is written is a start of what was read -/

section Bytes

variable (calls : List Call)

@[simp]
theorem bytesRead_snoc (c : Call) :
    bytesRead (calls ++ [c]) = bytesRead calls ++ bytesRead [c] := by
  simp [bytesRead, Transfer.bytesRead, List.filterMap_append]

@[simp]
theorem bytesWritten_snoc (c : Call) :
    bytesWritten (calls ++ [c]) = bytesWritten calls ++ bytesWritten [c] := by
  simp [bytesWritten, Transfer.bytesWritten, List.filterMap_append]

@[simp]
theorem bytesRead_read (data : Bytes) : bytesRead [.read (.ok data)] = data := by
  by_cases hdata : data = [] <;>
    simp [bytesRead, Transfer.bytesRead, Call.transfer?, hdata]

@[simp]
theorem bytesRead_read_error (e : IoError) : bytesRead [.read (.error e)] = [] := rfl

@[simp]
theorem bytesWritten_read (given : Except IoError Bytes) : bytesWritten [.read given] = [] := by
  cases given with
  | error e => rfl
  | ok data =>
    by_cases hdata : data = [] <;>
      simp [bytesWritten, Transfer.bytesWritten, Call.transfer?, hdata]

@[simp]
theorem bytesRead_write (offered : Bytes) (given : Except IoError Nat) :
    bytesRead [.write offered given] = [] := by
  cases given with
  | error e => rfl
  | ok n =>
    by_cases hn : n = 0 <;> simp [bytesRead, Transfer.bytesRead, Call.transfer?, hn]

@[simp]
theorem bytesWritten_write (offered : Bytes) (n : Nat) :
    bytesWritten [.write offered (.ok n)] = offered.take n := by
  by_cases hn : n = 0 <;> simp [bytesWritten, Transfer.bytesWritten, Call.transfer?, hn]

@[simp]
theorem bytesWritten_write_error (offered : Bytes) (e : IoError) :
    bytesWritten [.write offered (.error e)] = [] := rfl

end Bytes

/-- A read comes when everything was written, and a write offers just what was not. -/
def InTurn (before : List Call) : Call → Prop
  | .read _ => bytesWritten before = bytesRead before
  | .write offered _ => offered ≠ [] ∧ bytesRead before = bytesWritten before ++ offered

theorem InTurn.written_of_read {before : List Call} {c : Call} (h : InTurn before c) :
    bytesWritten before <+: bytesRead before := by
  cases c with
  | read => exact h ▸ List.prefix_refl _
  | write offered => exact h.2 ▸ List.prefix_append _ offered

/-- How a copier ends, and by which call. -/
inductive Ends (calls : List Call) : Except IoError Nat → Prop
  | hungUp {before : List Call} : calls = before ++ [.read (.ok [])] →
      bytesWritten calls = bytesRead calls → Ends calls (.ok (bytesRead calls).length)
  | readFailed {before : List Call} {e : IoError} : calls = before ++ [.read (.error e)] →
      e.kind ≠ .interrupted → bytesWritten calls = bytesRead calls → Ends calls (.error e)
  | writeFailed {before : List Call} {offered : Bytes} {e : IoError} :
      calls = before ++ [.write offered (.error e)] → e.kind ≠ .interrupted →
      Ends calls (.error e)
  | nothingTaken {before : List Call} {offered : Bytes} :
      calls = before ++ [.write offered (.ok 0)] → Ends calls (.error nothingTaken)

/-- A copy that comes to a number has written back all that it has read. -/
theorem Ends.of_ok {calls : List Call} {n : Nat} (h : Ends calls (.ok n)) :
    bytesWritten calls = bytesRead calls ∧ n = (bytesRead calls).length := by
  cases h with
  | hungUp _ hall => exact ⟨hall, rfl⟩

/-- What the calls have come to by the time that a copier stands there. -/
def Fits (calls : List Call) : Copier → Prop
  | .going total pending =>
    bytesRead calls = bytesWritten calls ++ pending ∧ total = (bytesRead calls).length
  | .ended result => Ends calls result ∧ bytesWritten calls <+: bytesRead calls

/-- Calls that were made in turn and led there. -/
structure Follows (calls : List Call) (k : Copier) : Prop where
  inTurn : AtEveryPoint InTurn calls
  fits : Fits calls k

theorem follows_start : Follows [] (.going 0 []) := ⟨atEveryPoint_nil, rfl, rfl⟩

/-- Who holds nothing has written all. -/
theorem Fits.inTurn_read {calls : List Call} {total : Nat} (h : Fits calls (.going total []))
    (given : Except IoError Bytes) : InTurn calls (.read given) :=
  ((List.append_nil _).symm.trans h.1.symm)

/-- A read that ends a copy comes when all was written, so that nothing is lost. -/
theorem Fits.ended_by_read {calls : List Call} {total : Nat} (h : Fits calls (.going total []))
    {given : Except IoError Bytes} (hnothing : bytesRead [.read given] = []) :
    bytesWritten (calls ++ [.read given]) = bytesRead (calls ++ [.read given]) ∧
      total = (bytesRead (calls ++ [.read given])).length := by
  obtain ⟨hbytes, rfl⟩ := h
  simp [hnothing, hbytes]

theorem Follows.step {calls : List Call} {k k' : Copier} {c : Call} (h : Follows calls k)
    (hstep : Step k c k') : Follows (calls ++ [c]) k' := by
  obtain ⟨hinTurn, hfits⟩ := h
  suffices InTurn calls c ∧ Fits (calls ++ [c]) k' from
    ⟨(atEveryPoint_snoc calls c).mpr ⟨hinTurn, this.1⟩, this.2⟩
  -- only who is going makes a call, and then what was read is what was written and what is held
  obtain ⟨total, pending, rfl⟩ : ∃ total pending, k = .going total pending := by
    cases hstep <;> exact ⟨_, _, rfl⟩
  obtain ⟨hbytes, htotal⟩ := id hfits
  cases hstep with
  | hungUp =>
    obtain ⟨hall, rfl⟩ := hfits.ended_by_read (bytesRead_read [])
    exact ⟨hfits.inTurn_read _, .hungUp rfl hall, hall ▸ List.prefix_refl _⟩
  | readFailed he =>
    obtain ⟨hall, -⟩ := hfits.ended_by_read (bytesRead_read_error _)
    exact ⟨hfits.inTurn_read _, .readFailed rfl he hall, hall ▸ List.prefix_refl _⟩
  | piece => exact ⟨hfits.inTurn_read _, by simp [hbytes], by simp [htotal]⟩
  | readAgain => exact ⟨hfits.inTurn_read _, by simp [hbytes], by simp [htotal]⟩
  | wrote hpending =>
    exact ⟨⟨hpending, hbytes⟩, by simp [hbytes, List.take_append_drop], by simp [htotal]⟩
  | nothingTaken hpending => exact ⟨⟨hpending, hbytes⟩, .nothingTaken rfl, by simp [hbytes]⟩
  | writeAgain hpending => exact ⟨⟨hpending, hbytes⟩, by simp [hbytes], by simp [htotal]⟩
  | writeFailed hpending he => exact ⟨⟨hpending, hbytes⟩, .writeFailed rfl he, by simp [hbytes]⟩

theorem Follows.steps {calls cs : List Call} {k k' : Copier} (h : Follows calls k)
    (hsteps : Steps k cs k') : Follows (calls ++ cs) k' := by
  induction hsteps generalizing calls with
  | nil => rwa [List.append_nil]
  | cons hstep _ ih =>
    rw [List.append_cons]
    exact ih (h.step hstep)

theorem Fits.written_of_read {calls : List Call} {k : Copier} (h : Fits calls k) :
    bytesWritten calls <+: bytesRead calls := by
  cases k with
  | going total pending => exact h.1 ▸ List.prefix_append _ pending
  | ended => exact h.2

/-- What was written is a start of what was read, after every call. -/
theorem Follows.written_of_read {calls : List Call} {k : Copier} (h : Follows calls k) (n : Nat) :
    bytesWritten (calls.take n) <+: bytesRead (calls.take n) := by
  rcases Nat.lt_or_ge n calls.length with hn | hn
  · exact (h.inTurn n hn).written_of_read
  · rw [List.take_of_length_le hn]
    exact h.fits.written_of_read

/-! ## A call that fails is the last -/

theorem Step.of_failed {k k' : Copier} {c : Call} {e : IoError} (h : Step k c k')
    (hc : c.failure? = some e) : k' = .ended (.error e) := by
  cases h with
  | hungUp | piece => contradiction
  | readAgain he | writeAgain _ he => simp [Call.failure?, he] at hc
  | readFailed he | writeFailed _ he =>
    simp only [Call.failure?, if_neg he, Option.some.injEq] at hc
    rw [hc]
  | @wrote total n pending _ hn =>
    obtain ⟨n, rfl⟩ := Nat.exists_eq_succ_of_ne_zero hn
    contradiction
  | nothingTaken =>
    simp only [Call.failure?, Option.some.injEq] at hc
    rw [hc]

/-- Who has ended makes no call. -/
theorem Steps.of_ended {result : Except IoError Nat} {cs : List Call} {k : Copier}
    (h : Steps (.ended result) cs k) : cs = [] ∧ k = .ended result := by
  cases h with
  | nil => exact ⟨rfl, rfl⟩
  | cons hstep => cases hstep

theorem Steps.of_failed {k k' : Copier} {before after : List Call} {c : Call} {e : IoError}
    (h : Steps k (before ++ c :: after) k') (hc : c.failure? = some e) :
    after = [] ∧ k' = .ended (.error e) := by
  induction before generalizing k with
  | nil =>
    cases h with
    | cons hstep hsteps =>
      obtain rfl := hstep.of_failed hc
      exact hsteps.of_ended
  | cons c' before ih =>
    cases h with
    | cons _ hsteps => exact ih hsteps

/-- How a copier keeps faith with its client. -/
structure Faithful (calls : List Call) (k : Copier) : Prop where
  /-- Before every read all that was read has been written, and a write offers what was not. -/
  inTurn : AtEveryPoint InTurn calls
  /-- After every call, what was written is a start of what was read. -/
  written : ∀ n, bytesWritten (calls.take n) <+: bytesRead (calls.take n)
  /-- A call that fails is the last one, and its failure is how the copy ends. -/
  failed : ∀ before c after e, calls = before ++ c :: after → c.failure? = some e →
    after = [] ∧ k = .ended (.error e)
  ends : ∀ result, k = .ended result → Ends calls result

/-- A copier is faithful from its first call on, and however far it has come. -/
theorem Steps.faithful {calls : List Call} {k : Copier} (h : Steps (.going 0 []) calls k) :
    Faithful calls k := by
  have hfollows : Follows calls k := follows_start.steps h
  constructor
  case inTurn => exact hfollows.inTurn
  case written => exact hfollows.written_of_read
  case failed =>
    rintro before c after e rfl hc
    exact h.of_failed hc
  case ends =>
    rintro result rfl
    exact hfollows.fits.1

/-! ## A copy, call by call -/

/-- What a read gives is listed, or it is the end of the stream behind the list. -/
theorem Call.comes_read {given : Except IoError Bytes} {reads : List (Except IoError Bytes)}
    {writes : List (Except IoError Nat)} (h : (Call.read given).Comes reads writes) :
    (∃ left, reads = given :: left) ∨ reads = [] ∧ given = .ok [] := by
  cases reads with
  | nil => exact .inr ⟨rfl, h⟩
  | cons r left =>
    obtain rfl : given = r := h
    exact .inl ⟨left, rfl⟩

/-- What a write gives is listed, or all is taken behind the list. -/
theorem Call.comes_write {offered : Bytes} {given : Except IoError Nat}
    {reads : List (Except IoError Bytes)} {writes : List (Except IoError Nat)}
    (h : (Call.write offered given).Comes reads writes) :
    (∃ left, writes = given :: left) ∨ writes = [] ∧ given = .ok offered.length := by
  cases writes with
  | nil => exact .inr ⟨rfl, h⟩
  | cons r left =>
    obtain rfl : given = r := h
    exact .inl ⟨left, rfl⟩

/-- What a copier has yet to do when reads and writes give these results. -/
def rest (reads : List (Except IoError Bytes)) (writes : List (Except IoError Nat)) :
    Copier → Copied
  | .ended result => ⟨[], result⟩
  | .going total pending =>
    let w := writeAll pending writes
    match w.failure with
    | some e => ⟨w.parts.map .wrote, .error e⟩
    | none =>
      let c := copyFrom total reads w.rest
      { c with transfers := w.parts.map .wrote ++ c.transfers }

theorem writeAll_nothing (writes : List (Except IoError Nat)) :
    writeAll [] writes = ⟨[], none, writes⟩ := by
  rcases writes with _ | ⟨_ | n, writes⟩ <;> simp [writeAll]

theorem rest_reading (total : Nat) (reads : List (Except IoError Bytes))
    (writes : List (Except IoError Nat)) :
    rest reads writes (.going total []) = copyFrom total reads writes := by
  simp [rest, writeAll_nothing]

theorem copyFrom_piece {data : Bytes} (hdata : data ≠ []) (total : Nat)
    (reads : List (Except IoError Bytes)) (writes : List (Except IoError Nat)) :
    copyFrom total (.ok data :: reads) writes =
      let left := rest reads writes (.going (total + data.length) data)
      { left with transfers := .read data :: left.transfers } := by
  cases hw : (writeAll data writes).failure <;> simp [copyFrom, rest, hdata, hw]

/-- A call does the first of what there is to do. -/
theorem rest_of_step {k k' : Copier} {c : Call} (h : Step k c k')
    {reads : List (Except IoError Bytes)} {writes : List (Except IoError Nat)}
    (hcomes : c.Comes reads writes) :
    rest reads writes k =
      let left := rest (c.readsLeft reads) (c.writesLeft writes) k'
      { left with transfers := c.transfer?.toList ++ left.transfers } := by
  cases h with
  | hungUp =>
    rw [rest_reading]
    obtain ⟨reads, rfl⟩ | ⟨rfl, -⟩ := Call.comes_read hcomes <;> rfl
  | piece hdata =>
    obtain ⟨reads, rfl⟩ | ⟨-, hnone⟩ := Call.comes_read hcomes
    · rw [rest_reading, copyFrom_piece hdata]
      simp [Call.transfer?, hdata, Call.readsLeft, Call.writesLeft]
    · -- behind its list a read gives the end of the stream
      exact absurd (Except.ok.inj hnone) hdata
  | readAgain he =>
    obtain ⟨reads, rfl⟩ | ⟨-, hnone⟩ := Call.comes_read hcomes
    · rw [rest_reading, rest_reading]
      simp [copyFrom, he, Call.readsLeft, Call.writesLeft, Call.transfer?]
    · contradiction
  | readFailed he =>
    obtain ⟨reads, rfl⟩ | ⟨-, hnone⟩ := Call.comes_read hcomes
    · rw [rest_reading]
      simp [copyFrom, he, rest, Call.transfer?]
    · contradiction
  | wrote hpending hn =>
    obtain ⟨writes, rfl⟩ | ⟨rfl, hall⟩ := Call.comes_write hcomes
    · simp only [rest, writeAll, if_neg hpending, if_neg hn, Call.transfer?, Call.readsLeft,
        Call.writesLeft, List.tail_cons]
      split <;> simp
    · -- behind its list a write takes all at once
      obtain rfl := Except.ok.inj hall
      simp [rest, writeAll, hpending, Call.transfer?, Call.readsLeft, Call.writesLeft]
  | nothingTaken hpending =>
    obtain ⟨writes, rfl⟩ | ⟨-, hall⟩ := Call.comes_write hcomes
    · simp [rest, writeAll, hpending, Call.transfer?]
    · exact absurd (List.length_eq_zero_iff.mp (Except.ok.inj hall).symm) hpending
  | writeAgain hpending he =>
    obtain ⟨writes, rfl⟩ | ⟨-, hall⟩ := Call.comes_write hcomes
    · simp [rest, writeAll, hpending, he, Call.transfer?, Call.readsLeft, Call.writesLeft]
    · contradiction
  | writeFailed hpending he =>
    obtain ⟨writes, rfl⟩ | ⟨-, hall⟩ := Call.comes_write hcomes
    · simp [rest, writeAll, hpending, he, Call.transfer?]
    · contradiction

theorem rest_of_steps {k : Copier} {cs : List Call} {result : Except IoError Nat}
    (h : Steps k cs (.ended result)) {reads : List (Except IoError Bytes)}
    {writes : List (Except IoError Nat)} (hscripted : Scripted reads writes cs) :
    rest reads writes k = ⟨cs.filterMap Call.transfer?, result⟩ := by
  generalize hend : Copier.ended result = k' at h
  induction h generalizing reads writes with
  | nil => rw [← hend]; rfl
  | @cons k k₁ k₂ c cs hstep _ ih =>
    rw [rest_of_step hstep hscripted.1, ih hscripted.2 hend]
    cases hc : c.transfer? <;> simp [hc]

/-- A copier that has not ended makes another call, whatever comes. -/
theorem exists_step (total : Nat) (pending : Bytes) (reads : List (Except IoError Bytes))
    (writes : List (Except IoError Nat)) :
    ∃ c k', Step (.going total pending) c k' ∧ c.Comes reads writes := by
  by_cases hpending : pending = []
  · subst hpending
    suffices ∀ given, ∃ k', Step (.going total []) (.read given) k' from
      let ⟨k', h⟩ := this (reads.head?.getD (.ok []))
      ⟨_, k', h, rfl⟩
    rintro (e | data)
    · by_cases he : e.kind = .interrupted
      · exact ⟨_, .readAgain he⟩
      · exact ⟨_, .readFailed he⟩
    · by_cases hdata : data = []
      · subst hdata
        exact ⟨_, .hungUp⟩
      · exact ⟨_, .piece hdata⟩
  · suffices ∀ given, ∃ k', Step (.going total pending) (.write pending given) k' from
      let ⟨k', h⟩ := this (writes.head?.getD (.ok pending.length))
      ⟨_, k', h, rfl⟩
    rintro (e | n)
    · by_cases he : e.kind = .interrupted
      · exact ⟨_, .writeAgain hpending he⟩
      · exact ⟨_, .writeFailed hpending he⟩
    · by_cases hn : n = 0
      · subst hn
        exact ⟨_, .nothingTaken hpending⟩
      · exact ⟨_, .wrote hpending hn⟩

/-- More than the calls that are left. A call uses up a listed result, or ends the copy, or leaves
nothing to write. -/
def toDo (reads : List (Except IoError Bytes)) (writes : List (Except IoError Nat)) :
    Copier → Nat
  | .going _ pending => 2 * (reads.length + writes.length) + if pending = [] then 1 else 2
  | .ended _ => 0

theorem toDo_lt {k k' : Copier} {c : Call} (h : Step k c k')
    {reads : List (Except IoError Bytes)} {writes : List (Except IoError Nat)}
    (hcomes : c.Comes reads writes) :
    toDo (c.readsLeft reads) (c.writesLeft writes) k' < toDo reads writes k := by
  cases h with
  | hungUp | readFailed | nothingTaken | writeFailed =>
    simp only [toDo]
    split <;> omega
  | piece hdata =>
    obtain ⟨reads, rfl⟩ | ⟨-, hnone⟩ := Call.comes_read hcomes
    · simp only [toDo, Call.readsLeft, Call.writesLeft, List.tail_cons, List.length_cons, if_true,
        if_neg hdata]
      omega
    · exact absurd (Except.ok.inj hnone) hdata
  | readAgain =>
    obtain ⟨reads, rfl⟩ | ⟨-, hnone⟩ := Call.comes_read hcomes
    · simp [toDo, Call.readsLeft, Call.writesLeft]
    · contradiction
  | wrote hpending =>
    obtain ⟨writes, rfl⟩ | ⟨rfl, hall⟩ := Call.comes_write hcomes
    · simp only [toDo, Call.readsLeft, Call.writesLeft, List.tail_cons, List.length_cons,
        if_neg hpending]
      split <;> omega
    · obtain rfl := Except.ok.inj hall
      simp [toDo, Call.readsLeft, Call.writesLeft, hpending]
  | writeAgain =>
    obtain ⟨writes, rfl⟩ | ⟨-, hall⟩ := Call.comes_write hcomes
    · simp [toDo, Call.readsLeft, Call.writesLeft]
    · contradiction

/-- Whatever reads and writes give, a copier ends. -/
theorem exists_steps (k : Copier) (reads : List (Except IoError Bytes))
    (writes : List (Except IoError Nat)) :
    ∃ cs result, Steps k cs (.ended result) ∧ Scripted reads writes cs := by
  match k with
  | .ended result => exact ⟨[], result, .nil _, trivial⟩
  | .going total pending =>
    obtain ⟨c, k', hstep, hcomes⟩ := exists_step total pending reads writes
    obtain ⟨cs, result, hsteps, hscripted⟩ :=
      exists_steps k' (c.readsLeft reads) (c.writesLeft writes)
    exact ⟨c :: cs, result, .cons hstep hsteps, hcomes, hscripted⟩
-- not by the lists: a write behind its list uses nothing up, but nothing is held after it
termination_by toDo reads writes k
decreasing_by exact toDo_lt hstep hcomes

/-- A copy is what a copier does. -/
theorem copy_eq_iff {reads : List (Except IoError Bytes)} {writes : List (Except IoError Nat)}
    {ts : List Transfer} {result : Except IoError Nat} :
    copy reads writes = ⟨ts, result⟩ ↔
      ∃ calls, Steps (.going 0 []) calls (.ended result) ∧ Scripted reads writes calls ∧
        calls.filterMap Call.transfer? = ts := by
  have hcopy : copy reads writes = rest reads writes (.going 0 []) :=
    (rest_reading 0 reads writes).symm
  rw [hcopy]
  constructor
  · intro h
    obtain ⟨calls, result', hsteps, hscripted⟩ := exists_steps (.going 0 []) reads writes
    obtain ⟨rfl, rfl⟩ := Copied.mk.inj ((rest_of_steps hsteps hscripted).symm.trans h)
    exact ⟨calls, hsteps, hscripted, rfl⟩
  · rintro ⟨calls, hsteps, hscripted, rfl⟩
    exact rest_of_steps hsteps hscripted

end Copier

end LocalIpc

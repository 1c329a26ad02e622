import LocalIpc.Program.Gathering
import LocalIpc.Proofs.Program.Counting
import LocalIpc.Proofs.Unix.Waiting
/-!
# Reports where others are at work

A report takes whoever stands in the queue of its listener, in the order of arrival: a client that
connected itself, and as well a listener that was refused there and has hung up. It makes a session
of each, and the sessions of the latter have nothing in them.
-/

namespace LocalIpc

open Unix (Happening State Caller)

namespace Gathering

variable {w w' w'' v : Gathering} {e : Happening} {es fs : List Happening} {fd : Fd} {l j n : Nat}
  {path : Path}

/-! ## What has happened -/

/-- Between `w` and `w'` these things have happened. -/
structure Grows (w w' : Gathering) (es : List Happening) : Prop where
  state : w'.state = w.state.live es
  since : w'.since = w.since ++ es
  listener : w'.listener = w.listener
  running : w'.running = w.running

/-- They have left alone what belongs to the command. -/
structure Passes (w w' : Gathering) (es : List Happening) : Prop extends Grows w w' es where
  serving : w'.serving = w.serving
  others : ∀ e ∈ es, w.owns e = false

theorem Grows.refl (w : Gathering) : w.Grows w [] := ⟨rfl, (List.append_nil _).symm, rfl, rfl⟩

theorem Grows.trans (h : w.Grows w' es) (h' : w'.Grows w'' fs) : w.Grows w'' (es ++ fs) :=
  ⟨by rw [h'.state, h.state, Unix.live_append], by rw [h'.since, h.since, List.append_assoc],
    h'.listener.trans h.listener, h'.running.trans h.running⟩

theorem Grows.unique (h : w.Grows w' es) (h' : w.Grows w' fs) : es = fs :=
  List.append_cancel_left (h.since.symm.trans h'.since)

theorem grows_happen (w : Gathering) (e : Happening) : w.Grows (w.happen e) [e] :=
  ⟨rfl, rfl, rfl, rfl⟩

theorem Passes.refl (w : Gathering) : w.Passes w [] := ⟨.refl w, rfl, by simp⟩

/-- What belongs to the command stays the same. -/
theorem Passes.owns (h : w.Passes w' es) (e : Happening) : w'.owns e = w.owns e := by
  unfold Gathering.owns
  rw [h.listener, h.serving]

theorem Passes.trans (h : w.Passes w' es) (h' : w'.Passes w'' fs) : w.Passes w'' (es ++ fs) where
  toGrows := h.toGrows.trans h'.toGrows
  serving := h'.serving.trans h.serving
  others e he := (List.mem_append.mp he).elim (h.others e) fun he => h.owns e ▸ h'.others e he

theorem passes_happen (he : w.owns e = false) : w.Passes (w.happen e) [e] :=
  ⟨grows_happen w e, rfl, fun e' he' => by rw [List.mem_singleton.mp he', he]⟩

theorem passes_meanwhile (w : Gathering) (e : Happening) : ∃ es, w.Passes (w.meanwhile e) es := by
  unfold meanwhile
  split
  · exact ⟨[], .refl w⟩
  · rename_i he
    exact ⟨[e], passes_happen (by simpa using he)⟩

theorem passes_meanwhileAll (w : Gathering) (es : List Happening) :
    ∃ fs, w.Passes (w.meanwhileAll es) fs := by
  induction es generalizing w with
  | nil => exact ⟨[], .refl w⟩
  | cons e es ih =>
    obtain ⟨first, hfirst⟩ := w.passes_meanwhile e
    obtain ⟨rest, hrest⟩ := ih (w.meanwhile e)
    exact ⟨_, hfirst.trans hrest⟩

theorem passes_await (depth : Nat) (es : List Happening) (w : Gathering) :
    ∃ fs, w.Passes (w.await depth es).2 fs := by
  induction es generalizing w with
  | nil => exact ⟨[], .refl w⟩
  | cons e es ih =>
    unfold await
    split
    · exact ⟨[], .refl w⟩
    · obtain ⟨first, hfirst⟩ := w.passes_meanwhile e
      obtain ⟨rest, hrest⟩ := ih (w.meanwhile e)
      exact ⟨_, hfirst.trans hrest⟩

/-- Every result was given by the host, at some time in a run from `w`. -/
def GivenIn (w : Gathering) (fd : Fd) (rs : List (Except IoError Bytes)) (es : List Happening) :
    Prop :=
  ∀ r ∈ rs, ∃ before, before <+: es ∧ r = ((w.state.live before).host.read fd bufferSize).1

theorem GivenIn.later {rs : List (Except IoError Bytes)} (h : w'.GivenIn fd rs fs)
    (hgrows : w.Grows w' es) : w.GivenIn fd rs (es ++ fs) := by
  intro r hr
  obtain ⟨before, hbefore, heq⟩ := h r hr
  refine ⟨es ++ before, (List.prefix_append_right_inj es).mpr hbefore, ?_⟩
  rw [heq, hgrows.state, Unix.live_append]

/-- A read that follows what others do, and then more of them. -/
theorem passes_read {rs : List (Except IoError Bytes)} (h : w.Passes w' es)
    (h' : (w'.read fd).2.Passes w'' fs) (hrs : (w'.read fd).2.GivenIn fd rs fs) :
    w.Passes w'' (es ++ .read fd bufferSize :: fs) ∧
      w.GivenIn fd ((w'.read fd).1 :: rs) (es ++ .read fd bufferSize :: fs) := by
  have hread : w.Passes (w'.read fd).2 (es ++ [.read fd bufferSize]) := h.trans (passes_happen rfl)
  rw [← List.singleton_append, ← List.append_assoc]
  refine ⟨hread.trans h', fun r hr => ?_⟩
  rcases List.mem_cons.mp hr with rfl | hr
  · exact ⟨es, ⟨_, (List.append_assoc ..).symm⟩, by rw [← h.state]; rfl⟩
  · exact hrs.later hread.toGrows r hr

theorem passes_reads (fd : Fd) (n : Nat) (w : Gathering) :
    ∃ fs, w.Passes (w.reads fd n).2 fs ∧ w.GivenIn fd (w.reads fd n).1 fs := by
  induction n generalizing w with
  | zero => exact ⟨[], .refl w, by simp [GivenIn, reads]⟩
  | succ n ih =>
    obtain ⟨rest, hrest, hgiven⟩ := ih (w.read fd).2
    exact ⟨_, passes_read (.refl w) hrest hgiven⟩

theorem passes_hear (fd : Fd) (talk : List (List Happening)) (w : Gathering) :
    ∃ fs, w.Passes (w.hear fd talk).2 fs ∧ w.GivenIn fd (w.hear fd talk).1 fs := by
  induction talk generalizing w with
  | nil => exact passes_reads fd _ w
  | cons es talk ih =>
    obtain ⟨first, hfirst⟩ := w.passes_meanwhileAll es
    obtain ⟨rest, hrest, hgiven⟩ := ih ((w.meanwhileAll es).read fd).2
    exact ⟨_, passes_read hfirst hrest hgiven⟩

theorem grows_settle (depth k : Nat) (w : Gathering) :
    ∃ i, w.Grows (w.settle depth k) (List.replicate i .answer) := by
  induction k generalizing w with
  | zero => exact ⟨0, .refl w⟩
  | succ k ih =>
    unfold settle
    split
    · obtain ⟨i, hi⟩ := ih (w.happen .answer)
      exact ⟨i + 1, (grows_happen w .answer).trans hi⟩
    · exact ⟨0, .refl w⟩

theorem grows_carryOut (w : Gathering) (op : Unix.Operation) :
    ∃ i, w.Grows (w.carryOut op) (.start op :: List.replicate i .answer) := by
  obtain ⟨i, hi⟩ := (w.happen (.start op)).grows_settle w.state.tasks.length State.callBound
  exact ⟨i, (grows_happen w (.start op)).trans hi⟩

/-! ## What an accept comes to -/

/-- The accept that waits in `s` is over when these things have happened and its call has returned:
of those in the queue, only the one for stream `n` was taken, and it is handed out under the
descriptor `c`. -/
structure Receives (s : State) (l : Nat) (fd : Fd) (below : List Unix.Frame)
    (before : List Happening) (n : Nat) (c : Fd) : Prop where
  quiet : s.admissions fd before = []
  admits : (s.live before).admits? fd .answer = some (n, (s.live before).connections.length)
  finished : (s.live before).Over (s.live (before ++ [.answer])) l below n c

theorem await_of_length (hw : w.state.tasks.length = n) (es : List Happening) :
    w.await n es = (es, w) := by
  cases es with
  | nil => rfl
  | cons e es => rw [await, if_pos hw]

theorem ne_accept_of_owns (he : w.owns e = false) : e ≠ .start (.accept w.listener) := by
  rintro rfl
  simp [owns] at he

/-- While others do things, the accept waits on, or it is over. -/
theorem await_cases {below : List Unix.Frame} (hwaits : w.state.Waits w.listener fd below)
    (hgrows : w.Grows (w.await below.length es).2 fs)
    (hstands : w.state.Stands w.listener fd path fs) :
    ((w.state.live fs).Waits w.listener fd below ∧ w.state.admissions fd fs = []) ∨
      ∃ before n c, fs = before ++ [.answer] ∧
        Receives w.state w.listener fd below before n c := by
  induction es generalizing w fs with
  | nil =>
    obtain rfl := (Grows.refl w).unique hgrows
    exact .inl ⟨hwaits, rfl⟩
  | cons e es ih =>
    rw [await, if_neg hwaits.length_ne] at hgrows
    unfold meanwhile at hgrows
    split at hgrows
    · exact ih hwaits hgrows hstands
    rename_i howns
    have he := ne_accept_of_owns (Bool.eq_false_iff.mpr howns)
    obtain ⟨later, hlater⟩ := (w.happen e).passes_await below.length es
    obtain rfl := ((grows_happen w e).trans hlater.toGrows).unique hgrows
    have hnow := hstands.now
    rcases hadmits : w.state.admits? fd e with _ | ⟨n, j⟩
    · obtain ⟨hstill, hnone⟩ | ⟨before, n, c, rfl, hreceives⟩ :=
        ih (w := w.happen e) (hwaits.happen hnow he hadmits) hlater.toGrows hstands.next
      · refine .inl ⟨hstill, ?_⟩
        rw [List.singleton_append, State.admissions, hadmits]
        exact hnone
      · refine .inr ⟨e :: before, n, c, rfl, ?_, hreceives.admits, hreceives.finished⟩
        rw [State.admissions, hadmits]
        exact hreceives.quiet
    · obtain ⟨rfl, rfl, c, hover⟩ := hwaits.over hnow hstands.apart hadmits
      -- the others do nothing more before the accept goes on
      have hlength : (w.happen .answer).state.tasks.length = below.length :=
        congrArg List.length hover.tasks
      rw [await_of_length hlength] at hlater
      obtain rfl := (Grows.refl _).unique hlater.toGrows
      exact .inr ⟨[], n, c, rfl, rfl, hadmits, hover⟩

/-- An accept of the command that hands out a client: these things happen before the call returns
and after that, while the client is heard out. -/
structure Greets (w : Gathering) (fd : Fd) (before after : List Happening) (n : Nat) (c : Fd) :
    Prop where
  receives : Receives w.state w.listener fd w.state.tasks before n c
  client : ∃ client, w.accept.1 = .ok client ∧ client.handle = (Connection.ofFd c).handle ∧
    client.interrupts = 0 ∧ ∀ r ∈ client.reads, ∃ mid, mid <+: after ∧
      r = ((w.state.live (before ++ .answer :: mid)).host.read c bufferSize).1
  serving : w.accept.2.serving = some (w.state.live before).connections.length
  alone : .start (.accept w.listener) ∉ after
  kept : .start (.closeConnection (w.state.live before).connections.length) ∉ after ∧
    .start (.dropConnection (w.state.live before).connections.length) ∉ after

/-- An accept that never returns: another operation is under way inside it,
or nobody is in the queue. -/
structure Waits (w : Gathering) (fd : Fd) (before : List Happening) : Prop where
  unanswered : w.answer.1 = none
  quiet : w.state.admissions fd (before ++ [.answer]) = []
  nobody : (w.state.live before).WaitsInVain w.listener fd

/-- A client is handed out and heard out. -/
theorem accepted_opened {c : Connection} (h : w.state.lastOutcome = .opened j c)
    (rest : List Happening) (talk : List (List Happening)) :
    ∃ fs, Passes { w with serving := some j } (w.accepted rest talk).2 fs ∧
      ∃ reads, (w.accepted rest talk).1 = .ok ⟨c.handle, reads, [], 0, 0, 0⟩ ∧
        w.GivenIn c.handle.fd reads fs := by
  obtain ⟨first, hfirst⟩ := passes_meanwhileAll { w with serving := some j } rest
  obtain ⟨later, hlater, hreads⟩ := passes_hear c.handle.fd talk
    (({ w with serving := some j } : Gathering).meanwhileAll rest)
  unfold accepted
  rw [h]
  exact ⟨first ++ later, hfirst.trans hlater, _, rfl,
    hreads.later ⟨hfirst.state, hfirst.since, hfirst.listener, hfirst.running⟩⟩

theorem grows_accepted (rest : List Happening) (talk : List (List Happening)) (w : Gathering) :
    ∃ fs, w.Grows (w.accepted rest talk).2 fs := by
  cases h : w.state.lastOutcome with
  | opened j c =>
    obtain ⟨fs, hfs, -⟩ := accepted_opened h rest talk
    exact ⟨fs, hfs.state, hfs.since, hfs.listener, hfs.running⟩
  | _ =>
    obtain ⟨fs, hfs⟩ := w.passes_meanwhileAll rest
    refine ⟨fs, ?_⟩
    simp only [accepted, h]
    exact hfs.toGrows

/-- The command has called for an accept. -/
def begun (w : Gathering) : Gathering :=
  { w with agenda := w.agenda.tail }.happen (.start (.accept w.listener))

def episode (w : Gathering) : Episode := w.agenda.headD ⟨[], []⟩

/-- The others have done things since. -/
def awaited (w : Gathering) : List Happening × Gathering :=
  w.begun.await w.state.tasks.length w.episode.coming

/-- The three ways of an accept: it is over while the others do things, or after that, or it never
returns. -/
theorem answer_eq (w : Gathering) : w.answer =
    if w.awaited.2.state.tasks.length = w.state.tasks.length then
      (w.awaited.2.accepted w.awaited.1 w.episode.talk).map some id
    else if (w.awaited.2.happen .answer).state.tasks.length = w.state.tasks.length then
      ((w.awaited.2.happen .answer).accepted w.awaited.1 w.episode.talk).map some id
    else (none, w.awaited.2.happen .answer) := by
  unfold answer awaited begun episode
  simp only
  split <;> rfl

theorem accept_eq (w : Gathering) : w.accept =
    if w.awaited.2.state.tasks.length = w.state.tasks.length then
      w.awaited.2.accepted w.awaited.1 w.episode.talk
    else if (w.awaited.2.happen .answer).state.tasks.length = w.state.tasks.length then
      (w.awaited.2.happen .answer).accepted w.awaited.1 w.episode.talk
    else (.error .alreadyClosed, w.awaited.2.happen .answer) := by
  unfold accept
  rw [answer_eq]
  split
  · rfl
  split <;> rfl

/-- An accept that never returns is the last one. -/
theorem Waits.givenUp {before : List Happening} (h : w.Waits fd before) :
    w.accept.1 = .error .alreadyClosed := by
  unfold accept
  rw [h.unanswered]
  rfl

theorem grows_begun (w : Gathering) : w.Grows w.begun [.start (.accept w.listener)] :=
  ⟨rfl, rfl, rfl, rfl⟩

theorem grows_accept (w : Gathering) : ∃ coming more, w.begun.Passes w.awaited.2 coming ∧
    w.Grows w.accept.2 (.start (.accept w.listener) :: (coming ++ more)) := by
  obtain ⟨coming, hcoming⟩ : ∃ fs, w.begun.Passes w.awaited.2 fs := passes_await _ _ _
  have hawaited := w.grows_begun.trans hcoming.toGrows
  rw [accept_eq]
  split
  · obtain ⟨fs, hfs⟩ := w.awaited.2.grows_accepted w.awaited.1 w.episode.talk
    exact ⟨coming, fs, hcoming, hawaited.trans hfs⟩
  have hanswered := hcoming.toGrows.trans (grows_happen w.awaited.2 .answer)
  split
  · obtain ⟨fs, hfs⟩ := (w.awaited.2.happen .answer).grows_accepted w.awaited.1 w.episode.talk
    refine ⟨coming, .answer :: fs, hcoming, ?_⟩
    simpa using w.grows_begun.trans (hanswered.trans hfs)
  · exact ⟨coming, [.answer], hcoming, w.grows_begun.trans hanswered⟩

/-- What happens while a client is heard out leaves its connection to the command. -/
theorem Passes.kept (h : w.Passes w' es) (hj : w.serving = some j) :
    .start (.accept w.listener) ∉ es ∧ .start (.closeConnection j) ∉ es ∧
      .start (.dropConnection j) ∉ es := by
  refine ⟨fun he => ?_, fun he => ?_, fun he => ?_⟩ <;>
  · have := h.others _ he
    simp [Gathering.owns, hj] at this

/-- An accept that is over hands its client out. -/
theorem greets_of_over {before : List Happening} {c : Fd} (hv : w.Grows v (before ++ [.answer]))
    (hreceives : Receives w.state w.listener fd w.state.tasks before n c)
    {rest : List Happening} {talk : List (List Happening)}
    (haccept : w.accept = v.accepted rest talk) :
    ∃ after, w.Grows w.accept.2 (before ++ .answer :: after) ∧ w.Greets fd before after n c := by
  have houtcome : v.state.lastOutcome =
      .opened (w.state.live before).connections.length (Connection.ofFd c) := by
    rw [hv.state]
    exact hreceives.finished.outcome
  obtain ⟨after, hafter, reads, hclient, hreads⟩ := accepted_opened houtcome rest talk
  have hheard : v.Grows w.accept.2 after := by
    rw [haccept]
    exact ⟨hafter.state, hafter.since, hafter.listener, hafter.running⟩
  have hgrows := hv.trans hheard
  obtain ⟨halone, hkept⟩ := hafter.kept rfl
  refine ⟨after, by simpa using hgrows, hreceives,
    ⟨_, haccept ▸ hclient, rfl, rfl, fun r hr => ?_⟩, ?_, ?_, hkept⟩
  · obtain ⟨mid, hmid, heq⟩ := hreads r hr
    refine ⟨mid, hmid, ?_⟩
    have hstate : w.state.live (before ++ .answer :: mid) = v.state.live mid := by
      rw [hv.state, ← Unix.live_append, List.append_assoc]
      rfl
    rw [hstate, heq, Unix.fd_ofFd]
  · rw [haccept, hafter.serving]
  · have hlistener : v.listener = w.listener := hv.listener
    exact hlistener ▸ halone

/-- An accept that waits until the others do nothing more never returns, unless the last answer of
the host hands somebody out. -/
theorem waits_of_still {coming : List Happening} (hcoming : w.begun.Passes w.awaited.2 coming)
    (hquiet : w.state.admissions fd (.start (.accept w.listener) :: coming) = [])
    (hstill : w.awaited.2.state.Waits w.listener fd w.state.tasks)
    (hnow : w.awaited.2.state.Answers w.listener fd path)
    (hadmits : w.awaited.2.state.admits? fd .answer = none) :
    w.Grows w.accept.2 (.start (.accept w.listener) :: coming ++ [.answer]) ∧
      w.Waits fd (.start (.accept w.listener) :: coming) := by
  have hlength : (w.awaited.2.happen .answer).state.tasks.length ≠ w.state.tasks.length :=
    (hstill.happen hnow (e := .answer) (by simp) hadmits).length_ne
  have heq : w.answer = (none, w.awaited.2.happen .answer) := by
    rw [answer_eq, if_neg hstill.length_ne, if_neg hlength]
  have hstate : w.state.live (.start (.accept w.listener) :: coming) = w.awaited.2.state :=
    hcoming.state.symm
  refine ⟨?_, by rw [heq], ?_, ?_⟩
  · rw [show w.accept.2 = w.answer.2 from rfl, heq]
    exact w.grows_begun.trans (hcoming.toGrows.trans (grows_happen w.awaited.2 .answer))
  · rw [Unix.admissions_append, hquiet, hstate, Unix.admissions_singleton, hadmits]
    rfl
  · rw [hstate]
    exact hstill.inVain hnow hadmits

/-- While its listener stays bound, an accept of the command hands out the first of the queue, or it
never returns, with nobody there. -/
theorem accept_cases (hidle : w.state.Idle w.listener) (hgrows : w.Grows w.accept.2 fs)
    (hstands : w.state.Stands w.listener fd path fs) :
    (∃ before after n c, fs = before ++ .answer :: after ∧ w.Greets fd before after n c) ∨
      ∃ before, fs = before ++ [.answer] ∧ w.Waits fd before := by
  obtain ⟨coming, more, hcoming, haccept⟩ := w.grows_accept
  obtain rfl := haccept.unique hgrows
  have hnow := hstands.now
  have hbegun : w.begun.state.Stands w.listener fd path (coming ++ more) := hstands.next
  obtain ⟨hwaits, hnone⟩ := hnow.begins (hnow.unlocked hstands.apart) hidle
  have hawaited : w.awaited.2.state.Stands w.listener fd path more := by
    rw [hcoming.state]
    exact hbegun.of_append.2
  have hquiet : ∀ es, w.begun.state.admissions fd es = [] →
      w.state.admissions fd (.start (.accept w.listener) :: es) = [] := by
    intro es hes
    rw [State.admissions, hnone]
    exact hes
  -- an accept that is over hands out its client
  have hgreets : ∀ {v : Gathering} {before : List Happening} {n : Nat} {c : Fd},
      w.begun.Grows v (before ++ [.answer]) →
      Receives w.begun.state w.listener fd w.state.tasks before n c →
      w.accept = v.accepted w.awaited.1 w.episode.talk →
      ∃ before after n c, .start (.accept w.listener) :: (coming ++ more) =
        before ++ .answer :: after ∧ w.Greets fd before after n c := by
    intro v before n c hv hreceives heq
    have hall : w.Grows v (.start (.accept w.listener) :: before ++ [.answer]) :=
      w.grows_begun.trans hv
    obtain ⟨after, hafter, h⟩ := greets_of_over hall
      ⟨hquiet before hreceives.quiet, hreceives.admits, hreceives.finished⟩ heq
    exact ⟨_, after, n, c, hgrows.unique hafter, h⟩
  have heq := w.accept_eq
  rcases await_cases (w := w.begun) hwaits hcoming.toGrows hbegun.of_append.1 with
    ⟨hstill, hadmissions⟩ | ⟨before, n, c, rfl, hreceives⟩
  · rw [← hcoming.state] at hstill
    rcases hadmits : w.awaited.2.state.admits? fd .answer with _ | ⟨n, j⟩
    · right
      obtain ⟨hlast, hgivenUp⟩ :=
        waits_of_still hcoming (hquiet coming hadmissions) hstill hawaited.now hadmits
      exact ⟨_, hgrows.unique hlast, hgivenUp⟩
    · left
      obtain ⟨-, rfl, c, hover⟩ := hstill.over hawaited.now hawaited.apart hadmits
      have hlength : (w.awaited.2.happen .answer).state.tasks.length = w.state.tasks.length :=
        congrArg List.length hover.tasks
      rw [if_neg hstill.length_ne, if_pos hlength] at heq
      have hreceives : Receives w.begun.state w.listener fd w.state.tasks coming n c := by
        refine ⟨hadmissions, ?_, ?_⟩
        · rw [← hcoming.state]
          exact hadmits
        · rw [Unix.live_append, ← hcoming.state]
          exact hover
      have hanswered := hcoming.toGrows.trans (grows_happen w.awaited.2 .answer)
      exact hgreets hanswered hreceives heq
  · left
    have hlength : w.awaited.2.state.tasks.length = w.state.tasks.length := by
      rw [hcoming.state, hreceives.finished.tasks]
    rw [if_pos hlength] at heq
    exact hgreets hcoming.toGrows hreceives heq

/-! ## Giving back -/

theorem grows_release (w : Gathering) :
    ∃ fs, w.Grows w.release.2 fs ∧ .start (.accept l) ∉ fs := by
  unfold release
  split
  · exact ⟨[], .refl w, by simp⟩
  · rename_i i hi
    obtain ⟨k, hk⟩ := grows_carryOut { w with serving := none } (.closeConnection i)
    exact ⟨_, ⟨hk.state, hk.since, hk.listener, hk.running⟩, by simp⟩

/-- A connection in use can be given back. -/
theorem release_ok {c : Connection} {d : Descriptor} (hserving : w.serving = some j)
    (hj : w.state.connection? j = some ⟨c, true⟩)
    (hd : w.state.host.descriptor? c.handle.fd = some d) : w.release.1 = .ok () := by
  let begun := ({ w.state.note (.began (.closeConnection j)) with
    connections := w.state.connections.set j none } : State).push (.releasing c.handle.fd false)
      (.close c.handle.fd)
  have hbegun : w.state.happen (.start (.closeConnection j)) = begun := by
    have hj' : (w.state.note (.began (.closeConnection j))).connection? j = some ⟨c, true⟩ := hj
    simp only [State.happen, State.step, State.perform, State.lockOf, Option.any_none,
      Bool.false_eq_true, if_false, State.begin, State.letGo, hj']
    rfl
  have hclose : (w.state.host.close c.handle.fd).1 = .ok () := by
    unfold Host.close
    rw [hd]
    cases d <;> rfl
  have hover : (begun.happen .answer).tasks = w.state.tasks ∧
      (begun.happen .answer).lastOutcome = .done := by
    have hanswer : begun.answer? = some (.done (.ok ()), (w.state.host.close c.handle.fd).2) := by
      simp [begun, State.answer?, State.push, State.note, State.callOf, Unix.nativeReply, hclose]
    simp only [State.happen, hanswer]
    refine ⟨rfl, ?_⟩
    simp [begun, State.step, State.reply, State.push, State.note, State.Frame.takes,
      State.resumeFrame, State.finish, State.lastOutcome]
  have hsettled : ({ w with serving := none }.carryOut (.closeConnection j)).state =
      begun.happen .answer := by
    have hbelow : w.state.tasks.length < begun.tasks.length := Nat.lt_succ_self _
    simp only [carryOut, State.callBound, settle, happen, hbegun, hbelow, if_true, hover.1,
      Nat.lt_irrefl, if_false]
  unfold release
  rw [hserving]
  simp only [hsettled, hover.2]

end Gathering

end LocalIpc

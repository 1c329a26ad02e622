import LocalIpc.Proofs.Session.Serving
import LocalIpc.Session.Duty
/-!
# A loop that is interrupted

An interrupt clears the flag for good. So the accept loop calls for no accept after it, and once the
call that it came in is over the loop stops in good order, whatever that call has given.
-/

namespace LocalIpc

/-! ## What a log tells -/

section Marks

variable {ε α : Type}

def Mark.event? : Mark ε α → Option ε
  | .event e => some e
  | .interrupt | .accept | .handed _ => none

def Mark.client? : Mark ε α → Option α
  | .handed c => some c
  | .event _ | .interrupt | .accept => none

/-- An accept is called for only while there was no interrupt. -/
def Mark.Timely (before : List (Mark ε α)) (m : Mark ε α) : Prop :=
  m = .accept → .interrupt ∉ before

end Marks

namespace Duty

variable {τ ε α : Type}

/-- The events so far. -/
def events (d : Duty τ ε α) : List ε := d.log.filterMap Mark.event?

/-- The clients that were handed on so far. -/
def clients (d : Duty τ ε α) : List α := d.log.filterMap Mark.client?

/-! ## What lasts -/

/-- The property outlasts whatever happens on duty. -/
structure Lasts (t : Transport τ ε α) (P : Duty τ ε α → Prop) : Prop where
  event : ∀ d e, P d → P (d.step t e)
  interrupt : ∀ d, P d → P (d.happen t .interrupt)
  agenda : ∀ (d : Duty τ ε α) agenda, P d → P { d with agenda }

section Lasting

variable {t : Transport τ ε α} {P : Duty τ ε α → Prop} {d : Duty τ ε α}

theorem Lasts.happen (h : Lasts t P) (hd : P d) (m : Moment ε) : P (d.happen t m) := by
  cases m with
  | event e => exact h.event d e hd
  | interrupt => exact h.interrupt d hd

theorem Lasts.happenAll (h : Lasts t P) (hd : P d) (ms : List (Moment ε)) :
    P (d.happenAll t ms) := by
  induction ms generalizing d with
  | nil => exact hd
  | cons m ms ih => exact ih (h.happen hd m)

theorem Lasts.await (h : Lasts t P) (hd : P d) (met : τ → Bool) (ms : List (Moment ε)) :
    P (d.await t met ms).2 := by
  induction ms generalizing d with
  | nil => exact hd
  | cons m ms ih =>
    unfold Duty.await
    split
    · exact hd
    · exact ih (h.happen hd m)

theorem Lasts.answerNow (h : Lasts t P) (hd : P d) (ms : List (Moment ε)) :
    P (d.answerNow t ms).2 :=
  h.happenAll (h.await (h.event d t.accept hd) _ ms) _

/-- What holds when a call begins holds when it is over. -/
theorem Lasts.accept (h : Lasts t P) (hd : P (d.note .accept)) : P (d.accept t).2 := by
  let waited := ({ d.note .accept with agenda := d.agenda.tail } : Duty τ ε α).await t t.free
    (d.agenda.headD [])
  have hwait : P waited.2 := h.await (h.agenda (d.note .accept) d.agenda.tail hd) _ _
  have haccept : (d.accept t).2 = (if t.free waited.2.state then waited.2.answerNow t waited.1
      else (none, waited.2)).2 := rfl
  rw [haccept]
  split
  · exact h.answerNow hwait waited.1
  · exact hwait

theorem Lasts.handle (h : Lasts t P) {c : α} (hd : P (d.note (.handed c))) : P (d.handle t c) :=
  h.happenAll (h.agenda (d.note (.handed c)) d.agenda.tail hd) _

end Lasting

/-! ## A sound log -/

/-- The log tells how the state came about, and what became of the flag. -/
structure Sound (t : Transport τ ε α) (s : τ) (d : Duty τ ε α) : Prop where
  state : d.state = d.events.foldl t.step s
  lowered : .interrupt ∈ d.log → d.running = false
  closed : .interrupt ∈ d.log → t.close ∈ d.events
  timely : AtEveryPoint Mark.Timely d.log

section Told

variable {t : Transport τ ε α} {s : τ} {d : Duty τ ε α} {m : Mark ε α}

theorem events_note (d : Duty τ ε α) (m : Mark ε α) :
    (d.note m).events = d.events ++ m.event?.toList := by
  simp only [events, note, List.filterMap_append]
  cases h : m.event? <;> simp [h]

theorem clients_note (d : Duty τ ε α) (m : Mark ε α) :
    (d.note m).clients = d.clients ++ m.client?.toList := by
  simp only [clients, note, List.filterMap_append]
  cases h : m.client? <;> simp [h]

theorem Sound.step (h : d.Sound t s) (e : ε) : (d.step t e).Sound t s where
  state := by
    have hevents : (d.step t e).events = d.events ++ [e] := events_note _ _
    rw [hevents, List.foldl_append, ← h.state]
    rfl
  lowered hi := h.lowered (by simpa [Duty.step, note] using hi)
  closed hi := by
    have hevents : (d.step t e).events = d.events ++ [e] := events_note _ _
    rw [hevents]
    exact List.mem_append_left _ (h.closed (by simpa [Duty.step, note] using hi))
  timely := (atEveryPoint_snoc _ _).mpr ⟨h.timely, by simp [Mark.Timely]⟩

theorem log_interrupt (d : Duty τ ε α) :
    (d.happen t .interrupt).log = d.log ++ [.interrupt] ++ [.event t.close] := rfl

theorem events_interrupt (d : Duty τ ε α) :
    (d.happen t .interrupt).events = d.events ++ [t.close] := by
  rw [events, log_interrupt, List.filterMap_append, List.filterMap_append]
  simp [events, Mark.event?]

/-- An interrupt lowers the flag and closes the listener. -/
theorem Sound.interrupt (h : d.Sound t s) : (d.happen t .interrupt).Sound t s where
  state := by
    rw [events_interrupt, List.foldl_append, ← h.state]
    rfl
  lowered _ := rfl
  closed _ := by simp [events_interrupt]
  timely := by
    rw [log_interrupt, atEveryPoint_snoc, atEveryPoint_snoc]
    exact ⟨⟨h.timely, by simp [Mark.Timely]⟩, by simp [Mark.Timely]⟩

/-- An accept may be called for while the flag is set, and a client may be handed on at any time. -/
theorem Sound.note (h : d.Sound t s) (hm : m.event? = none) (hi : m ≠ .interrupt)
    (ha : m = .accept → d.running = true) : (d.note m).Sound t s where
  state := by
    rw [events_note, hm, Option.toList_none, List.append_nil]
    exact h.state
  lowered hmem := h.lowered (by simpa [Duty.note, Ne.symm hi] using hmem)
  closed hmem := by
    simpa [events_note, hm] using h.closed (by simpa [Duty.note, Ne.symm hi] using hmem)
  timely := by
    refine (atEveryPoint_snoc _ _).mpr ⟨h.timely, fun hm hmem => ?_⟩
    simp [h.lowered hmem] at ha
    contradiction

theorem sound_start (t : Transport τ ε α) (s : τ) (agenda : List (List (Moment ε))) :
    (Duty.mk s true agenda [] : Duty τ ε α).Sound t s :=
  ⟨rfl, by simp, by simp, atEveryPoint_nil⟩

theorem clients_step (d : Duty τ ε α) (e : ε) : (d.step t e).clients = d.clients :=
  (clients_note _ _).trans (List.append_nil _)

theorem clients_interrupt (d : Duty τ ε α) : (d.happen t .interrupt).clients = d.clients :=
  (clients_step _ _).trans ((clients_note _ _).trans (List.append_nil _))

/-- A sound log stays sound, and clients are handed on only by the loop. -/
theorem lasts_sound (t : Transport τ ε α) (s : τ) (cs : List α) :
    Lasts t fun d => d.Sound t s ∧ d.clients = cs where
  event d e h := ⟨h.1.step e, (clients_step d e).trans h.2⟩
  interrupt d h := ⟨h.1.interrupt, (clients_interrupt d).trans h.2⟩
  agenda _ _ h := ⟨⟨h.1.state, h.1.lowered, h.1.closed, h.1.timely⟩, h.2⟩

theorem sound_begin (t : Transport τ ε α) (s : τ) (early : List (Moment ε))
    (agenda : List (List (Moment ε))) :
    (begin t s early agenda).Sound t s ∧ (begin t s early agenda).clients = [] :=
  (lasts_sound t s []).happenAll ⟨sound_start t s agenda, rfl⟩ early

end Told

/-! ## The loop -/

section Served

variable {t : Transport τ ε α} {s : τ} {d d' : Duty τ ε α} {cs : List α} {turns : Nat}

theorem Sound.accept (h : d.Sound t s) (hr : d.running = true) :
    (d.accept t).2.Sound t s ∧ (d.accept t).2.clients = d.clients :=
  (lasts_sound t s d.clients).accept ⟨h.note rfl (by simp) fun _ => hr,
    (clients_note _ _).trans (List.append_nil _)⟩

theorem Sound.handle (h : d.Sound t s) (c : α) :
    (d.handle t c).Sound t s ∧ (d.handle t c).clients = d.clients ++ [c] :=
  (lasts_sound t s _).handle ⟨h.note rfl (by simp) (by simp), clients_note _ _⟩

/-- Each round hands on a client. -/
theorem Sound.rounds (h : d.Sound t s) (hr : Loop.Rounds (service t) (Duty.handle t) d cs d') :
    d'.Sound t s ∧ d'.clients = d.clients ++ cs := by
  induction hr with
  | nil d => exact ⟨h, (List.append_nil _).symm⟩
  | @cons d v u c cs hrun haccept _ ih =>
    obtain ⟨hv, hclients⟩ := h.accept hrun
    rw [show d.accept t = (.ok c, v) from haccept] at hv hclients
    obtain ⟨hhandled, hnew⟩ := hv.handle c
    obtain ⟨hu, hall⟩ := ih hhandled
    refine ⟨hu, ?_⟩
    rw [hall, hnew, hclients, List.append_assoc]
    rfl

/-- A loop in which an interrupt came is over with the turn that it came in, at the latest. It has
stopped in good order. -/
theorem Sound.interrupted (h : d.Sound t s) (hnew : d.clients = [])
    (hi : .interrupt ∈ (d.serve t turns).2.log) :
    (d.serve t turns).2.Sound t s ∧ d.serve t (turns + 1) =
      (some (.stopped (d.serve t turns).2.clients.length), (d.serve t turns).2) := by
  rcases hserve : d.serve t turns with ⟨_ | ending, d'⟩ <;> rw [hserve] at hi
  · -- the loop was out of turns, and finds the flag cleared when it goes on
    obtain ⟨cs, hlen, hrounds⟩ := Loop.serve_eq_none_iff.mp hserve
    obtain ⟨hsound, hclients⟩ := h.rounds hrounds
    refine ⟨hsound, Loop.serve_eq_some_iff.mpr ⟨cs, d', by omega, hrounds, ?_⟩⟩
    rw [hclients, hnew, List.nil_append]
    exact .lowered (hsound.lowered hi)
  · obtain ⟨cs, v, hlen, hrounds, hend⟩ := Loop.serve_eq_some_iff.mp hserve
    obtain ⟨hsound, hclients⟩ := h.rounds hrounds
    rw [hnew, List.nil_append] at hclients
    -- the last call has handed on nobody, and it was no failure of the loop
    have hlast : d'.Sound t s ∧ d'.clients = cs ∧ ending = .stopped cs.length := by
      cases hend with
      | lowered hlow => exact ⟨hsound, hclients, rfl⟩
      | stopped hrun haccept hwhy =>
        obtain ⟨hsound', hclients'⟩ := hsound.accept hrun
        rw [show v.accept t = (.error _, d') from haccept] at hsound' hclients'
        exact ⟨hsound', hclients'.trans hclients, rfl⟩
      | failed hrun haccept hset hno =>
        obtain ⟨hsound', -⟩ := hsound.accept hrun
        rw [show v.accept t = (.error _, d') from haccept] at hsound'
        exact absurd (hsound'.lowered hi) (by simp [show d'.running = true from hset])
    obtain ⟨hsound', hclients', rfl⟩ := hlast
    refine ⟨hsound', Loop.serve_eq_some_iff.mpr ⟨cs, v, by omega, hrounds, ?_⟩⟩
    rw [hclients']
    exact hend

end Served

/-! ## Answers

The loop hands on only those whom its listener has given. An accept that never returns is the last
one: it has seen everything that happens during its call, and still waits. -/

/-- The loop has handed on these clients, each as an accept of the listener has given it. -/
inductive Hands (t : Transport τ ε α) : Duty τ ε α → List α → Duty τ ε α → Prop
  | nil (d : Duty τ ε α) : Hands t d [] d
  | cons {d v u : Duty τ ε α} {c : α} {cs : List α} : d.running = true →
      d.answer t = (some (.ok c), v) → Hands t (v.handle t c) cs u → Hands t d (c :: cs) u

/-- How the loop ends after so many clients, and in which state. -/
inductive Stops (t : Transport τ ε α) (clients : Nat) (d : Duty τ ε α) :
    Loop.Ending → Duty τ ε α → Prop
  | lowered : d.running = false → Stops t clients d (.stopped clients) d
  | refused {e : ListenerError} {d' : Duty τ ε α} : d.running = true →
      d.answer t = (some (.error e), d') → d'.running = false ∨ e.isMisuse = true →
      Stops t clients d (.stopped clients) d'
  | failed {e : ListenerError} {d' : Duty τ ε α} : d.running = true →
      d.answer t = (some (.error e), d') → d'.running = true → e.isMisuse = false →
      Stops t clients d (.failed e) d'
  | unanswered {d' : Duty τ ε α} : d.running = true → d.answer t = (none, d') →
      Stops t clients d (.stopped clients) d'

section Answers

variable {t : Transport τ ε α} {d d' : Duty τ ε α} {turns : Nat}

theorem accept_eq_ok {c : α} :
    d.accept t = (.ok c, d') ↔ d.answer t = (some (.ok c), d') := by
  unfold accept
  rcases d.answer t with ⟨_ | a, v⟩ <;> simp

theorem accept_eq_error {e : ListenerError} : d.accept t = (.error e, d') ↔
    d.answer t = (some (.error e), d') ∨ e = .alreadyClosed ∧ d.answer t = (none, d') := by
  unfold accept
  rcases d.answer t with ⟨_ | a, v⟩ <;> simp [eq_comm]

theorem rounds_iff_hands {cs : List α} :
    Loop.Rounds (service t) (Duty.handle t) d cs d' ↔ Hands t d cs d' := by
  constructor <;> intro h
  · induction h with
    | nil d => exact .nil d
    | cons hrun haccept _ ih => exact .cons hrun (accept_eq_ok.mp haccept) ih
  · induction h with
    | nil d => exact .nil d
    | cons hrun hanswer _ ih => exact .cons hrun (accept_eq_ok.mpr hanswer) ih

theorem ends_iff_stops {clients : Nat} {ending : Loop.Ending} :
    Loop.Ends (service t) clients d ending d' ↔ Stops t clients d ending d' := by
  constructor <;> intro h
  · cases h with
    | lowered hlow => exact .lowered hlow
    | stopped hrun haccept hwhy =>
      rcases accept_eq_error.mp haccept with hanswer | ⟨-, hnone⟩
      · exact .refused hrun hanswer hwhy
      · exact .unanswered hrun hnone
    | failed hrun haccept hset hno =>
      rcases accept_eq_error.mp haccept with hanswer | ⟨rfl, -⟩
      · exact .failed hrun hanswer hset hno
      · simp [ListenerError.isMisuse] at hno
  · cases h with
    | lowered hlow => exact .lowered hlow
    | refused hrun hanswer hwhy =>
      exact .stopped hrun (accept_eq_error.mpr (.inl hanswer)) hwhy
    | failed hrun hanswer hset hno =>
      exact .failed hrun (accept_eq_error.mpr (.inl hanswer)) hset hno
    | unanswered hrun hnone =>
      exact .stopped hrun (accept_eq_error.mpr (.inr ⟨rfl, hnone⟩)) (.inr rfl)

/-- A loop hands on what its listener gives, and ends with the first accept that gives nobody. -/
theorem serve_eq_some_iff {ending : Loop.Ending} : d.serve t turns = (some ending, d') ↔
    ∃ cs v, cs.length < turns ∧ Hands t d cs v ∧ Stops t cs.length v ending d' := by
  simp only [serve, Loop.serve_eq_some_iff, rounds_iff_hands, ends_iff_stops]

/-- What is left when the condition is met has not happened. Otherwise everything has. -/
theorem await_cases (d : Duty τ ε α) (met : τ → Bool) (ms : List (Moment ε)) :
    ∃ first, ms = first ++ (d.await t met ms).1 ∧ (d.await t met ms).2 = d.happenAll t first ∧
      ((d.await t met ms).1 = [] ∨ met (d.await t met ms).2.state = true) := by
  induction ms generalizing d with
  | nil => exact ⟨[], rfl, rfl, .inl rfl⟩
  | cons m ms ih =>
    unfold await
    split
    · exact ⟨[], rfl, rfl, .inr ‹_›⟩
    · obtain ⟨first, heq, hstate, hleft⟩ := ih (d.happen t m)
      exact ⟨m :: first, congrArg (m :: ·) heq, hstate, hleft⟩

/-- An accept that never returns has seen everything that happens during its call. It still waits
for the lock, or for its native calls. -/
theorem answer_eq_none (h : d.answer t = (none, d')) :
    let u := { d.note .accept with agenda := d.agenda.tail }
    d' = u.happenAll t (d.agenda.headD []) ∧ t.free d'.state = false ∨
      ∃ first later, d.agenda.headD [] = first ++ later ∧
        t.free (u.happenAll t first).state = true ∧
        d' = ((u.happenAll t first).step t t.accept).happenAll t later ∧
        t.depth d'.state ≠ t.depth (u.happenAll t first).state := by
  intro u
  obtain ⟨first, hfirst, hwaited, hleft⟩ := u.await_cases (t := t) t.free (d.agenda.headD [])
  let waited := u.await t t.free (d.agenda.headD [])
  have hanswer : d.answer t =
      if t.free waited.2.state then waited.2.answerNow t waited.1 else (none, waited.2) := rfl
  rw [hanswer] at h
  by_cases hfree : t.free waited.2.state = true
  · right
    rw [if_pos hfree] at h
    obtain ⟨later, hlater, hover, hdone⟩ := (waited.2.step t t.accept).await_cases (t := t)
      (fun s => t.depth s == t.depth waited.2.state) waited.1
    obtain ⟨hnone, rfl⟩ := Prod.mk.inj h
    have hstill : t.depth ((waited.2.step t t.accept).await t
        (fun s => t.depth s == t.depth waited.2.state) waited.1).2.state ≠
          t.depth waited.2.state := by
      intro heq
      simp [heq] at hnone
    have hall := hdone.resolve_right (by simpa using hstill)
    rw [hall, List.append_nil] at hlater
    refine ⟨first, later, by rw [← hlater]; exact hfirst, hwaited ▸ hfree, ?_, ?_⟩
    · rw [hall, ← hwaited]
      exact hover
    · rw [hall, ← hwaited]
      exact hstill
  · left
    rw [if_neg hfree] at h
    obtain ⟨-, rfl⟩ := Prod.mk.inj h
    rw [hleft.resolve_right hfree, List.append_nil] at hfirst
    exact ⟨hfirst ▸ hwaited, Bool.eq_false_iff.mpr hfree⟩

end Answers

end Duty

end LocalIpc

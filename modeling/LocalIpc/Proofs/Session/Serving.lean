import Mathlib.Data.List.Induction
import LocalIpc.Proofs.History
import LocalIpc.Session.Scenario
/-!
# What the accept loop does for its clients

Each client that the loop accepts is handed on once, before the next accept, and is released once by
whoever holds it then. The loop ends where its flag was lowered, at an accept that failed with the
flag lowered by then, or at an error; nothing is accepted after that.
-/

namespace LocalIpc.Loop

variable {σ α : Type}

/-! ## Rounds -/

/-- From one state to another these clients are accepted, each with the flag set, and each is handed
on before the next. -/
inductive Rounds (s : Service σ α) (handle : α → σ → σ) : σ → List α → σ → Prop
  | nil (w : σ) : Rounds s handle w [] w
  | cons {w v u : σ} {c : α} {cs : List α} : s.running w = true → s.accept w = (.ok c, v) →
      Rounds s handle (handle c v) cs u → Rounds s handle w (c :: cs) u

/-- Why the loop goes no further after so many clients, how it ends, and in which state. -/
inductive Ends (s : Service σ α) (clients : Nat) (v : σ) : Ending → σ → Prop
  | lowered : s.running v = false → Ends s clients v (.stopped clients) v
  | stopped {e : ListenerError} {w : σ} : s.running v = true → s.accept v = (.error e, w) →
      s.running w = false ∨ e.isMisuse = true → Ends s clients v (.stopped clients) w
  | failed {e : ListenerError} {w : σ} : s.running v = true → s.accept v = (.error e, w) →
      s.running w = true → e.isMisuse = false → Ends s clients v (.failed e) w

section Rounds

variable {s : Service σ α} {handle : α → σ → σ} {turns accepted n : Nat} {w w' v : σ}

/-- The rounds that were made leave the loop with fewer turns. -/
theorem Rounds.serveFrom_add {cs : List α} (h : Rounds s handle w cs v) (turns accepted : Nat) :
    serveFrom s handle (cs.length + turns) accepted w =
      serveFrom s handle turns (accepted + cs.length) v := by
  induction h generalizing accepted with
  | nil w => simp
  | cons hr ha _ ih =>
    rw [List.length_cons, Nat.add_right_comm, ← Nat.add_assoc, Nat.add_right_comm accepted]
    simp only [serveFrom, hr, ha, if_true]
    exact ih (accepted + 1)

theorem Ends.serveFrom_succ {ending : Ending} (h : Ends s accepted v ending w') (turns : Nat) :
    serveFrom s handle (turns + 1) accepted v = (some ending, w') := by
  cases h with
  | lowered hr => simp [serveFrom, hr]
  | stopped hr ha hwhy => rcases hwhy with hwhy | hwhy <;> simp [serveFrom, hr, ha, hwhy]
  | failed hr ha hset he => simp [serveFrom, hr, ha, hset, he]

/-- The loop makes a round for each turn, unless it ends before. -/
theorem serveFrom_cases (s : Service σ α) (handle : α → σ → σ) (turns accepted : Nat) (w : σ) :
    ∃ cs v, Rounds s handle w cs v ∧
      (cs.length = turns ∧ serveFrom s handle turns accepted w = (none, v) ∨
        cs.length < turns ∧ ∃ ending w', Ends s (accepted + cs.length) v ending w' ∧
          serveFrom s handle turns accepted w = (some ending, w')) := by
  induction turns generalizing accepted w with
  | zero => exact ⟨[], w, .nil w, .inl ⟨rfl, rfl⟩⟩
  | succ turns ih =>
    by_cases hr : s.running w = true
    rotate_left
    · have hend : Ends s accepted w (.stopped accepted) w := .lowered (by simpa using hr)
      exact ⟨[], w, .nil w, .inr ⟨by simp, _, _, hend, hend.serveFrom_succ turns⟩⟩
    rcases ha : s.accept w with ⟨e | c, v⟩
    · have hend : ∃ ending, Ends s accepted w ending v := by
        by_cases hwhy : s.running v = false ∨ e.isMisuse = true
        · exact ⟨_, .stopped hr ha hwhy⟩
        · simp only [not_or, Bool.not_eq_false, Bool.not_eq_true] at hwhy
          exact ⟨_, .failed hr ha hwhy.1 hwhy.2⟩
      obtain ⟨ending, hend⟩ := hend
      exact ⟨[], w, .nil w, .inr ⟨by simp, _, _, hend, hend.serveFrom_succ turns⟩⟩
    · obtain ⟨cs, u, hrounds, hcase⟩ := ih (accepted + 1) (handle c v)
      have hstep : serveFrom s handle (turns + 1) accepted w =
          serveFrom s handle turns (accepted + 1) (handle c v) := by simp [serveFrom, hr, ha]
      refine ⟨c :: cs, u, .cons hr ha hrounds, ?_⟩
      rw [hstep, List.length_cons, ← Nat.add_assoc, Nat.add_right_comm]
      rcases hcase with ⟨hlen, hserve⟩ | ⟨hlen, hend⟩
      · exact .inl ⟨by omega, hserve⟩
      · exact .inr ⟨by omega, hend⟩

theorem serve_eq_some_iff {ending : Ending} :
    serve s handle turns w = (some ending, w') ↔
      ∃ cs v, cs.length < turns ∧ Rounds s handle w cs v ∧ Ends s cs.length v ending w' := by
  constructor
  · intro h
    obtain ⟨cs, v, hrounds, ⟨-, hserve⟩ | ⟨hlen, ending', w'', hend, hserve⟩⟩ :=
      serveFrom_cases s handle turns 0 w
    · rw [serve, hserve] at h
      simp at h
    · obtain ⟨hending, rfl⟩ := Prod.mk.inj (hserve.symm.trans h)
      obtain rfl := Option.some.inj hending
      exact ⟨cs, v, hlen, hrounds, by simpa using hend⟩
  · rintro ⟨cs, v, hlen, hrounds, hend⟩
    obtain ⟨more, rfl⟩ : ∃ more, turns = cs.length + (more + 1) := ⟨turns - cs.length - 1, by omega⟩
    rw [serve, hrounds.serveFrom_add, Nat.zero_add]
    exact hend.serveFrom_succ more

theorem serve_eq_none_iff :
    serve s handle turns w = (none, w') ↔ ∃ cs, cs.length = turns ∧ Rounds s handle w cs w' := by
  constructor
  · intro h
    obtain ⟨cs, v, hrounds, ⟨hlen, hserve⟩ | ⟨-, ending, w'', -, hserve⟩⟩ :=
      serveFrom_cases s handle turns 0 w
    · obtain rfl := (Prod.mk.inj (hserve.symm.trans h)).2
      exact ⟨cs, hlen, hrounds⟩
    · rw [serve, hserve] at h
      simp at h
  · rintro ⟨cs, rfl, hrounds⟩
    exact hrounds.serveFrom_add 0 0

/-- A service that can be seen as another is served as that one is. -/
theorem serveFrom_map {τ : Type} {s' : Service τ α} {handle' : α → τ → τ} (f : τ → σ)
    (hrunning : ∀ u, s'.running u = s.running (f u))
    (haccept : ∀ u, Prod.map id f (s'.accept u) = s.accept (f u))
    (hhandle : ∀ c u, f (handle' c u) = handle c (f u)) (turns accepted : Nat) (u : τ) :
    Prod.map id f (serveFrom s' handle' turns accepted u) =
      serveFrom s handle turns accepted (f u) := by
  induction turns generalizing accepted u with
  | zero => rfl
  | succ turns ih =>
    unfold serveFrom
    rw [hrunning, ← haccept]
    by_cases hrun : s.running (f u) = true
    · rw [if_pos hrun, if_pos hrun]
      rcases s'.accept u with ⟨e | c, v⟩
      · simp only [Prod.map, id, hrunning]
        split <;> rfl
      · simp only [Prod.map, id]
        rw [← hhandle]
        exact ih (accepted + 1) (handle' c v)
    · rw [if_neg hrun, if_neg hrun]
      rfl

end Rounds

/-! ## A diary of the loop -/

/-- What is done in the loop, or by those who hold a client of it. -/
inductive Act (α : Type)
  | accept (running : Bool) (given : Except ListenerError α)
  | handle (client : α)
  /-- The client is released that was accepted at this place among all. -/
  | release (client : α × Nat)

def Act.handled? : Act α → Option α
  | .handle c => some c
  | .accept .. | .release _ => none

def Act.released? : Act α → Option (α × Nat)
  | .release m => some m
  | .accept .. | .handle _ => none

section Fields

variable (b : Bool) (r : Except ListenerError α) (c : α) (m : α × Nat)

@[simp] theorem Act.handled?_accept : (Act.accept b r).handled? = none := rfl
@[simp] theorem Act.handled?_handle : (Act.handle c).handled? = some c := rfl
@[simp] theorem Act.handled?_release : (Act.release m).handled? = none := rfl
@[simp] theorem Act.released?_accept : (Act.accept b r).released? = none := rfl
@[simp] theorem Act.released?_handle : (Act.handle c).released? = none := rfl
@[simp] theorem Act.released?_release : (Act.release m).released? = some m := rfl

end Fields

/-- A state of the loop with what has been done so far. -/
structure Diary (σ α : Type) where
  state : σ
  /-- How many clients were handed on. -/
  clients : Nat
  /-- The clients that are still held, each with its place among all. -/
  held : List (α × Nat)
  acts : List (Act α)

namespace Diary

def start (w : σ) : Diary σ α := ⟨w, 0, [], []⟩

/-- The service, with a diary of its accepts. -/
def watch (s : Service σ α) : Service (Diary σ α) α where
  running d := s.running d.state
  accept d := ((s.accept d.state).1,
    { d with
      state := (s.accept d.state).2
      acts := d.acts ++ [.accept (s.running d.state) (s.accept d.state).1] })

/-- A new client is handed on, and whoever gets it holds it. -/
def receive (c : α) (w : σ) (d : Diary σ α) : Diary σ α :=
  ⟨w, d.clients + 1, d.held ++ [(c, d.clients)], d.acts ++ [.handle c]⟩

/-- Whatever is not kept any more is let go of. -/
def settle (keeps : α × Nat → Bool) (d : Diary σ α) : Diary σ α :=
  { d with
    held := d.held.filter keeps
    acts := d.acts ++ (d.held.filter fun m => !keeps m).map .release }

/-- The handler, with a diary. At its end it lets go of what it does not keep, be it the new client
or one that it has kept before. -/
def handle (handler : α → σ → σ) (keeps : σ → α × Nat → Bool) (c : α) (d : Diary σ α) :
    Diary σ α :=
  (d.receive c (handler c d.state)).settle (keeps (handler c d.state))

/-- At last everything that is still held is let go of. -/
def letGo (d : Diary σ α) : Diary σ α := d.settle fun _ => false

theorem held_letGo (d : Diary σ α) : d.letGo.held = [] := List.filter_eq_nil_iff.mpr (by simp)

end Diary

/-- The acts without the releases. -/
def plain (acts : List (Act α)) : List (Act α) := acts.filter fun a => a.released?.isNone

/-- A client is accepted with the flag set and handed on. -/
def round (c : α) : List (Act α) := [.accept true (.ok c), .handle c]

section Plain

@[simp] theorem plain_nil : plain ([] : List (Act α)) = [] := rfl

@[simp] theorem plain_append (as bs : List (Act α)) : plain (as ++ bs) = plain as ++ plain bs :=
  List.filter_append ..

@[simp] theorem plain_accept (b : Bool) (r : Except ListenerError α) (as : List (Act α)) :
    plain (.accept b r :: as) = .accept b r :: plain as := rfl

@[simp] theorem plain_handle (c : α) (as : List (Act α)) :
    plain (.handle c :: as) = .handle c :: plain as := rfl

@[simp] theorem plain_release (m : α × Nat) (as : List (Act α)) :
    plain (.release m :: as) = plain as := rfl

@[simp] theorem plain_releases (ms : List (α × Nat)) : plain (ms.map Act.release) = [] := by
  rw [plain, List.filter_eq_nil_iff]
  intro a ha
  obtain ⟨m, -, rfl⟩ := List.mem_map.mp ha
  simp

theorem handled_releases (ms : List (α × Nat)) :
    (ms.map Act.release).filterMap Act.handled? = [] := by
  rw [List.filterMap_eq_nil_iff]
  intro a ha
  obtain ⟨m, -, rfl⟩ := List.mem_map.mp ha
  rfl

theorem released_releases (ms : List (α × Nat)) :
    (ms.map Act.release).filterMap Act.released? = ms := by
  rw [List.filterMap_map]
  exact List.filterMap_some

end Plain

/-! ## What the diary tells -/

/-- Whatever is released was handed on before. -/
def ReleasedAfter (before : List (Act α)) (a : Act α) : Prop :=
  ∀ m, a.released? = some m → m ∈ (before.filterMap Act.handled?).zipIdx

/-- The diary of a loop that has accepted these clients, with what was done after the last of
them. -/
structure Diary.Tells (d : Diary σ α) (cs : List α) (last : List (Act α)) : Prop where
  rounds : plain d.acts = cs.flatMap round ++ last
  handled : d.acts.filterMap Act.handled? = cs
  clients : d.clients = cs.length
  /-- Each is released, or held still. -/
  custody : (d.acts.filterMap Act.released? ++ d.held).Perm cs.zipIdx
  after : AtEveryPoint ReleasedAfter d.acts

namespace Diary

variable {s : Service σ α} {handler : α → σ → σ} {keeps : σ → α × Nat → Bool} {d : Diary σ α}
  {cs : List α} {last : List (Act α)}

theorem tells_start (w : σ) : (start w : Diary σ α).Tells [] [] :=
  ⟨rfl, rfl, rfl, .refl _, atEveryPoint_nil⟩

theorem releasedAfter_of_none {before : List (Act α)} {a : Act α} (h : a.released? = none) :
    ReleasedAfter before a := by
  intro m hm
  rw [h] at hm
  contradiction

/-- Whatever was handed on can be released. -/
theorem released_after {acts : List (Act α)} (h : AtEveryPoint ReleasedAfter acts)
    {ms : List (α × Nat)} (hms : ∀ m ∈ ms, m ∈ (acts.filterMap Act.handled?).zipIdx) :
    AtEveryPoint ReleasedAfter (acts ++ ms.map .release) := by
  induction ms using List.reverseRecOn with
  | nil => simpa using h
  | append_singleton ms m ih =>
    rw [List.map_append, List.map_singleton, ← List.append_assoc]
    refine (atEveryPoint_snoc _ _).mpr ⟨ih fun k hk => hms k (by simp [hk]), ?_⟩
    intro k hk
    obtain rfl := Option.some.inj hk
    rw [List.filterMap_append, handled_releases, List.append_nil]
    exact hms m (by simp)

/-- Whoever is held was handed on. -/
theorem Tells.mem_held (h : d.Tells cs last) {m : α × Nat} (hm : m ∈ d.held) :
    m ∈ (d.acts.filterMap Act.handled?).zipIdx := by
  rw [h.handled]
  exact h.custody.mem_iff.mp (List.mem_append_right _ hm)

/-- Letting go of clients only moves them from those that are held to those that are released. -/
theorem Tells.settle (h : d.Tells cs last) (keeps : α × Nat → Bool) :
    (d.settle keeps).Tells cs last where
  rounds := by simp [Diary.settle, h.rounds]
  handled := by
    rw [Diary.settle, List.filterMap_append, handled_releases, h.handled, List.append_nil]
  clients := h.clients
  custody := by
    have hparts := List.filter_append_perm (fun m => !keeps m) d.held
    simp only [Bool.not_not] at hparts
    rw [Diary.settle, List.filterMap_append, released_releases, List.append_assoc]
    exact (hparts.append_left _).trans h.custody
  after := released_after h.after fun _ hm => h.mem_held (List.mem_filter.mp hm).1

/-- A round adds a client to what the diary tells. -/
theorem Tells.receive (h : d.Tells cs []) (c : α) (w : σ) :
    (({ d with acts := d.acts ++ [.accept true (.ok c)] } : Diary σ α).receive c w).Tells
      (cs ++ [c]) [] where
  rounds := by simp [Diary.receive, h.rounds, Loop.round]
  handled := by simp [Diary.receive, h.handled, List.filterMap_cons]
  clients := by simp [Diary.receive, h.clients]
  custody := by
    have hcustody := h.custody.append_right [(c, cs.length)]
    simpa [Diary.receive, h.clients, List.zipIdx_append, List.filterMap_cons] using hcustody
  after := by
    simp only [Diary.receive, atEveryPoint_snoc]
    exact ⟨⟨h.after, releasedAfter_of_none rfl⟩, releasedAfter_of_none rfl⟩

/-- What the rounds leave behind is told. -/
theorem Tells.rounds_run (h : d.Tells cs []) {cs' : List α} {d' : Diary σ α}
    (hr : Rounds (watch s) (handle handler keeps) d cs' d') : d'.Tells (cs ++ cs') [] := by
  induction hr generalizing cs with
  | nil => simpa using h
  | @cons d _ _ c _ hrun haccept _ ih =>
    obtain ⟨hok, rfl⟩ := Prod.mk.inj haccept
    have hset : s.running d.state = true := hrun
    have hround := h.receive c (handler c (s.accept d.state).2)
    rw [List.append_cons]
    refine ih (Tells.settle ?_ _)
    rwa [hok, hset]

/-- An accept that fails is the last act that is told. -/
theorem Tells.refused (h : d.Tells cs []) (e : ListenerError) (w : σ) :
    ({ d with state := w, acts := d.acts ++ [.accept true (.error e)] } : Diary σ α).Tells cs
      [.accept true (.error e)] where
  rounds := by simp [h.rounds]
  handled := by simp [h.handled, List.filterMap_cons]
  clients := h.clients
  custody := by simpa [List.filterMap_cons] using h.custody
  after := (atEveryPoint_snoc _ _).mpr ⟨h.after, releasedAfter_of_none rfl⟩

theorem rounds_state {cs : List α} {d' : Diary σ α}
    (h : Rounds (watch s) (handle handler keeps) d cs d') :
    Rounds s handler d.state cs d'.state := by
  induction h with
  | nil => exact .nil _
  | cons hrun haccept _ ih =>
    obtain ⟨hok, rfl⟩ := Prod.mk.inj haccept
    exact .cons hrun (Prod.ext hok rfl) ih

theorem serveFrom_watch (turns accepted : Nat) (d : Diary σ α) :
    Prod.map id Diary.state (serveFrom (watch s) (handle handler keeps) turns accepted d) =
      serveFrom s handler turns accepted d.state :=
  serveFrom_map Diary.state (fun _ => rfl) (fun _ => rfl) (fun _ _ => rfl) turns accepted d

end Diary

/-! ## The contract of the loop -/

/-- What was done last in a loop that accepted so many clients, and how the loop has ended. -/
inductive Ended (s : Service σ α) (turns clients : Nat) (w : σ) :
    Option Ending → List (Act α) → Prop
  | outOfTurns : clients = turns → Ended s turns clients w none []
  | lowered : s.running w = false → Ended s turns clients w (some (.stopped clients)) []
  | stopped {e : ListenerError} : s.running w = false ∨ e.isMisuse = true →
      Ended s turns clients w (some (.stopped clients)) [.accept true (.error e)]
  | failed {e : ListenerError} : s.running w = true → e.isMisuse = false →
      Ended s turns clients w (some (.failed e)) [.accept true (.error e)]

section Contract

variable (s : Service σ α) (handler : α → σ → σ) (keeps : σ → α × Nat → Bool) (turns : Nat) (w : σ)

/-- The loop with its diary. -/
def watched : Option Ending × Diary σ α :=
  serve (Diary.watch s) (Diary.handle handler keeps) turns (Diary.start w)

/-- How the loop ends, and what it has done by then, whatever its handler lets go of and when. -/
structure Serves : Prop where
  /-- Nothing comes of keeping a diary. -/
  unnoticed : ((watched s handler keeps turns w).1, (watched s handler keeps turns w).2.state) =
    serve s handler turns w
  ends : ∀ ending w', serve s handler turns w = (some ending, w') ↔
    ∃ cs v, cs.length < turns ∧ Rounds s handler w cs v ∧ Ends s cs.length v ending w'
  goesOn : ∀ w', serve s handler turns w = (none, w') ↔
    ∃ cs, cs.length = turns ∧ Rounds s handler w cs w'
  /-- In the end each client that was accepted is released, and nothing is held any more. -/
  told : ∃ cs v last, Rounds s handler w cs v ∧
    (watched s handler keeps turns w).2.letGo.Tells cs last ∧
    (watched s handler keeps turns w).2.letGo.held = [] ∧
    Ended s turns cs.length (watched s handler keeps turns w).2.state
      (watched s handler keeps turns w).1 last

theorem watched_tells : ∃ cs v last, Rounds s handler w cs v ∧
    (watched s handler keeps turns w).2.Tells cs last ∧
    Ended s turns cs.length (watched s handler keeps turns w).2.state
      (watched s handler keeps turns w).1 last := by
  obtain ⟨cs, d, hrounds, hcase⟩ := serveFrom_cases (Diary.watch s) (Diary.handle handler keeps)
    turns 0 (Diary.start w)
  have htells : d.Tells cs [] := by simpa using (Diary.tells_start w).rounds_run hrounds
  have hplain : Rounds s handler w cs d.state := Diary.rounds_state hrounds
  rcases hcase with ⟨hlen, hserve⟩ | ⟨-, ending, d', hend, hserve⟩
  · refine ⟨cs, d.state, [], hplain, ?_, ?_⟩ <;> simp only [watched, serve, hserve]
    · exact htells
    · exact .outOfTurns hlen
  rw [Nat.zero_add] at hend
  simp only [watched, serve, hserve]
  cases hend with
  | lowered hlow => exact ⟨cs, d.state, [], hplain, htells, .lowered hlow⟩
  | @stopped e _ hset haccept hwhy =>
    obtain ⟨he, rfl⟩ := Prod.mk.inj haccept
    refine ⟨cs, d.state, [.accept true (.error e)], hplain, ?_, .stopped hwhy⟩
    rw [he, show s.running d.state = true from hset]
    exact htells.refused e _
  | @failed e _ hset haccept hstill hno =>
    obtain ⟨he, rfl⟩ := Prod.mk.inj haccept
    refine ⟨cs, d.state, [.accept true (.error e)], hplain, ?_, .failed hstill hno⟩
    rw [he, show s.running d.state = true from hset]
    exact htells.refused e _

theorem serves : Serves s handler keeps turns w where
  unnoticed := Diary.serveFrom_watch turns 0 (Diary.start w)
  ends _ _ := serve_eq_some_iff
  goesOn _ := serve_eq_none_iff
  told :=
    let ⟨cs, v, last, hrounds, htells, hended⟩ := watched_tells s handler keeps turns w
    ⟨cs, v, last, hrounds, htells.settle _, Diary.held_letGo _, hended⟩

end Contract

/-- What accepts and handlers keep is kept by the loop. -/
theorem serveFrom_invariant {s : Service σ α} {handle : α → σ → σ} {I : σ → Prop}
    (haccept : ∀ w, I w → I (s.accept w).2) (hhandle : ∀ c w, I w → I (handle c w))
    (turns accepted : Nat) {w : σ} (h : I w) : I (serveFrom s handle turns accepted w).2 := by
  induction turns generalizing accepted w with
  | zero => exact h
  | succ turns ih =>
    unfold serveFrom
    have hv := haccept w h
    split
    rotate_left
    · exact h
    split
    · rename_i c v heq
      rw [heq] at hv
      exact ih _ (hhandle c v hv)
    · rename_i e v heq
      rw [heq] at hv
      split <;> exact hv

/-! ## Scenes -/

def Act.happening : Act Handle → Happening
  | .accept .. => .accept
  | .handle h => .handler h
  | .release m => .released m.1

def Happening.released? : Happening → Option Handle
  | .released h => some h
  | .accept | .handler _ | .close => none

/-- The accepts and the handlers of a log. -/
def Happening.isRound : Happening → Bool
  | .accept | .handler _ => true
  | .released _ | .close => false

namespace Scene

/-- What a script keeps of its connections. -/
def keeps (t : Script) (_ : Scene) (m : Handle × Nat) : Bool := t.keep.contains m.1

/-- The scene has kept a diary of its own. -/
structure Mirrors (t : Script) (d : Diary Scene Handle) : Prop where
  log : d.state.log = d.acts.map Act.happening
  kept : d.state.kept = d.held.map Prod.fst
  held : ∀ m ∈ d.held, keeps t d.state m = true

theorem Mirrors.accept {t : Script} {d : Diary Scene Handle} (h : Mirrors t d) :
    Mirrors t ((Diary.watch service).accept d).2 := by
  have hlog : (Scene.accept d.state).2.log = d.state.log ++ [.accept] := by
    unfold Scene.accept
    split <;> rfl
  have hkept : (Scene.accept d.state).2.kept = d.state.kept := by
    unfold Scene.accept
    split <;> rfl
  exact ⟨by simp [Diary.watch, service, hlog, h.log, Act.happening], hkept.trans h.kept, h.held⟩

theorem Mirrors.handle {t : Script} {d : Diary Scene Handle} (h : Mirrors t d) (c : Handle) :
    Mirrors t (Diary.handle (Scene.handle t) (keeps t) c d) := by
  have hkept : d.held.filter (keeps t (Scene.handle t c d.state)) = d.held :=
    List.filter_eq_self.mpr h.held
  have hlet : d.held.filter (fun m => !keeps t (Scene.handle t c d.state) m) = [] :=
    List.filter_eq_nil_iff.mpr fun m hm => by simpa [keeps] using h.held m hm
  refine ⟨?_, ?_, fun m hm => (List.mem_filter.mp hm).2⟩ <;>
    simp only [Diary.handle, Diary.receive, Diary.settle, List.filter_append, hkept, hlet] <;>
    by_cases hc : c ∈ t.keep
  · simp [Scene.handle, Scene.note, keeps, hc, h.log, Act.happening]
  · simp [Scene.handle, Scene.note, keeps, hc, h.log, Act.happening]
  · simp [Scene.handle, Scene.note, keeps, hc, h.kept]
  · simp [Scene.handle, Scene.note, keeps, hc, h.kept]

/-- The rounds use up an attempt each, and there are no more of them than attempts. -/
theorem attempts_of_rounds {t : Script} {w v : Scene} {cs : List Handle}
    (h : Rounds service (Scene.handle t) w cs v) :
    (w.attempts.take cs.length).map Attempt.result = cs.map .ok := by
  induction h with
  | nil => rfl
  | @cons w v u c cs hrun haccept _ ih =>
    have hv : (Scene.handle t c v).attempts = v.attempts := by
      unfold Scene.handle
      split <;> rfl
    rcases w with ⟨running, _ | ⟨a, rest⟩, kept, log⟩
    · simp [service, Scene.accept] at haccept
    · obtain ⟨hok, rfl⟩ := Prod.mk.inj haccept
      rw [hv] at ih
      simpa [note, show a.result = .ok c from hok] using ih

/-- A scene plays to its end. Its clients are handed on in turn and released once each, at the end
of their handler or after the close of the listener. -/
structure Plays (t : Script) (closes : List (Except ListenerError Unit)) (running : Bool)
    (attempts : List Attempt) (cs : List Handle) (ending : Ending) (s : Scene) : Prop where
  performs : perform t closes (start running attempts) =
    (some ending, closes.map CommandFailure.ofClose?, s)
  attempts : (attempts.take cs.length).map Attempt.result = cs.map .ok
  rounds : ∃ last, (last = [] ∨ last = [.accept]) ∧
    s.log.filter Happening.isRound = cs.flatMap (fun c => [.accept, .handler c]) ++ last
  released : (s.log.filterMap Happening.released?).Perm cs

theorem foldl_note {β : Type} (f : β → Happening) (xs : List β) (s : Scene) :
    xs.foldl (fun s x => s.note (f x)) s = { s with log := s.log ++ xs.map f } := by
  induction xs generalizing s with
  | nil => simp
  | cons x xs ih =>
    rw [List.foldl_cons, ih]
    simp [note]

theorem isRound_happening (acts : List (Act Handle)) :
    (acts.map Act.happening).filter Happening.isRound = (plain acts).map Act.happening := by
  induction acts with
  | nil => rfl
  | cons a acts ih =>
    cases a <;> simp [Act.happening, Happening.isRound, List.filter_cons, ih]

theorem released_happening (acts : List (Act Handle)) :
    (acts.map Act.happening).filterMap Happening.released? =
      (acts.filterMap Act.released?).map Prod.fst := by
  induction acts with
  | nil => rfl
  | cons a acts ih =>
    cases a <;> simp [Act.happening, Happening.released?, List.filterMap_cons, ih]

theorem plays (t : Script) (closes : List (Except ListenerError Unit)) (running : Bool)
    (attempts : List Attempt) : ∃ cs ending s, Plays t closes running attempts cs ending s := by
  obtain ⟨cs, v, last, hrounds, htells, hended⟩ := watched_tells service (Scene.handle t) (keeps t)
    (attempts.length + 1) (start running attempts)
  have hmirrors : Mirrors t (watched service (Scene.handle t) (keeps t) (attempts.length + 1)
      (start running attempts)).2 :=
    serveFrom_invariant (fun _ h => h.accept) (fun c _ h => h.handle c) _ _
      ⟨rfl, rfl, by simp [Diary.start]⟩
  have hserve := (serves service (Scene.handle t) (keeps t) (attempts.length + 1)
    (start running attempts)).unnoticed
  have hattempts := attempts_of_rounds hrounds
  generalize watched service (Scene.handle t) (keeps t) (attempts.length + 1)
    (start running attempts) = out at *
  obtain ⟨_ | ending, d⟩ := out
  · have hlen := congrArg List.length hattempts
    cases hended with
    | outOfTurns hturns => simp [start] at hlen; omega
  have hperform : perform t closes (start running attempts) = (some ending,
      closes.map CommandFailure.ofClose?, { d.state with
        log := d.state.log ++ closes.map (fun _ => .close) ++ d.state.kept.map .released }) := by
    unfold perform
    rw [show (start running attempts).attempts = attempts from rfl, ← hserve]
    simp only [foldl_note]
  -- what the diary tells of the loop, the log of the scene mirrors
  have hlog : d.state.log = d.acts.map Act.happening := hmirrors.log
  have hkept : d.state.kept = d.held.map Prod.fst := hmirrors.kept
  refine ⟨cs, ending, _, hperform, hattempts, ⟨last.map Act.happening, ?_, ?_⟩, ?_⟩
  · cases hended <;> simp [Act.happening]
  · -- behind the loop there are only closes, and releases of what was kept
    have hround : (cs.flatMap round).map Act.happening =
        cs.flatMap fun c => [.accept, .handler c] := by
      rw [List.map_flatMap]
      rfl
    have hreleases : (d.state.kept.map Happening.released).filter Happening.isRound = [] :=
      List.filter_eq_nil_iff.mpr (by simp [Happening.isRound])
    have hcloses : (closes.map fun _ => Happening.close).filter Happening.isRound = [] :=
      List.filter_eq_nil_iff.mpr (by simp [Happening.isRound])
    simp only [List.filter_append, hlog, isRound_happening,
      show plain d.acts = _ from htells.rounds, List.map_append, hround, hreleases, hcloses,
      List.append_nil]
  · have hcustody := htells.custody.map Prod.fst
    have hplaces : cs.zipIdx.map Prod.fst = cs := by simp
    rw [hplaces, List.map_append] at hcustody
    have hreleases : (d.state.kept.map Happening.released).filterMap Happening.released? =
        d.held.map Prod.fst := by
      rw [List.filterMap_map, hkept]
      exact List.filterMap_some
    have hcloses : (closes.map fun _ => Happening.close).filterMap Happening.released? = [] :=
      List.filterMap_eq_nil_iff.mpr (by simp [Happening.released?])
    simp only [List.filterMap_append, hlog, released_happening, hreleases, hcloses,
      List.append_nil]
    exact hcustody

end Scene

/-- Whatever the listener, the handler and the flag do, each client is handed on once and released
once, and the loop ends for the reason that it gives. So it does in a scene, which always ends. -/
theorem every_client_served_once :
    (∀ (σ α : Type) (s : Service σ α) (handler : α → σ → σ) (keeps : σ → α × Nat → Bool)
      (turns : Nat) (w : σ), Serves s handler keeps turns w) ∧
    ∀ (t : Script) (closes : List (Except ListenerError Unit)) (running : Bool)
      (attempts : List Attempt), ∃ cs ending s, Scene.Plays t closes running attempts cs ending s :=
  ⟨fun _ _ => serves, Scene.plays⟩

end LocalIpc.Loop

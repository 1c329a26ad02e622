/-!
# Bookkeeping over a history

A history opens things and closes them again, each by its value, and a value may come back after it
was closed. Whoever may still close a value owes it. When what is owed is just what is open, nothing
is closed twice, and nothing stays open once nobody owes anything.
-/

namespace LocalIpc

/-! ## Points of a history -/

/-- Every entry has the property, with the entries before it. -/
def AtEveryPoint {ε : Type} (p : List ε → ε → Prop) (es : List ε) : Prop :=
  ∀ i, ∀ h : i < es.length, p (es.take i) es[i]

instance {ε : Type} (p : List ε → ε → Prop) [∀ b e, Decidable (p b e)] (es : List ε) :
    Decidable (AtEveryPoint p es) :=
  inferInstanceAs (Decidable (∀ i, ∀ h : i < es.length, p (es.take i) es[i]))

section Points

variable {ε : Type} {p : List ε → ε → Prop}

theorem atEveryPoint_nil : AtEveryPoint p [] := by
  intro i h
  simp at h

theorem atEveryPoint_snoc (es : List ε) (e : ε) :
    AtEveryPoint p (es ++ [e]) ↔ AtEveryPoint p es ∧ p es e := by
  constructor
  · intro h
    refine ⟨fun i hi => ?_, ?_⟩
    · have := h i (by simp; omega)
      rwa [List.take_append_of_le_length (by omega), List.getElem_append_left hi] at this
    · have := h es.length (by simp)
      simpa using this
  · rintro ⟨h, he⟩ i hi
    rcases Nat.lt_or_ge i es.length with hlt | hge
    · rw [List.take_append_of_le_length (by omega), List.getElem_append_left hlt]
      exact h i hlt
    · have hi' : i = es.length := by simp at hi; omega
      subst hi'
      simpa using he

/-- What holds at every point of a history holds at every point of its beginning. -/
theorem AtEveryPoint.of_append {es fs : List ε} (h : AtEveryPoint p (es ++ fs)) :
    AtEveryPoint p es := by
  intro i hi
  have := h i (by simp; omega)
  rwa [List.take_append_of_le_length (by omega), List.getElem_append_left hi] at this

theorem AtEveryPoint.of_prefix {es fs : List ε} (h : AtEveryPoint p fs) (hp : es <+: fs) :
    AtEveryPoint p es := by
  obtain ⟨gs, rfl⟩ := hp
  exact h.of_append

theorem AtEveryPoint.at_split {before after : List ε} {e : ε}
    (h : AtEveryPoint p (before ++ e :: after)) : p before e := by
  have h' : AtEveryPoint p ((before ++ [e]) ++ after) := by simpa using h
  exact ((atEveryPoint_snoc before e).mp h'.of_append).2

end Points

/-! ## Owners in a list -/

/-- What the members of a list own, with one member set apart: another one in its place owns what
it owns, and the rest is the same. -/
theorem perm_flatMap_set {α β : Type} {xs : List α} {i : Nat} {x : α} (hx : xs[i]? = some x)
    (f : α → List β) :
    ∃ rest, (xs.flatMap f).Perm (f x ++ rest) ∧
      ∀ y, ((xs.set i y).flatMap f).Perm (f y ++ rest) := by
  obtain ⟨hi, hget⟩ := List.getElem?_eq_some_iff.mp hx
  have hsplit : xs = xs.take i ++ x :: xs.drop (i + 1) := by
    rw [← hget, ← List.drop_eq_getElem_cons hi, List.take_append_drop]
  refine ⟨(xs.take i).flatMap f ++ (xs.drop (i + 1)).flatMap f, ?_, fun y => ?_⟩
  · have := congrArg (List.flatMap f) hsplit
    rw [List.flatMap_append, List.flatMap_cons] at this
    rw [this]
    exact List.perm_append_comm_assoc ..
  · rw [List.set_eq_take_append_cons_drop, if_pos hi, List.flatMap_append, List.flatMap_cons]
    exact List.perm_append_comm_assoc ..

/-- Nothing has two owners in a list where nothing is owned twice. -/
theorem eq_of_mem_flatMap {α β : Type} {xs : List α} {f : α → List β} (h : (xs.flatMap f).Nodup)
    {i j : Nat} {a b : α} {c : β} (hi : xs[i]? = some a) (hj : xs[j]? = some b) (ha : c ∈ f a)
    (hb : c ∈ f b) : i = j := by
  obtain ⟨hi', rfl⟩ := List.getElem?_eq_some_iff.mp hi
  obtain ⟨hj', rfl⟩ := List.getElem?_eq_some_iff.mp hj
  have hapart := List.pairwise_iff_getElem.mp (List.pairwise_flatMap.mp h).2
  rcases Nat.lt_trichotomy i j with hij | hij | hij
  · exact absurd rfl (hapart i j hi' hj' hij c ha c hb)
  · exact hij
  · exact absurd rfl (hapart j i hj' hi' hij c hb c ha)

/-! ## What is open -/

/-- Which entries of a history open something, and which close it. -/
structure Account (ε κ : Type) where
  opens : ε → Option κ
  closes : ε → Option κ

namespace Account

variable {ε κ : Type} [DecidableEq κ] (a : Account ε κ)

def timesOpened (es : List ε) (k : κ) : Nat := es.countP fun e => a.opens e = some k

def timesClosed (es : List ε) (k : κ) : Nat := es.countP fun e => a.closes e = some k

/-- It was opened, and not closed since. -/
def IsOpen (es : List ε) (k : κ) : Prop := a.timesClosed es k < a.timesOpened es k

instance (es : List ε) (k : κ) : Decidable (a.IsOpen es k) :=
  inferInstanceAs (Decidable (_ < _))

/-- Nothing is opened that is open already. -/
def OpensFresh (es : List ε) : Prop :=
  AtEveryPoint (fun before e => ∀ k ∈ a.opens e, ¬ a.IsOpen before k) es

/-- Only what is open is closed. -/
def ClosesOpen (es : List ε) : Prop :=
  AtEveryPoint (fun before e => ∀ k ∈ a.closes e, a.IsOpen before k) es

instance (es : List ε) : Decidable (a.OpensFresh es) :=
  inferInstanceAs (Decidable (AtEveryPoint _ es))

instance (es : List ε) : Decidable (a.ClosesOpen es) :=
  inferInstanceAs (Decidable (AtEveryPoint _ es))

theorem timesOpened_snoc (es : List ε) (e : ε) (k : κ) :
    a.timesOpened (es ++ [e]) k = a.timesOpened es k + if a.opens e = some k then 1 else 0 := by
  simp [timesOpened, List.countP_append, List.countP_singleton]

theorem timesClosed_snoc (es : List ε) (e : ε) (k : κ) :
    a.timesClosed (es ++ [e]) k = a.timesClosed es k + if a.closes e = some k then 1 else 0 := by
  simp [timesClosed, List.countP_append, List.countP_singleton]

/-- An entry that opens and closes nothing leaves what is open. -/
theorem isOpen_snoc {es : List ε} {e : ε} (ho : a.opens e = none) (hc : a.closes e = none) (k : κ) :
    a.IsOpen (es ++ [e]) k ↔ a.IsOpen es k := by
  unfold IsOpen
  rw [timesOpened_snoc, timesClosed_snoc]
  simp [ho, hc]

/-! ## Balanced books -/

/-- Only what is open was closed, and what is owed is what is open, each once. -/
structure Balanced (es : List ε) (owed : List κ) : Prop where
  closesOpen : a.ClosesOpen es
  count : ∀ k, a.timesOpened es k = a.timesClosed es k + owed.count k
  nodup : owed.Nodup

variable {a} {es : List ε} {owed owed' : List κ} {e : ε} {k : κ}

theorem balanced_nil : a.Balanced [] [] :=
  ⟨atEveryPoint_nil, by simp [timesOpened, timesClosed], List.nodup_nil⟩

theorem Balanced.isOpen_iff (h : a.Balanced es owed) : a.IsOpen es k ↔ k ∈ owed := by
  have hc := h.count k
  rw [← List.count_pos_iff]
  unfold IsOpen
  omega

theorem Balanced.of_perm (h : a.Balanced es owed) (hp : owed.Perm owed') : a.Balanced es owed' :=
  ⟨h.closesOpen, fun k => by rw [h.count k, hp.count_eq k], hp.nodup_iff.mp h.nodup⟩

/-- An entry that opens and closes nothing leaves the books as they are. -/
theorem Balanced.note (h : a.Balanced es owed) (ho : a.opens e = none) (hc : a.closes e = none) :
    a.Balanced (es ++ [e]) owed := by
  refine ⟨(atEveryPoint_snoc es e).mpr ⟨h.closesOpen, by simp [hc]⟩, fun k => ?_, h.nodup⟩
  rw [timesOpened_snoc, timesClosed_snoc, h.count k]
  simp [ho, hc]

theorem Balanced.opened (h : a.Balanced es owed) (ho : a.opens e = some k)
    (hc : a.closes e = none) (hf : a.OpensFresh (es ++ [e])) :
    a.Balanced (es ++ [e]) (k :: owed) := by
  have hk : k ∉ owed := fun hk =>
    ((atEveryPoint_snoc es e).mp hf).2 k ho (h.isOpen_iff.mpr hk)
  refine ⟨(atEveryPoint_snoc es e).mpr ⟨h.closesOpen, by simp [hc]⟩, fun j => ?_,
    List.nodup_cons.mpr ⟨hk, h.nodup⟩⟩
  rw [timesOpened_snoc, timesClosed_snoc, h.count j, List.count_cons]
  simp only [ho, hc, Option.some.injEq, beq_iff_eq, reduceCtorEq, if_false]
  omega

/-- What is owed may be closed. -/
theorem Balanced.closed (h : a.Balanced es (k :: owed)) (ho : a.opens e = none)
    (hc : a.closes e = some k) : a.Balanced (es ++ [e]) owed := by
  refine ⟨(atEveryPoint_snoc es e).mpr ⟨h.closesOpen, fun j hj => ?_⟩, fun j => ?_,
    (List.nodup_cons.mp h.nodup).2⟩
  · rw [hc, Option.mem_some] at hj
    subst hj
    exact h.isOpen_iff.mpr (List.mem_cons_self ..)
  · have hj := h.count j
    rw [List.count_cons] at hj
    rw [timesOpened_snoc, timesClosed_snoc, hj]
    simp only [ho, hc, Option.some.injEq, beq_iff_eq, reduceCtorEq, if_false]
    omega

/-- When nothing is owed, everything was closed once for every time that it was opened. -/
theorem Balanced.settled (h : a.Balanced es []) (k : κ) :
    a.timesClosed es k = a.timesOpened es k := by
  simp [h.count k]

end Account

end LocalIpc

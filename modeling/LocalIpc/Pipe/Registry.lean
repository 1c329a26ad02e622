import LocalIpc.Handle
/-!
# The registry of pipe instances

The instances that a listener has made and not yet given back: those that wait for a client, and
those that were handed out. Whoever takes a handle out of the registry gives it back, and nobody
else does.
-/

namespace LocalIpc

/-! ## Sets of handles -/

/-- Handles without repeats, in ascending order. A hashed set has no order of its own: it is emptied
in whatever order it happens to hold its members. One order stands for all of them. Handles are
only ever compared for equality here, a set is emptied as a whole, and what comes of each member
is up to the environment, which may know the handles by any numbers: emptying a set in another
order is emptying it in ascending order with its members numbered in that order. -/
abbrev HandleSet := List Handle

namespace HandleSet

def insert (h : Handle) : HandleSet → HandleSet
  | [] => [h]
  | x :: xs => if h.before x then h :: x :: xs else if h = x then x :: xs else x :: insert h xs

def remove (h : Handle) (s : HandleSet) : HandleSet := s.filter fun x => x ≠ h

theorem mem_insert {a h : Handle} {s : HandleSet} : a ∈ insert h s ↔ a = h ∨ a ∈ s := by
  induction s with
  | nil => simp [insert]
  | cons x xs ih =>
    unfold insert
    split
    · simp
    · split
      · rename_i hx; subst hx; simp
      · simp only [List.mem_cons, ih]; exact or_left_comm

@[simp] theorem remove_nil (h : Handle) : remove h [] = [] := rfl

theorem mem_remove {a h : Handle} {s : HandleSet} : a ∈ remove h s ↔ a ∈ s ∧ a ≠ h := by
  simp [remove]

theorem perm_insert {h : Handle} {s : HandleSet} (hs : h ∉ s) : (insert h s).Perm (h :: s) := by
  induction s with
  | nil => exact .refl _
  | cons x xs ih =>
    simp only [List.mem_cons, not_or] at hs
    unfold insert
    split
    · exact .refl _
    · rw [if_neg hs.1]
      exact ((ih hs.2).cons x).trans (.swap h x xs)

theorem perm_remove {h : Handle} {s : HandleSet} (hn : s.Nodup) (hs : h ∈ s) :
    (h :: remove h s).Perm s := by
  have heq : remove h s = s.erase h := by
    rw [hn.erase_eq_filter h]
    exact List.filter_congr fun x _ => by by_cases hx : x = h <;> simp [hx]
  rw [heq]
  exact (List.perm_cons_erase hs).symm

theorem remove_of_not_mem {h : Handle} {s : HandleSet} (hs : h ∉ s) : remove h s = s := by
  unfold remove
  rw [List.filter_eq_self]
  intro x hx
  exact decide_eq_true fun heq => hs (heq ▸ hx)

end HandleSet

/-! ## The registry -/

structure Registry where
  /-- The instances that wait for a client. -/
  waiting : HandleSet
  /-- The instances that were handed out. -/
  handedOut : HandleSet
  deriving DecidableEq

namespace Registry

def empty : Registry := ⟨[], []⟩

def isWaiting (r : Registry) (h : Handle) : Bool := h ∈ r.waiting

def isHandedOut (r : Registry) (h : Handle) : Bool := h ∈ r.handedOut

/-- Adds a new instance, unless the handle is known already. -/
def enroll (r : Registry) (h : Handle) : Bool × Registry :=
  if r.isHandedOut h || r.isWaiting h then (false, r)
  else (true, { r with waiting := HandleSet.insert h r.waiting })

/-- Moves an instance that waits to those that are handed out. It fails when the instance does not
wait any more. -/
def handOut (r : Registry) (h : Handle) : Bool × Registry :=
  if r.isWaiting h then
    (true, ⟨HandleSet.remove h r.waiting, HandleSet.insert h r.handedOut⟩)
  else (false, r)

def strikeWaiting (r : Registry) (h : Handle) : Bool × Registry :=
  (r.isWaiting h, { r with waiting := HandleSet.remove h r.waiting })

def strikeHandedOut (r : Registry) (h : Handle) : Bool × Registry :=
  (r.isHandedOut h, { r with handedOut := HandleSet.remove h r.handedOut })

/-- Takes out every instance that waits, lowest handle first. -/
def clearWaiting (r : Registry) : List Handle × Registry := (r.waiting, { r with waiting := [] })

/-- Takes out every instance that was handed out, lowest handle first. -/
def clearHandedOut (r : Registry) : List Handle × Registry :=
  (r.handedOut, { r with handedOut := [] })

/-- How many instances wait, and how many are handed out. -/
def sizes (r : Registry) : Nat × Nat := (r.waiting.length, r.handedOut.length)

@[simp] theorem handedOut_enroll (r : Registry) (h : Handle) :
    (r.enroll h).2.handedOut = r.handedOut := by
  unfold enroll
  split <;> rfl

@[simp] theorem waiting_strikeWaiting (r : Registry) (h : Handle) :
    (r.strikeWaiting h).2.waiting = HandleSet.remove h r.waiting := rfl

@[simp] theorem handedOut_strikeWaiting (r : Registry) (h : Handle) :
    (r.strikeWaiting h).2.handedOut = r.handedOut := rfl

@[simp] theorem waiting_strikeHandedOut (r : Registry) (h : Handle) :
    (r.strikeHandedOut h).2.waiting = r.waiting := rfl

@[simp] theorem handedOut_strikeHandedOut (r : Registry) (h : Handle) :
    (r.strikeHandedOut h).2.handedOut = HandleSet.remove h r.handedOut := rfl

/-- A handle that is not tracked begins to wait. -/
theorem waiting_enroll {r : Registry} {h : Handle} (hw : h ∉ r.waiting) (ho : h ∉ r.handedOut) :
    (r.enroll h).2.waiting = HandleSet.insert h r.waiting := by
  simp [enroll, isWaiting, isHandedOut, hw, ho]

/-- A handle that waits is moved when it is handed out. -/
theorem handOut_of_waiting {r : Registry} {h : Handle} (hw : h ∈ r.waiting) :
    (r.handOut h).2 = ⟨HandleSet.remove h r.waiting, HandleSet.insert h r.handedOut⟩ := by
  simp [handOut, isWaiting, hw]

end Registry

/-! ## Uses of the registry -/

/-- One use of the registry. -/
inductive RegistryUse
  | enroll (h : Handle)
  | handOut (h : Handle)
  | strikeWaiting (h : Handle)
  | strikeHandedOut (h : Handle)
  | isWaiting (h : Handle)
  | isHandedOut (h : Handle)
  | clearWaiting
  | clearHandedOut
  deriving DecidableEq

/-- What a use of the registry answers. -/
inductive RegistryAnswer
  | flag (b : Bool)
  | handles (hs : List Handle)
  deriving DecidableEq

namespace Registry

def use (r : Registry) : RegistryUse → RegistryAnswer × Registry
  | .enroll h => (.flag (r.enroll h).1, (r.enroll h).2)
  | .handOut h => (.flag (r.handOut h).1, (r.handOut h).2)
  | .strikeWaiting h => (.flag (r.strikeWaiting h).1, (r.strikeWaiting h).2)
  | .strikeHandedOut h => (.flag (r.strikeHandedOut h).1, (r.strikeHandedOut h).2)
  | .isWaiting h => (.flag (r.isWaiting h), r)
  | .isHandedOut h => (.flag (r.isHandedOut h), r)
  | .clearWaiting => (.handles r.clearWaiting.1, r.clearWaiting.2)
  | .clearHandedOut => (.handles r.clearHandedOut.1, r.clearHandedOut.2)

/-- The answers to a run of uses, each with the sizes after it. -/
def answers (r : Registry) : List RegistryUse → List (RegistryAnswer × Nat × Nat)
  | [] => []
  | u :: us => ((r.use u).1, (r.use u).2.sizes) :: answers (r.use u).2 us

end Registry

end LocalIpc

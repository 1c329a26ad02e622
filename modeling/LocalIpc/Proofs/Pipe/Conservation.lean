import Mathlib.Data.Set.Card
import LocalIpc.Pipe.Registry
/-!
# Every registration is handed back once

A handle that is enrolled is tracked until somebody takes it out of the registry: by striking it, or
by clearing the set that it is in. A use of the registry is atomic, so a run of uses stands for any
interleaving of those who share the registry.
-/

namespace LocalIpc

/-! ## Sets of handles -/

theorem HandleSet.nodup_insert {h : Handle} {s : HandleSet} (hn : s.Nodup) (hs : h ∉ s) :
    (HandleSet.insert h s).Nodup :=
  (HandleSet.perm_insert hs).nodup_iff.mpr (List.nodup_cons.mpr ⟨hs, hn⟩)

theorem HandleSet.nodup_remove {s : HandleSet} (hn : s.Nodup) (h : Handle) :
    (HandleSet.remove h s).Nodup := hn.filter _

theorem HandleSet.count_insert {h : Handle} {s : HandleSet} (hs : h ∉ s) (k : Handle) :
    (HandleSet.insert h s).count k = s.count k + if h = k then 1 else 0 := by
  rw [(HandleSet.perm_insert hs).count_eq k, List.count_cons]
  simp

/-- What was in the set and is taken out is counted once less. -/
theorem HandleSet.count_remove {s : HandleSet} (hn : s.Nodup) (h k : Handle) :
    (HandleSet.remove h s).count k + (if h ∈ s ∧ h = k then 1 else 0) = s.count k := by
  by_cases hs : h ∈ s
  · rw [← (HandleSet.perm_remove hn hs).count_eq k, List.count_cons]
    simp [hs]
  · rw [HandleSet.remove_of_not_mem hs]
    simp [hs]

/-- A set without repeats has as many members as its list is long. -/
theorem HandleSet.ncard_mem {s : HandleSet} (hn : s.Nodup) : {h | h ∈ s}.ncard = s.length := by
  have heq : {h | h ∈ s} = (s.toFinset : Set Handle) := by ext h; simp
  rw [heq, Set.ncard_coe_finset, List.toFinset_card_of_nodup hn]

namespace Registry

/-! ## What every use keeps -/

/-- No handle is in a set twice, or in both sets. -/
structure Sound (r : Registry) : Prop where
  waiting : r.waiting.Nodup
  handedOut : r.handedOut.Nodup
  apart : ∀ h ∈ r.waiting, h ∉ r.handedOut

section Kept

variable {r : Registry} {h k : Handle}

theorem sound_empty : Sound empty :=
  ⟨List.nodup_nil, List.nodup_nil, by simp [empty]⟩

theorem Sound.enroll (hr : r.Sound) (h : Handle) : (r.enroll h).2.Sound := by
  unfold Registry.enroll
  split
  · exact hr
  rename_i hnew
  obtain ⟨ho, hw⟩ : h ∉ r.handedOut ∧ h ∉ r.waiting := by
    simpa [isHandedOut, isWaiting] using hnew
  refine ⟨HandleSet.nodup_insert hr.waiting hw, hr.handedOut, fun k hk => ?_⟩
  rcases HandleSet.mem_insert.mp hk with rfl | hk
  · exact ho
  · exact hr.apart k hk

theorem Sound.handOut (hr : r.Sound) (h : Handle) : (r.handOut h).2.Sound := by
  unfold Registry.handOut
  split
  rotate_left
  · exact hr
  rename_i hwaits
  have hw : h ∈ r.waiting := by simpa [isWaiting] using hwaits
  refine ⟨HandleSet.nodup_remove hr.waiting h,
    HandleSet.nodup_insert hr.handedOut (hr.apart h hw), fun k hk hmem => ?_⟩
  obtain ⟨hk, hne⟩ := HandleSet.mem_remove.mp hk
  rcases HandleSet.mem_insert.mp hmem with rfl | hmem
  · exact hne rfl
  · exact hr.apart k hk hmem

theorem Sound.strikeWaiting (hr : r.Sound) (h : Handle) : (r.strikeWaiting h).2.Sound :=
  ⟨HandleSet.nodup_remove hr.waiting h, hr.handedOut,
    fun k hk => hr.apart k (HandleSet.mem_remove.mp hk).1⟩

theorem Sound.strikeHandedOut (hr : r.Sound) (h : Handle) : (r.strikeHandedOut h).2.Sound :=
  ⟨hr.waiting, HandleSet.nodup_remove hr.handedOut h,
    fun k hk hmem => hr.apart k hk (HandleSet.mem_remove.mp hmem).1⟩

theorem Sound.use (hr : r.Sound) (u : RegistryUse) : (r.use u).2.Sound := by
  cases u with
  | enroll h => exact hr.enroll h
  | handOut h => exact hr.handOut h
  | strikeWaiting h => exact hr.strikeWaiting h
  | strikeHandedOut h => exact hr.strikeHandedOut h
  | isWaiting h | isHandedOut h => exact hr
  | clearWaiting => exact ⟨List.nodup_nil, hr.handedOut, by simp [Registry.use, clearWaiting]⟩
  | clearHandedOut => exact ⟨hr.waiting, List.nodup_nil, by simp [Registry.use, clearHandedOut]⟩

end Kept

/-! ## Dealings -/

/-- A use of the registry with the answer to it. -/
abbrev Dealing := RegistryUse × RegistryAnswer

/-- The uses with the answers that they get. -/
def dealings (r : Registry) (us : List RegistryUse) : List Dealing :=
  us.zip ((r.answers us).map Prod.fst)

/-- What the uses make of the registry. -/
def after (r : Registry) (us : List RegistryUse) : Registry := us.foldl (fun r u => (r.use u).2) r

/-- The handle is new to the registry. -/
def Dealing.registers (h : Handle) (d : Dealing) : Bool := d = (.enroll h, .flag true)

/-- The handle is given to whoever strikes it. -/
def Dealing.strikes (h : Handle) (d : Dealing) : Bool :=
  d = (.strikeWaiting h, .flag true) ∨ d = (.strikeHandedOut h, .flag true)

/-- The handles that are given to whoever clears a set. -/
def Dealing.cleared (d : Dealing) : List Handle :=
  match d.2 with
  | .handles hs => hs
  | .flag _ => []

/-- How often the handle is tracked. -/
def tracked (r : Registry) (h : Handle) : Nat := r.waiting.count h + r.handedOut.count h

section Balance

variable {r : Registry}

@[simp] theorem dealings_cons (u : RegistryUse) (us : List RegistryUse) :
    r.dealings (u :: us) = (u, (r.use u).1) :: (r.use u).2.dealings us := rfl

@[simp] theorem after_cons (u : RegistryUse) (us : List RegistryUse) :
    r.after (u :: us) = (r.use u).2.after us := rfl

theorem Sound.after (hr : r.Sound) (us : List RegistryUse) : (r.after us).Sound := by
  induction us generalizing r with
  | nil => exact hr
  | cons u us ih => exact ih (hr.use u)

/-- A handle is tracked once, if at all. -/
theorem Sound.tracked_eq (hr : r.Sound) (h : Handle) :
    r.tracked h = if r.isWaiting h || r.isHandedOut h then 1 else 0 := by
  by_cases hw : h ∈ r.waiting
  · simp [tracked, isWaiting, hw, List.count_eq_one_of_mem hr.waiting hw,
      List.count_eq_zero_of_not_mem (hr.apart h hw)]
  · by_cases ho : h ∈ r.handedOut
    · simp [tracked, isHandedOut, ho, List.count_eq_one_of_mem hr.handedOut ho,
        List.count_eq_zero_of_not_mem hw]
    · simp [tracked, isWaiting, isHandedOut, hw, ho, List.count_eq_zero_of_not_mem]

theorem tracked_enroll (r : Registry) (h k : Handle) :
    (r.enroll h).2.tracked k = r.tracked k + if h = k ∧ (r.enroll h).1 then 1 else 0 := by
  unfold enroll
  split
  · simp
  rename_i hnew
  have hw : h ∉ r.waiting := fun hw => hnew (by simp [isWaiting, hw])
  simp only [tracked, HandleSet.count_insert hw, and_true]
  omega

/-- Whoever is handed out stays tracked. -/
theorem Sound.tracked_handOut (hr : r.Sound) (h k : Handle) :
    (r.handOut h).2.tracked k = r.tracked k := by
  unfold Registry.handOut
  split
  rotate_left
  · rfl
  rename_i hwaits
  have hw : h ∈ r.waiting := by simpa [isWaiting] using hwaits
  have hless := HandleSet.count_remove hr.waiting h k
  simp only [hw, true_and] at hless
  simp only [tracked, HandleSet.count_insert (hr.apart h hw)]
  omega

theorem Sound.tracked_strikeWaiting (hr : r.Sound) (h k : Handle) :
    (if h = k ∧ (r.strikeWaiting h).1 then 1 else 0) + (r.strikeWaiting h).2.tracked k =
      r.tracked k := by
  have hless := HandleSet.count_remove hr.waiting h k
  simp only [tracked, Registry.strikeWaiting, isWaiting, decide_eq_true_eq, and_comm] at hless ⊢
  omega

theorem Sound.tracked_strikeHandedOut (hr : r.Sound) (h k : Handle) :
    (if h = k ∧ (r.strikeHandedOut h).1 then 1 else 0) + (r.strikeHandedOut h).2.tracked k =
      r.tracked k := by
  have hless := HandleSet.count_remove hr.handedOut h k
  simp only [tracked, Registry.strikeHandedOut, isHandedOut, decide_eq_true_eq, and_comm]
    at hless ⊢
  omega

/-- What a use adds to a handle or takes from it is in its answer. -/
theorem Sound.balance_use (hr : r.Sound) (u : RegistryUse) (k : Handle) :
    (if Dealing.registers k (u, (r.use u).1) then 1 else 0) + r.tracked k =
      (if Dealing.strikes k (u, (r.use u).1) then 1 else 0) +
        (Dealing.cleared (u, (r.use u).1)).count k + (r.use u).2.tracked k := by
  unfold Dealing.registers Dealing.strikes Dealing.cleared Registry.use
  cases u with
  | enroll h => simpa [Nat.add_comm] using (r.tracked_enroll h k).symm
  | handOut h => simpa using (hr.tracked_handOut h k).symm
  | strikeWaiting h => simpa using (hr.tracked_strikeWaiting h k).symm
  | strikeHandedOut h => simpa using (hr.tracked_strikeHandedOut h k).symm
  | isWaiting h | isHandedOut h => simp
  | clearWaiting => simp [tracked, clearWaiting]
  | clearHandedOut => simp [tracked, clearHandedOut, Nat.add_comm]

/-- Over a run, what is registered is handed back or still tracked. -/
theorem Sound.balance (hr : r.Sound) (us : List RegistryUse) (k : Handle) :
    (r.dealings us).countP (Dealing.registers k) + r.tracked k =
      (r.dealings us).countP (Dealing.strikes k) +
        ((r.dealings us).flatMap Dealing.cleared).count k + (r.after us).tracked k := by
  induction us generalizing r with
  | nil => simp [dealings, Registry.after]
  | cons u us ih =>
    have hnow := hr.balance_use u k
    have hlater := ih (hr.use u)
    simp only [dealings_cons, after_cons, List.countP_cons, List.flatMap_cons, List.count_append]
    omega

end Balance

/-! ## The registry keeps its books -/

/-- What the two sets are to each other, and what comes of moving and clearing them. -/
structure Orderly (r : Registry) : Prop where
  apart : ∀ h, ¬ (r.isWaiting h ∧ r.isHandedOut h)
  sizes : r.sizes = ({h | r.isWaiting h}.ncard, {h | r.isHandedOut h}.ncard)
  clearsWaiting : r.clearWaiting.1.Nodup ∧ (∀ h, h ∈ r.clearWaiting.1 ↔ r.isWaiting h) ∧
    r.clearWaiting.2 = ⟨[], r.handedOut⟩
  clearsHandedOut : r.clearHandedOut.1.Nodup ∧ (∀ h, h ∈ r.clearHandedOut.1 ↔ r.isHandedOut h) ∧
    r.clearHandedOut.2 = ⟨r.waiting, []⟩
  /-- Just what is in neither set can be enrolled, and then it waits. -/
  enrolls : ∀ h, (r.enroll h).1 = !(r.isWaiting h || r.isHandedOut h) ∧
    if r.isWaiting h ∨ r.isHandedOut h then (r.enroll h).2 = r
    else ∀ k, ((r.enroll h).2.isWaiting k ↔ k = h ∨ r.isWaiting k) ∧
      ((r.enroll h).2.isHandedOut k ↔ r.isHandedOut k)
  /-- Just what waits can be handed out, and then it waits no more. -/
  handsOut : ∀ h, (r.handOut h).1 = r.isWaiting h ∧
    if r.isWaiting h then (r.handOut h).2.isHandedOut h ∧ ¬ (r.handOut h).2.isWaiting h
    else (r.handOut h).2 = r

/-- A handle that is in neither set is enrolled, and nothing else becomes of the registry. -/
theorem enroll_new {r : Registry} {h : Handle} (hnew : ¬ (r.isWaiting h ∨ r.isHandedOut h)) :
    (r.enroll h).1 = true ∧ ∀ k, ((r.enroll h).2.isWaiting k ↔ k = h ∨ r.isWaiting k) ∧
      ((r.enroll h).2.isHandedOut k ↔ r.isHandedOut k) := by
  have heq : r.enroll h = (true, { r with waiting := HandleSet.insert h r.waiting }) := by
    unfold enroll
    rw [if_neg (by rw [Bool.or_eq_true]; exact fun hk => hnew hk.symm)]
  rw [heq]
  exact ⟨rfl, fun k => by simp [isWaiting, isHandedOut, HandleSet.mem_insert]⟩

/-- A handle that is in one of the sets is not enrolled a second time. -/
theorem enroll_known {r : Registry} {h : Handle} (hold : r.isWaiting h ∨ r.isHandedOut h) :
    r.enroll h = (false, r) := by
  unfold enroll
  rw [if_pos (by rw [Bool.or_eq_true]; exact hold.symm)]

theorem Sound.orderly {r : Registry} (hr : r.Sound) : r.Orderly where
  apart h hboth := by
    simp only [isWaiting, isHandedOut, decide_eq_true_eq] at hboth
    exact hr.apart h hboth.1 hboth.2
  sizes := by
    simp [Registry.sizes, isWaiting, isHandedOut, HandleSet.ncard_mem, hr.waiting, hr.handedOut]
  clearsWaiting := ⟨hr.waiting, by simp [clearWaiting, isWaiting], rfl⟩
  clearsHandedOut := ⟨hr.handedOut, by simp [clearHandedOut, isHandedOut], rfl⟩
  enrolls h := by
    by_cases hold : r.isWaiting h ∨ r.isHandedOut h
    · rw [enroll_known hold, if_pos hold]
      exact ⟨by rcases hold with hw | ho <;> simp [*], rfl⟩
    · rw [if_neg hold]
      obtain ⟨hans, hsets⟩ := enroll_new hold
      refine ⟨?_, hsets⟩
      rw [not_or] at hold
      simp [hans, hold.1, hold.2]
  handsOut h := by
    by_cases hw : r.isWaiting h
    · rw [show r.handOut h = _ from if_pos hw, if_pos hw]
      exact ⟨hw.symm, by simp [isHandedOut, HandleSet.mem_insert],
        by simp [isWaiting, HandleSet.mem_remove]⟩
    · simp [Registry.handOut, hw]

/-- Every time that a handle is registered it is handed back to just one of those who use the
registry, who has struck it or cleared the set that it was in, or it is tracked still. -/
theorem registrations_conserved (us : List RegistryUse) :
    (empty.after us).Orderly ∧
    ∀ h, (empty.dealings us).countP (Dealing.registers h) =
      (empty.dealings us).countP (Dealing.strikes h) +
        ((empty.dealings us).flatMap Dealing.cleared).count h +
        if (empty.after us).isWaiting h || (empty.after us).isHandedOut h then 1 else 0 := by
  have hr : (empty.after us).Sound := sound_empty.after us
  refine ⟨hr.orderly, fun h => ?_⟩
  rw [← hr.tracked_eq, ← sound_empty.balance us h]
  rfl

end Registry

end LocalIpc

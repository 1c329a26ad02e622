import LocalIpc.Proofs.CommandLine.Setting
/-!
# What one word does

The next word of a level does one of six things, and all but two of them look at the value that was
left before. What a word leaves as it is, is read off this once.
-/

namespace LocalIpc.CommandLine

theorem bind_eq_ok {ε α β : Type} {x : Except ε α} {f : α → Except ε β} {b : β}
    (h : x >>= f = .ok b) : ∃ a, x = .ok a ∧ f a = .ok b := by
  cases x with
  | error e => cases h
  | ok a => exact ⟨a, rfl, h⟩

theorem map_eq_ok {ε α β : Type} {x : Except ε α} {f : α → β} {b : β}
    (h : x.map f = .ok b) : ∃ a, x = .ok a ∧ f a = b := by
  cases x with
  | error e => cases h
  | ok a => exact ⟨a, rfl, Except.ok.inj h⟩

namespace Reading

variable {l : Level} {name : String} {slot : Slot} {word : Bytes} {r s t : Reading}

/-! ## A value that is looked at -/

/-- `s` is `r` with the place filled. -/
structure Filled (slot : Slot) (r s : Reading) : Prop where
  pending : s.pending = r.pending
  placed : s.placed = r.placed
  escaped : s.escaped = r.escaped
  has : ∀ other, other ≠ slot → s.has other = r.has other

theorem filled_of_fill (h : r.fill slot word = .ok s) : Filled slot r s := by
  cases slot
  all_goals
    obtain ⟨v, -, hs⟩ := bind_eq_ok h
    cases hs
    refine ⟨rfl, rfl, rfl, ?_⟩
    intro other hother
    cases other <;> first | rfl | exact absurd rfl hother

/-- `s` is `r` with no value left. -/
structure Resolved (r s : Reading) : Prop where
  pending : s.pending = none
  placed : s.placed = r.placed
  escaped : s.escaped = r.escaped
  has : ∀ slot, (∀ value, r.pending ≠ some (slot, value)) → s.has slot = r.has slot

theorem resolved_of_resolve (h : r.resolve = .ok s) : Resolved r s := by
  unfold resolve at h
  split at h
  · cases h
    exact ⟨by assumption, rfl, rfl, fun _ _ => rfl⟩
  · cases h
  · rename_i slot word hp
    have hfilled := filled_of_fill h
    refine ⟨hfilled.pending, hfilled.placed, hfilled.escaped, ?_⟩
    intro other hother
    exact hfilled.has other fun heq => hother (some word) (heq ▸ hp)

theorem Resolved.resolve (h : Resolved r s) : s.resolve = .ok s := by
  unfold Reading.resolve
  rw [h.pending]

theorem resolve_of_awaits (h : r.awaits = true) : r.resolve = .error .invalidValue := by
  unfold awaits at h
  unfold resolve
  split at h
  · rename_i heq
    rw [heq]
  · cases h

theorem awaits_of_resolve (h : r.resolve = .ok s) : r.awaits = false := by
  by_contra hawaits
  rw [resolve_of_awaits (by simpa using hawaits)] at h
  cases h

/-- Nothing was read for the place, and nothing waits to be read for it. -/
structure Lacks (slot : Slot) (r : Reading) : Prop where
  has : r.has slot = false
  pending : ∀ value, r.pending ≠ some (slot, value)

theorem lacks_empty (slot : Slot) : empty.Lacks slot where
  has := by cases slot <;> rfl
  pending := by simp [empty]

theorem Lacks.resolve (hr : r.Lacks slot) (hs : r.resolve = .ok s) : s.Lacks slot := by
  have hresolved := resolved_of_resolve hs
  refine ⟨(hresolved.has slot hr.pending).trans hr.has, ?_⟩
  rw [hresolved.pending]
  simp

/-! ## The next word -/

/-- What the next word can do. -/
inductive Step (l : Level) (word : Bytes) (r : Reading) : Reading → Prop
  | escapes (unescaped : r.escaped = false) (escape : word = Word.dashes) :
      Step l word r { r with escaped := true }
  | answers {slot : Slot} (unescaped : r.escaped = false) (plain : Word.ofBytes word = .plain)
      (awaits : r.pending = some (slot, none)) :
      Step l word r { r with pending := some (slot, some word) }
  | fills {s t : Reading} {slot : Slot} {name value : Bytes} (unescaped : r.escaped = false)
      (resolves : r.resolve = .ok s) (long : Word.ofBytes word = .long name (some value))
      (known : choose l.options name = some slot) (fills : s.fill slot value = .ok t) :
      Step l word r t
  | leaves {s : Reading} {slot : Slot} {name : Bytes} (unescaped : r.escaped = false)
      (resolves : r.resolve = .ok s) (long : Word.ofBytes word = .long name none)
      (known : choose l.options name = some slot) :
      Step l word r { s with pending := some (slot, none) }
  | marks {s : Reading} (resolves : r.resolve = .ok s) :
      Step l word r { s with extended := true }
  | places {s : Reading} (resolves : r.resolve = .ok s) :
      Step l word r { s with pending := some (.path, some word), placed := true }

theorem Step.of_raise {flag : Flag} (hs : r.resolve = .ok s) (h : s.raise flag = .ok t) :
    Step l word r t := by
  cases flag with
  | help | version => cases h
  | extended =>
    simp only [raise] at h
    split_ifs at h
    cases h
    exact .marks hs

theorem Step.of_place (h : r.place l word = .ok t) : Step l word r t := by
  unfold place at h
  split_ifs at h
  obtain ⟨s, hs, ht⟩ := bind_eq_ok h
  cases ht
  exact .places hs

theorem step_of_next (h : r.next l word = .ok t) : Step l word r t := by
  unfold next at h
  by_cases hescaped : r.escaped = true
  · rw [if_pos hescaped] at h
    exact .of_place h
  · rw [if_neg hescaped] at h
    have hunescaped : r.escaped = false := by simpa using hescaped
    split at h
    · rename_i hword
      cases h
      exact .escapes hunescaped (Word.eq_dashes_of_ofBytes hword)
    · rename_i n value hlong
      unfold long at h
      split at h
      · obtain ⟨s, hs, ht⟩ := bind_eq_ok h
        exact .fills hunescaped hs hlong (by assumption) ht
      · obtain ⟨s, hs, ht⟩ := bind_eq_ok h
        cases ht
        exact .leaves hunescaped hs hlong (by assumption)
      · cases h
      · obtain ⟨s, hs, ht⟩ := bind_eq_ok h
        exact .of_raise hs ht
      · cases h
    · unfold short at h
      split at h
      · obtain ⟨s, hs, ht⟩ := bind_eq_ok h
        exact .of_raise hs ht
      · cases h
    · rename_i hplain hawaits
      cases h
      exact .answers hunescaped hplain hawaits
    · exact .of_place h

theorem Step.escaped (h : Step l word r t) (hword : word ≠ Word.dashes) :
    t.escaped = r.escaped := by
  cases h with
  | escapes _ escape => exact absurd escape hword
  | answers => rfl
  | fills _ hs _ _ ht =>
    exact (filled_of_fill ht).escaped.trans (resolved_of_resolve hs).escaped
  | leaves _ hs | marks hs | places hs => exact (resolved_of_resolve hs).escaped

/-- Once all words are plain they stay so. -/
theorem Step.stays_escaped (h : Step l word r t) (hr : r.escaped = true) : t.escaped = true := by
  cases h with
  | escapes hunescaped | answers hunescaped | fills hunescaped | leaves hunescaped =>
    simp [hr] at hunescaped
  | marks hs | places hs => exact (resolved_of_resolve hs).escaped.trans hr

/-- Only an option leaves a level waiting for a value. -/
theorem Step.awaits (h : Step l word r t) (hword : word ≠ Word.dashes)
    (hoption : ∀ o ∈ l.options, word ≠ Word.option o.1) : t.awaits = false := by
  have hnone : ∀ {t : Reading}, t.pending = none → t.awaits = false := by
    intro t ht
    unfold Reading.awaits
    rw [ht]
  cases h with
  | escapes _ escape => exact absurd escape hword
  | answers | places => rfl
  | fills _ hs _ _ ht =>
    exact hnone ((filled_of_fill ht).pending.trans (resolved_of_resolve hs).pending)
  | marks hs => exact hnone (resolved_of_resolve hs).pending
  | leaves _ _ hlong hchoose =>
    obtain ⟨o, ho, rfl, -⟩ := exists_of_choose hchoose
    exact absurd (by simpa [Word.option] using Word.eq_of_ofBytes hlong) (hoption o ho)

/-- Nothing is read for a place unless a word names its option. -/
theorem Step.lacks (h : Step l word r t) (hknown : (name, slot) ∈ Level.program.options)
    (hword : r.escaped = true ∨ ¬ Names name word) (hr : r.Lacks slot) : t.Lacks slot := by
  have hother : ∀ {n value other}, r.escaped = false → Word.ofBytes word = .long n value →
      choose l.options n = some other → other ≠ slot := by
    rintro n value other hunescaped hlong hchoose rfl
    obtain rfl := eq_of_choose_options hknown hchoose
    exact hword.resolve_left (by simp [hunescaped]) (Word.names_of_ofBytes hlong)
  have hpath : Slot.path ≠ slot := by
    have hall : ∀ o ∈ Level.program.options, Slot.path ≠ o.2 := by decide
    exact hall (name, slot) hknown
  -- a value that is left for another place is none for this one
  have hleft : ∀ {p : Reading} {other value}, other ≠ slot → p.pending = some (other, value) →
      ∀ value', p.pending ≠ some (slot, value') := by
    rintro p other value hne hp value' heq
    rw [hp] at heq
    cases heq
    exact hne rfl
  cases h with
  | escapes => exact ⟨hr.has, hr.pending⟩
  | @answers other _ _ hawaits =>
    have hne : other ≠ slot := by
      rintro rfl
      exact hr.pending none hawaits
    exact ⟨hr.has, hleft hne rfl⟩
  | fills hunescaped hs hlong hchoose ht =>
    have hfilled := filled_of_fill ht
    have hlacks := hr.resolve hs
    have hne := hother hunescaped hlong hchoose
    exact ⟨(hfilled.has slot hne.symm).trans hlacks.has, hfilled.pending ▸ hlacks.pending⟩
  | leaves hunescaped hs hlong hchoose =>
    exact ⟨(hr.resolve hs).has, hleft (hother hunescaped hlong hchoose) rfl⟩
  | marks hs => exact ⟨(hr.resolve hs).has, (hr.resolve hs).pending⟩
  | places hs => exact ⟨(hr.resolve hs).has, hleft hpath rfl⟩

end Reading

end LocalIpc.CommandLine

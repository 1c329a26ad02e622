import LocalIpc.Proofs.CommandLine.Step
/-!
# All words of a level

A level is read word by word to its end. When the value of an option is looked at makes no
difference to that, so an option that is put in where there is room for it sets one thing more and
changes nothing else, and one that is taken out changes nothing else either.
-/

namespace LocalIpc.CommandLine

namespace Reading

/-- Reads words one by one. -/
def after (l : Level) (words : List Bytes) (r : Reading) : Except UsageError Reading :=
  words.foldlM (fun r word => r.next l word) r

/-- Reads all words of a level, and looks at what was left in the end. -/
def toEnd (l : Level) (words : List Bytes) (r : Reading) : Except UsageError Reading :=
  r.after l words >>= resolve

section Words

variable {l : Level} {name : String} {slot : Slot} {σ : Setting} {word value : Bytes}
  {words before said behind : List Bytes} {r s t : Reading}

theorem after_cons : r.after l (word :: words) = r.next l word >>= after l words := rfl

theorem toEnd_nil : r.toEnd l [] = r.resolve := rfl

theorem toEnd_cons : r.toEnd l (word :: words) = r.next l word >>= toEnd l words := by
  unfold toEnd
  rw [after_cons, bind_assoc]

theorem toEnd_append : r.toEnd l (before ++ words) = r.after l before >>= toEnd l words := by
  unfold toEnd after
  rw [List.foldlM_append, bind_assoc]

/-! ## What is kept from word to word -/

theorem next_dashes (h : r.escaped = false) :
    r.next l Word.dashes = .ok { r with escaped := true } := by
  unfold next
  rw [if_neg (by simp [h])]
  rfl

theorem escaped_after (hwords : Word.dashes ∉ words) (h : r.after l words = .ok t) :
    t.escaped = r.escaped := by
  induction words generalizing r with
  | nil =>
    cases h
    rfl
  | cons word words ih =>
    obtain ⟨hword, hrest⟩ := not_or.mp (mt List.mem_cons.mpr hwords)
    obtain ⟨q, hq, ht⟩ := bind_eq_ok (after_cons ▸ h)
    exact (ih hrest ht).trans ((step_of_next hq).escaped (Ne.symm hword))

/-- A level waits for a value only behind an option. -/
theorem awaits_after (hr : r.awaits = false) (hwords : Word.dashes ∉ words)
    (hlast : ∀ o ∈ l.options, words.getLast? ≠ some (Word.option o.1))
    (h : r.after l words = .ok t) : t.awaits = false := by
  -- no word but the last decides what is waited for
  rcases List.eq_nil_or_concat words with rfl | ⟨first, last, rfl⟩
  · cases h
    exact hr
  · unfold after at h
    rw [List.concat_eq_append, List.foldlM_append] at h
    obtain ⟨q, -, ht⟩ := bind_eq_ok h
    obtain ⟨t', ht', heq⟩ := bind_eq_ok ht
    cases heq
    apply (step_of_next ht').awaits
    · rintro rfl
      exact hwords (by simp)
    · rintro o ho rfl
      exact hlast o ho (by simp)

theorem unnamed_head (hknown : (name, slot) ∈ Level.program.options)
    (h : r.escaped = true ∨ Unnamed name (word :: words)) :
    r.escaped = true ∨ ¬ Names name word := by
  by_cases hword : word = Word.dashes
  · exact .inr (hword ▸ not_names_dashes hknown)
  · exact h.imp_right fun hunnamed => ((unnamed_cons hword).mp hunnamed).1

theorem unnamed_tail (h : r.escaped = true ∨ Unnamed name (word :: words))
    (hnext : r.next l word = .ok t) : t.escaped = true ∨ Unnamed name words := by
  by_cases hr : r.escaped = true
  · exact .inl ((step_of_next hnext).stays_escaped hr)
  by_cases hword : word = Word.dashes
  · subst hword
    rw [next_dashes (by simpa using hr)] at hnext
    cases hnext
    exact .inl rfl
  · exact .inr ((unnamed_cons hword).mp (h.resolve_left hr)).2

theorem lacks_after (hknown : (name, slot) ∈ Level.program.options) (hr : r.Lacks slot)
    (hwords : r.escaped = true ∨ Unnamed name words) (h : r.after l words = .ok t) :
    t.Lacks slot := by
  induction words generalizing r with
  | nil =>
    cases h
    exact hr
  | cons word words ih =>
    obtain ⟨q, hq, ht⟩ := bind_eq_ok (after_cons ▸ h)
    have hlacks := (step_of_next hq).lacks hknown (unnamed_head hknown hwords) hr
    exact ih hlacks (unnamed_tail hwords hq) ht

/-! ## When a value is looked at -/

theorem resolve_escape :
    ({ r with escaped := true } : Reading).resolve =
      r.resolve.map fun s => { s with escaped := true } := by
  obtain ⟨-, -, -, -, -, -, _ | ⟨slot, _ | value⟩, -, -⟩ := r
  · rfl
  · rfl
  · cases slot
    all_goals
      simp only [resolve, fill]
      generalize once _ _ = v
      cases v <;> rfl

/-- A value that was left may be looked at before the next word. -/
theorem next_of_resolve (hs : r.resolve = .ok s) (hword : r.escaped = true ∨ word ≠ Word.dashes) :
    r.next l word = s.next l word := by
  -- `--` is the one word that would leave the value unread, and nothing waits for an answer here
  have hresolved := resolved_of_resolve hs
  have hplace : r.place l word = s.place l word := by
    unfold place
    rw [hresolved.placed, hresolved.escaped, hs, hresolved.resolve]
  unfold next
  rw [hresolved.escaped, hresolved.pending]
  by_cases hr : r.escaped = true
  · rw [if_pos hr, if_pos hr, hplace]
  · rw [if_neg hr, if_neg hr]
    cases hform : Word.ofBytes word with
    | escape => exact absurd (Word.eq_dashes_of_ofBytes hform) (hword.resolve_left hr)
    | long n value =>
      simp only [long]
      rw [hs, hresolved.resolve]
    | short letter =>
      simp only [short]
      rw [hs, hresolved.resolve]
    | plain =>
      rcases hp : r.pending with _ | ⟨slot, _ | value⟩
      · exact hplace
      · have hawaits := awaits_of_resolve hs
        simp [awaits, hp] at hawaits
      · exact hplace

theorem toEnd_of_resolve (hs : r.resolve = .ok s) : r.toEnd l words = s.toEnd l words := by
  induction words generalizing r s with
  | nil => exact hs.trans (resolved_of_resolve hs).resolve.symm
  | cons word words ih =>
    rw [toEnd_cons, toEnd_cons]
    by_cases hword : r.escaped = true ∨ word ≠ Word.dashes
    · rw [next_of_resolve hs hword]
    · -- both go on behind `--`, the one with its value still left
      obtain ⟨hr, hdashes⟩ := not_or.mp hword
      obtain rfl := not_not.mp hdashes
      have hunescaped : r.escaped = false := by simpa using hr
      rw [next_dashes hunescaped, next_dashes ((resolved_of_resolve hs).escaped.trans hunescaped)]
      apply ih
      rw [resolve_escape, hs]
      rfl

/-- A level that is read to its end has looked at each value that was left, and missed none. -/
theorem exists_resolve (h : r.toEnd l words = .ok t) (hr : r.awaits = false ∨ r.escaped = true) :
    ∃ s, r.resolve = .ok s := by
  induction words generalizing r with
  | nil => exact ⟨t, h⟩
  | cons word words ih =>
    rw [toEnd_cons] at h
    obtain ⟨q, hq, ht⟩ := bind_eq_ok h
    cases step_of_next hq with
    | fills _ hs | leaves _ hs | marks hs | places hs => exact ⟨_, hs⟩
    | answers hunescaped _ hawaits => simp [awaits, hawaits, hunescaped] at hr
    | escapes =>
      obtain ⟨q, hq⟩ := ih ht (.inr rfl)
      rw [resolve_escape] at hq
      obtain ⟨s, hs, -⟩ := map_eq_ok hq
      exact ⟨s, hs⟩

/-! ## One option more -/

theorem toEnd_set (hknown : (name, σ.slot) ∈ Level.program.options) (hr : r.Lacks σ.slot)
    (hwords : r.escaped = true ∨ Unnamed name words) :
    (r.set σ).toEnd l words = (r.toEnd l words).map (·.set σ) := by
  -- by induction on the words: each is read alike, and still nothing is read for the place
  induction words generalizing r with
  | nil => exact resolve_set hr.pending
  | cons word words ih =>
    have hhead := unnamed_head hknown hwords
    rw [toEnd_cons, toEnd_cons, next_set hr.pending hknown hhead]
    cases hnext : r.next l word with
    | error e => rfl
    | ok t => exact ih ((step_of_next hnext).lacks hknown hhead hr) (unnamed_tail hwords hnext)

theorem toEnd_option (hknown : (name, slot) ∈ Level.program.options) (hr : r.escaped = false) :
    r.toEnd l (Word.option name :: words) =
      r.resolve >>= fun s => toEnd l words { s with pending := some (slot, none) } := by
  have hnext : r.next l (Word.option name) =
      r.resolve >>= fun s => .ok { s with pending := some (slot, none) } := by
    unfold next
    rw [if_neg (by simp [hr]), ofBytes_option hknown]
    simp only [long, choose_options hknown]
  rw [toEnd_cons, hnext, bind_assoc]
  rfl

theorem toEnd_option_append (hknown : (name, slot) ∈ Level.program.options)
    (hr : r.escaped = false) :
    r.toEnd l ((Word.option name ++ Word.equals :: value) :: words) =
      r.resolve >>= fun s => s.fill slot value >>= toEnd l words := by
  have hnext : r.next l (Word.option name ++ Word.equals :: value) =
      r.resolve >>= fun s => s.fill slot value := by
    unfold next
    rw [if_neg (by simp [hr]), ofBytes_option_append hknown]
    simp only [long, choose_options hknown]
  rw [toEnd_cons, hnext, bind_assoc]

theorem next_answer (hr : r.escaped = false) (hplain : Word.ofBytes word = .plain) :
    ({ r with pending := some (slot, none) } : Reading).next l word =
      .ok { r with pending := some (slot, some word) } := by
  unfold next
  rw [if_neg (by simp [hr]), hplain]

/-- An option is read only where no other waits for its value. -/
theorem awaits_of_said (hknown : (name, slot) ∈ Level.program.options)
    (hsaid : Spelled name value said) (hr : r.escaped = false)
    (h : r.toEnd l (said ++ words) = .ok t) : r.awaits = false := by
  cases hsaid with
  | joined =>
    rw [List.cons_append, toEnd_option_append hknown hr] at h
    obtain ⟨s, hs, -⟩ := bind_eq_ok h
    exact awaits_of_resolve hs
  | apart =>
    rw [List.cons_append, toEnd_option hknown hr] at h
    obtain ⟨s, hs, -⟩ := bind_eq_ok h
    exact awaits_of_resolve hs

theorem exists_ofWord? (hknown : (name, slot) ∈ Level.program.options)
    (h : r.fill slot word = .ok s) : ∃ σ, Setting.ofWord? slot word = some σ := by
  rw [fill_eq hknown] at h
  split_ifs at h
  split at h
  · exact ⟨_, by assumption⟩
  · cases h

/-- The value of an option in a level that is read to its end is one of those that there are. -/
theorem exists_setting (hknown : (name, slot) ∈ Level.program.options)
    (hsaid : Spelled name value said) (hr : r.escaped = false)
    (h : r.toEnd l (said ++ words) = .ok t) : ∃ σ, Setting.ofWord? slot value = some σ := by
  cases hsaid with
  | joined =>
    rw [List.cons_append, toEnd_option_append hknown hr] at h
    obtain ⟨s, -, hs⟩ := bind_eq_ok h
    obtain ⟨q, hfill, -⟩ := bind_eq_ok hs
    exact exists_ofWord? hknown hfill
  | apart =>
    rw [List.cons_append, toEnd_option hknown hr] at h
    obtain ⟨s, -, hs⟩ := bind_eq_ok h
    rw [List.cons_append, toEnd_cons] at hs
    obtain ⟨q, hq, ht⟩ := bind_eq_ok hs
    -- the option waits, so that nothing but a plain word is read on
    cases step_of_next hq with
    | fills _ hs | leaves _ hs | marks hs | places hs => cases hs
    | escapes =>
      obtain ⟨s, hs⟩ := exists_resolve ht (.inr rfl)
      cases hs
    | answers _ _ hawaits =>
      cases hawaits
      obtain ⟨s, hs⟩ := exists_resolve ht (.inl rfl)
      exact exists_ofWord? hknown hs

/-- A level that reads an option goes on with what the option sets. -/
theorem toEnd_said_of_resolve (hknown : (name, slot) ∈ Level.program.options)
    (hsaid : Spelled name value said) (hvalue : Setting.ofWord? slot value = some σ)
    (hr : r.escaped = false) (hlacks : r.Lacks slot) (hs : r.resolve = .ok s) :
    r.toEnd l (said ++ words) = (s.set σ).toEnd l words := by
  have hresolved := resolved_of_resolve hs
  have hfill : s.fill slot value = .ok (s.set σ) := by
    rw [fill_eq hknown, (hlacks.resolve hs).has, hvalue]
    rfl
  cases hsaid with
  | joined =>
    rw [List.cons_append, toEnd_option_append hknown hr, hs]
    exact congrArg (· >>= toEnd l words) hfill
  | apart =>
    rw [List.cons_append, toEnd_option hknown hr, hs]
    show toEnd l (value :: words) { s with pending := some (slot, none) } = _
    rw [toEnd_cons, next_answer (hresolved.escaped.trans hr) (Setting.plain hvalue)]
    show toEnd l words { s with pending := some (slot, some value) } = _
    -- the value is left, and looked at before the next word it does the same
    apply toEnd_of_resolve
    have hrest : { s with pending := none } = s := by rw [← hresolved.pending]
    rw [← hfill, ← hrest]
    rfl

/-- One option more, where no other waits for its value, sets one thing more. -/
theorem toEnd_said_iff (hknown : (name, slot) ∈ Level.program.options)
    (hsaid : Spelled name value said) (hvalue : Setting.ofWord? slot value = some σ)
    (hr : r.escaped = false) (hlacks : r.Lacks slot) (hwords : Unnamed name words) :
    r.toEnd l (said ++ words) = .ok t ↔
      r.awaits = false ∧ ∃ s, r.toEnd l words = .ok s ∧ t = s.set σ := by
  obtain rfl : σ.slot = slot := Setting.slot_eq hvalue
  have hset : ∀ {s}, r.resolve = .ok s →
      r.toEnd l (said ++ words) = (r.toEnd l words).map (·.set σ) := by
    intro s hs
    rw [toEnd_said_of_resolve hknown hsaid hvalue hr hlacks hs,
      toEnd_set hknown (hlacks.resolve hs) (.inr hwords), toEnd_of_resolve hs]
  constructor
  · intro h
    have hawaits := awaits_of_said hknown hsaid hr h
    obtain ⟨q, hq⟩ := exists_resolve h (.inl hawaits)
    rw [hset hq] at h
    obtain ⟨s, hs, rfl⟩ := map_eq_ok h
    exact ⟨hawaits, s, hs, rfl⟩
  · rintro ⟨hawaits, s, hs, rfl⟩
    obtain ⟨q, hq⟩ := exists_resolve hs (.inl hawaits)
    rw [hset hq, hs]
    rfl

/-- A level does not end with an option that waits for its value. -/
theorem toEnd_ne_ok_of_option (hknown : (name, slot) ∈ Level.program.options)
    (hr : r.escaped = false) (hwords : Word.dashes ∉ words) :
    r.toEnd l (words ++ [Word.option name]) ≠ .ok t := by
  intro h
  rw [toEnd_append] at h
  obtain ⟨q, hq, ht⟩ := bind_eq_ok h
  rw [toEnd_option hknown ((escaped_after hwords hq).trans hr)] at ht
  obtain ⟨s, -, hlast⟩ := bind_eq_ok ht
  cases hlast

/-! ## A level from its start -/

theorem has_of_unnamed (hknown : (name, slot) ∈ Level.program.options)
    (hwords : Unnamed name words) (h : empty.toEnd l words = .ok t) : t.has slot = false := by
  obtain ⟨q, hq, ht⟩ := bind_eq_ok h
  exact ((lacks_after hknown (lacks_empty slot) (.inr hwords) hq).resolve ht).has

/-- A level without one of its options reads all else the same. -/
theorem toEnd_without (hknown : (name, slot) ∈ Level.program.options)
    (hsaid : Spelled name value said) (hbefore : Word.dashes ∉ before)
    (h : empty.toEnd l (before ++ said ++ behind) = .ok t) :
    ∃ σ, Setting.ofWord? slot value = some σ ∧ (Unnamed name (before ++ behind) →
      ∃ s, empty.toEnd l (before ++ behind) = .ok s ∧ t = s.set σ) := by
  rw [List.append_assoc, toEnd_append] at h
  obtain ⟨q, hq, ht⟩ := bind_eq_ok h
  have hunescaped : q.escaped = false := escaped_after hbefore hq
  obtain ⟨σ, hσ⟩ := exists_setting hknown hsaid hunescaped ht
  refine ⟨σ, hσ, ?_⟩
  intro hunnamed
  obtain ⟨hfirst, hlast⟩ := (unnamed_append hbefore).mp hunnamed
  have hlacks : q.Lacks slot :=
    lacks_after hknown (lacks_empty slot) (.inr (unnamed_of_forall hfirst)) hq
  obtain ⟨-, s, hs, rfl⟩ := (toEnd_said_iff hknown hsaid hσ hunescaped hlacks hlast).mp ht
  refine ⟨s, ?_, rfl⟩
  rw [toEnd_append, hq]
  exact hs

/-- A level with one option more reads all else the same. -/
theorem toEnd_with (hknown : (name, slot) ∈ Level.program.options)
    (hsaid : Spelled name value said) (hvalue : Setting.ofWord? slot value = some σ)
    (hbefore : Word.dashes ∉ before)
    (hlast : ∀ o ∈ l.options, before.getLast? ≠ some (Word.option o.1))
    (hunnamed : Unnamed name (before ++ behind)) (h : empty.toEnd l (before ++ behind) = .ok s) :
    empty.toEnd l (before ++ said ++ behind) = .ok (s.set σ) := by
  rw [toEnd_append] at h
  obtain ⟨q, hq, hs⟩ := bind_eq_ok h
  have hunescaped : q.escaped = false := escaped_after hbefore hq
  have hawaits : q.awaits = false := awaits_after rfl hbefore hlast hq
  obtain ⟨hfirst, hrest⟩ := (unnamed_append hbefore).mp hunnamed
  have hlacks : q.Lacks slot :=
    lacks_after hknown (lacks_empty slot) (.inr (unnamed_of_forall hfirst)) hq
  rw [List.append_assoc, toEnd_append, hq]
  exact (toEnd_said_iff hknown hsaid hvalue hunescaped hlacks hrest).mpr ⟨hawaits, s, hs, rfl⟩

end Words

end Reading

end LocalIpc.CommandLine

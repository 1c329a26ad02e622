import LocalIpc.Proofs.CommandLine.Word
/-!
# What an option sets

An option of the program's own level sets one place of what is read. Nothing else that is read
depends on it: every word but the option itself is read alike with it and without it.
-/

namespace LocalIpc.CommandLine

/-! ## Settings -/

/-- What an option can be set to. -/
inductive Setting
  | format (f : OutputFormat)
  | logFormat (f : LogFormat)
  | logLevel (l : LogLevel)

namespace Setting

def slot : Setting → Slot
  | format _ => .format
  | logFormat _ => .logFormat
  | logLevel _ => .logLevel

/-- What a word says as the value of an option. -/
def ofWord? : Slot → Bytes → Option Setting
  | .format, word => (choose formats word).map format
  | .logFormat, word => (choose logFormats word).map logFormat
  | .logLevel, word => (choose logLevels word).map logLevel
  | .count, _ | .path, _ => none

variable {σ : Setting} {slot : Slot} {word : Bytes}

theorem slot_eq (h : ofWord? slot word = some σ) : σ.slot = slot := by
  cases slot with
  | format | logFormat | logLevel =>
    obtain ⟨a, -, rfl⟩ := Option.map_eq_some_iff.mp h
    rfl
  | count | path => cases h

theorem plain_of_map {α : Type} {table : List (String × α)} {f : α → Setting}
    (hall : ∀ e ∈ table, Word.ofBytes (Text.encode e.1) = .plain)
    (h : (choose table word).map f = some σ) : Word.ofBytes word = .plain := by
  obtain ⟨a, ha, -⟩ := Option.map_eq_some_iff.mp h
  exact plain_of_choose hall ha

/-- A value can stand as a word of its own. -/
theorem plain (h : ofWord? slot word = some σ) : Word.ofBytes word = .plain := by
  cases slot with
  | format => exact plain_of_map (by decide) h
  | logFormat => exact plain_of_map (by decide) h
  | logLevel => exact plain_of_map (by decide) h
  | count | path => cases h

end Setting

namespace Reading

/-- Something was read for the place. -/
def has (r : Reading) : Slot → Bool
  | .format => r.format.isSome
  | .logFormat => r.logFormat.isSome
  | .logLevel => r.logLevel.isSome
  | .count => r.count.isSome
  | .path => r.path.isSome

def set (r : Reading) : Setting → Reading
  | .format f => { r with format := some f }
  | .logFormat f => { r with logFormat := some f }
  | .logLevel l => { r with logLevel := some l }

section Set

variable (r : Reading) (σ : Setting)

@[simp]
theorem pending_set : (r.set σ).pending = r.pending := by
  cases σ <;> rfl

@[simp]
theorem placed_set : (r.set σ).placed = r.placed := by
  cases σ <;> rfl

@[simp]
theorem escaped_set : (r.set σ).escaped = r.escaped := by
  cases σ <;> rfl

end Set

variable {name : String} {slot : Slot} {word : Bytes} {r : Reading} {σ : Setting} {l : Level}

/-! ## Filling a place -/

theorem once_oneOf {α : Type} {old : Option α} {table : List (String × α)} {f : α → Setting}
    {put : Option α → Reading} (hput : ∀ a, put (some a) = r.set (f a)) :
    (once old (oneOf table word) >>= fun v => .ok (put v)) =
      if old.isSome then .error .argumentConflict
      else match (choose table word).map f with
        | some σ => .ok (r.set σ)
        | none => .error .invalidValue := by
  cases old with
  | some a => rfl
  | none =>
    unfold oneOf
    cases choose table word with
    | none => rfl
    | some a => exact congrArg Except.ok (hput a)

/-- A place is filled once, and with a value of its own. -/
theorem fill_eq (hknown : (name, slot) ∈ Level.program.options) :
    r.fill slot word =
      if r.has slot then .error .argumentConflict
      else match Setting.ofWord? slot word with
        | some σ => .ok (r.set σ)
        | none => .error .invalidValue := by
  have hslot : slot = .format ∨ slot = .logFormat ∨ slot = .logLevel := by
    have hall : ∀ o ∈ Level.program.options,
        o.2 = .format ∨ o.2 = .logFormat ∨ o.2 = .logLevel := by decide
    exact hall (name, slot) hknown
  rcases hslot with rfl | rfl | rfl
  · exact once_oneOf fun _ => rfl
  · exact once_oneOf fun _ => rfl
  · exact once_oneOf fun _ => rfl

theorem fill_set (hslot : slot ≠ σ.slot) :
    (r.set σ).fill slot word = (r.fill slot word).map (·.set σ) := by
  cases slot <;> cases σ
  case format.format | logFormat.logFormat | logLevel.logLevel => exact absurd rfl hslot
  all_goals
    simp only [fill, set]
    generalize once _ _ = v
    cases v <;> rfl

/-! ## What is read beside a setting -/

theorem raise_set (flag : Flag) : (r.set σ).raise flag = (r.raise flag).map (·.set σ) := by
  cases flag with
  | help | version => rfl
  | extended =>
    have hextended : (r.set σ).extended = r.extended := by cases σ <;> rfl
    simp only [raise, hextended]
    split_ifs
    · rfl
    · cases σ <;> rfl

section Beside

variable (hpending : ∀ value, r.pending ≠ some (σ.slot, value))

include hpending

theorem resolve_set : (r.set σ).resolve = r.resolve.map (·.set σ) := by
  unfold resolve
  rw [pending_set]
  rcases hp : r.pending with _ | ⟨slot, _ | word⟩
  · rfl
  · rfl
  · have hslot : slot ≠ σ.slot := fun heq => hpending (some word) (heq ▸ hp)
    rw [← fill_set hslot]
    cases σ <;> rfl

theorem place_set : (r.set σ).place l word = (r.place l word).map (·.set σ) := by
  unfold place
  rw [resolve_set hpending, placed_set, escaped_set]
  split_ifs
  · cases r.resolve with
    | error e => rfl
    | ok s => cases σ <;> rfl
  all_goals rfl

theorem short_set (letter : UInt8) :
    (r.set σ).short l letter = (r.short l letter).map (·.set σ) := by
  unfold short
  rw [resolve_set hpending]
  cases choose l.letters [letter] with
  | none => rfl
  | some flag =>
    cases r.resolve with
    | error e => rfl
    | ok s => exact raise_set flag

theorem long_set {n : Bytes} {value : Option Bytes}
    (hother : choose l.options n ≠ some σ.slot) :
    (r.set σ).long l n value = (r.long l n value).map (·.set σ) := by
  unfold long
  rw [resolve_set hpending]
  cases hslot : choose l.options n with
  | some slot =>
    have hne : slot ≠ σ.slot := fun heq => hother (heq ▸ hslot)
    cases value with
    | some word =>
      cases r.resolve with
      | error e => rfl
      | ok s => exact fill_set hne
    | none =>
      cases r.resolve with
      | error e => rfl
      | ok s => cases σ <;> rfl
  | none =>
    cases choose l.flags n with
    | none => rfl
    | some flag =>
      cases value with
      | some word => rfl
      | none =>
        cases r.resolve with
        | error e => rfl
        | ok s => exact raise_set flag

/-- A word that does not name the option is read alike with and without the setting. -/
theorem next_set (hknown : (name, σ.slot) ∈ Level.program.options)
    (hword : r.escaped = true ∨ ¬ Names name word) :
    (r.set σ).next l word = (r.next l word).map (·.set σ) := by
  unfold next
  rw [escaped_set, pending_set]
  by_cases hescaped : r.escaped = true
  · rw [if_pos hescaped, if_pos hescaped, place_set hpending]
  · rw [if_neg hescaped, if_neg hescaped]
    split
    · cases σ <;> rfl
    · rename_i n value hlong
      apply long_set hpending
      intro hchoose
      obtain rfl := eq_of_choose_options hknown hchoose
      exact hword.resolve_left hescaped (Word.names_of_ofBytes hlong)
    · exact short_set hpending _
    · cases σ <;> rfl
    · exact place_set hpending

end Beside

end Reading

end LocalIpc.CommandLine

import LocalIpc.Address.Record
/-!
# Records and paths

A path that can stand in an address record comes back from it, in either layout. What a record of
any content has for a path is the longest start of its path area without a zero byte, so a record
can be made again of its path just when the area has an end mark.
-/

namespace LocalIpc.AddressRecord

/-! ## The path of a record -/

/-- What follows the header. -/
def area (r : AddressRecord) : Bytes := r.bytes.drop 2

/-- The longest start of `area` that has no zero byte. -/
structure IsPathOf (p : Path) (area : Bytes) : Prop where
  zeroFree : 0 ∉ p
  isPrefix : p <+: area
  longest : ∀ q, q <+: area → 0 ∉ q → q <+: p

theorem length_area (r : AddressRecord) : r.area.length = 108 := by
  rw [area, List.length_drop, r.size_bytes]
  rfl

/-- The bytes before the first zero byte are the longest start without one. -/
theorem isPathOf_takeWhile (area : Bytes) : IsPathOf (area.takeWhile (· ≠ 0)) area where
  zeroFree h := by simpa using List.all_eq_true.mp List.all_takeWhile 0 h
  isPrefix := List.takeWhile_prefix _
  longest q hq h0 := by
    obtain ⟨rest, rfl⟩ := hq
    have hall : ∀ b ∈ q, decide (b ≠ 0) = true := fun b hb =>
      decide_eq_true fun heq => h0 (heq ▸ hb)
    rw [List.takeWhile_append_of_pos hall]
    exact List.prefix_append _ _

theorem isPathOf_path (r : AddressRecord) : IsPathOf r.path r.area := isPathOf_takeWhile r.area

/-- The path fills the whole area when there is no end mark. -/
theorem length_path_lt_iff (r : AddressRecord) : r.path.length < 108 ↔ 0 ∈ r.area := by
  obtain ⟨h0, ⟨rest, hrest⟩, hlongest⟩ := r.isPathOf_path
  have hlen := congrArg List.length hrest
  rw [List.length_append, length_area] at hlen
  constructor
  · -- a path that stops short of the end stops at a zero byte
    intro hlt
    refine Decidable.byContradiction fun hz => ?_
    have := (hlongest r.area (List.prefix_refl _) hz).length_le
    rw [length_area] at this
    omega
  · intro hz
    rcases rest with _ | ⟨b, rest⟩
    · rw [List.append_nil] at hrest
      exact absurd (hrest ▸ hz) h0
    · simp only [List.length_cons] at hlen
      omega

/-! ## Encoding -/

/-- What the header of a layout says about a path of `n` bytes. -/
def IsHeader (n : Nat) (head : Bytes) : RecordLayout → Prop
  | .family => head = [1, 0]
  | .length => ∃ b : UInt8, b.toNat = 2 + n ∧ head = [b, 1]

/-- The record holds the path in a layout. -/
structure Holds (r : AddressRecord) (layout : RecordLayout) (p : Path) : Prop where
  size : r.bytes.length = 110
  header : IsHeader p.length (r.bytes.take 2) layout
  path : (r.bytes.drop 2).take p.length = p
  zeros : ∀ b ∈ r.bytes.drop (2 + p.length), b = 0
  comesBack : r.path = p
  length : r.length.toNat = 3 + p.length
  length_le : r.length.toNat ≤ 110

section Encode

variable {layout : RecordLayout} {p : Path} {r : AddressRecord} {e : ListenerError}

theorem isHeader_header (h : p.length ≤ 107) :
    IsHeader p.length (header layout p.length) layout := by
  cases layout with
  | family => rfl
  | length =>
    refine ⟨UInt8.ofNat (2 + p.length), ?_, rfl⟩
    rw [UInt8.toNat_ofNat', Nat.mod_eq_of_lt (by omega)]

/-- A path fits when it has no zero byte and leaves room for the end mark. -/
theorem encode_eq_ok_iff : encode layout p = .ok r ↔
    0 ∉ p ∧ p.length ≤ 107 ∧
      r.bytes = header layout p.length ++ p ++ List.replicate (108 - p.length) 0 ∧
      r.length = UInt32.ofNat (3 + p.length) := by
  obtain ⟨bytes, length, size⟩ := r
  have hlen : headerSize + p.length + 1 = 3 + p.length := by
    simp only [headerSize]
    omega
  unfold encode
  split
  · simp_all
  split
  · rename_i h0 hle
    have hle : p.length ≤ 107 := hle
    simp only [Except.ok.injEq, mk.injEq, hlen, h0, hle, not_false_eq_true, true_and]
    exact and_congr eq_comm eq_comm
  · rename_i h0 hgt
    have hgt : ¬ p.length ≤ 107 := hgt
    simp [hgt]

/-- A zero byte is told first, and then that the path is too long. -/
theorem encode_eq_error_iff : encode layout p = .error e ↔
    (0 ∈ p ∧ e = .invalidPath p "contains a NUL byte") ∨
      (0 ∉ p ∧ 107 < p.length ∧ e = .pathTooLong p p.length 107) := by
  unfold encode
  split
  · simp_all [eq_comm]
  split
  · rename_i h0 hle
    have hle : ¬ 107 < p.length := Nat.not_lt.mpr hle
    simp [h0, hle]
  · rename_i h0 hgt
    have hgt : 107 < p.length := Nat.not_le.mp hgt
    simp [h0, hgt, eq_comm, longestPath, pathRoom]

theorem encodes_iff : (∃ r, encode layout p = .ok r) ↔ 0 ∉ p ∧ p.length ≤ 107 := by
  constructor
  · rintro ⟨r, hr⟩
    obtain ⟨h0, hle, -, -⟩ := encode_eq_ok_iff.mp hr
    exact ⟨h0, hle⟩
  · -- what is not refused is encoded
    rintro ⟨h0, hle⟩
    rcases hr : encode layout p with e | r
    · rcases encode_eq_error_iff.mp hr with ⟨hz, -⟩ | ⟨-, hlt, -⟩
      · exact absurd hz h0
      · omega
    · exact ⟨r, rfl⟩

theorem drop_two_encode (h : encode layout p = .ok r) :
    r.bytes.drop 2 = p ++ List.replicate (108 - p.length) 0 := by
  obtain ⟨-, -, hbytes, -⟩ := encode_eq_ok_iff.mp h
  rw [hbytes, List.append_assoc]
  exact List.drop_left' (length_header layout p.length)

theorem path_encode (h : encode layout p = .ok r) : r.path = p := by
  obtain ⟨h0, hle, -, -⟩ := encode_eq_ok_iff.mp h
  have hall : ∀ b ∈ p, decide (b ≠ 0) = true := fun b hb =>
    decide_eq_true fun heq => h0 (heq ▸ hb)
  have hpath : r.path = (r.bytes.drop 2).takeWhile (· ≠ 0) := rfl
  rw [hpath, drop_two_encode h, List.takeWhile_append_of_pos hall, List.takeWhile_replicate]
  simp

theorem holds_encode (h : encode layout p = .ok r) : r.Holds layout p := by
  have hdrop := drop_two_encode h
  obtain ⟨h0, hle, hbytes, hlength⟩ := encode_eq_ok_iff.mp h
  have hlen : r.length.toNat = 3 + p.length := by
    rw [hlength, UInt32.toNat_ofNat', Nat.mod_eq_of_lt (by omega)]
  refine ⟨r.size_bytes, ?_, ?_, fun b hb => ?_, path_encode h, hlen, by omega⟩
  · have htake : r.bytes.take 2 = header layout p.length := by
      rw [hbytes, List.append_assoc]
      exact List.take_left' (length_header layout p.length)
    rw [htake]
    exact isHeader_header hle
  · rw [hdrop]
    exact List.take_left
  · rw [← List.drop_drop, hdrop, List.drop_left] at hb
    exact (List.mem_replicate.mp hb).2

end Encode

/-! ## Records and paths -/

/-- Records and paths go together. In either layout just the paths of at most 107 bytes without a
zero byte have a record; a zero byte is told before the length is. The record holds the path, and
the layouts differ in the header only. The other way round, the path of any record lies within it
and is the longest start of the path area without a zero byte; it has a record again just when the
area has an end mark, and then comes back from that. -/
theorem encode_and_path_inverse :
    (∀ (layout : RecordLayout) (p : Path),
      ((∃ r, encode layout p = .ok r) ↔ 0 ∉ p ∧ p.length ≤ 107) ∧
      (∀ e, encode layout p = .error e ↔
        (0 ∈ p ∧ e = .invalidPath p "contains a NUL byte") ∨
          (0 ∉ p ∧ 107 < p.length ∧ e = .pathTooLong p p.length 107)) ∧
      ∀ r, encode layout p = .ok r → r.Holds layout p) ∧
    (∀ (p : Path) (r s : AddressRecord), encode .family p = .ok r → encode .length p = .ok s →
      r.bytes.drop 2 = s.bytes.drop 2 ∧ r.length = s.length) ∧
    ∀ r : AddressRecord,
      IsPathOf r.path r.area ∧ 2 + r.path.length ≤ r.bytes.length ∧
      ∀ layout : RecordLayout,
        ((∃ q, encode layout r.path = .ok q) ↔ 0 ∈ r.area) ∧
        ∀ q, encode layout r.path = .ok q → q.path = r.path := by
  refine ⟨fun layout p => ⟨encodes_iff, fun e => encode_eq_error_iff, fun r => holds_encode⟩, ?_,
    ?_⟩
  · intro p r s hr hs
    refine ⟨(drop_two_encode hr).trans (drop_two_encode hs).symm, ?_⟩
    obtain ⟨-, -, -, hlr⟩ := encode_eq_ok_iff.mp hr
    obtain ⟨-, -, -, hls⟩ := encode_eq_ok_iff.mp hs
    exact hlr.trans hls.symm
  · intro r
    obtain ⟨h0, hprefix, -⟩ := r.isPathOf_path
    have hle := hprefix.length_le
    rw [length_area] at hle
    have hsize : r.bytes.length = 110 := r.size_bytes
    refine ⟨r.isPathOf_path, by omega, fun layout => ⟨?_, fun q => path_encode⟩⟩
    rw [encodes_iff, ← length_path_lt_iff]
    exact ⟨fun h => by omega, fun h => ⟨h0, by omega⟩⟩

/-- The longest path fills its record, one byte more is too long, and a zero byte in a longer path
is told all the same. The path of a record without an end mark has no record. -/
theorem longest_path_fills_record :
    let p : Path := List.replicate 107 0x61
    let full : AddressRecord := ⟨List.replicate 110 0x61, 110, List.length_replicate⟩
    (∃ r, encode .length p = .ok r ∧ r.path = p ∧ r.length.toNat = 110) ∧
      encode .family (0x61 :: p) = .error (.pathTooLong (0x61 :: p) 108 107) ∧
      encode .family (p ++ [0x61, 0]) =
        .error (.invalidPath (p ++ [0x61, 0]) "contains a NUL byte") ∧
      ¬ ∃ r, encode .family full.path = .ok r := by
  intro p full
  have hp : 0 ∉ p := fun h => absurd (List.mem_replicate.mp h).2 (by decide)
  obtain ⟨hencodes, herror, hholds⟩ := encode_and_path_inverse.1 .length p
  obtain ⟨r, hr⟩ := hencodes.mpr ⟨hp, by simp [p]⟩
  refine ⟨⟨r, hr, (hholds r hr).comesBack, (hholds r hr).length⟩, ?_, ?_, ?_⟩
  · exact ((encode_and_path_inverse.1 .family _).2.1 _).mpr (.inr ⟨by simp [hp], by simp [p], rfl⟩)
  · exact ((encode_and_path_inverse.1 .family _).2.1 _).mpr (.inl ⟨by simp, rfl⟩)
  · obtain ⟨-, -, hagain⟩ := encode_and_path_inverse.2.2 full
    intro h
    have hmem : (0 : UInt8) ∈ List.replicate 108 0x61 := (hagain .family).1.mp h
    exact absurd (List.mem_replicate.mp hmem).2 (by decide)

end LocalIpc.AddressRecord

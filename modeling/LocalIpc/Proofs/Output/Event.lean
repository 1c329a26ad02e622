import LocalIpc.Output.Event
import LocalIpc.Proofs.Text.Json
/-!
# Events as JSON

A program that reads the JSON of an event has the whole event.
-/

namespace LocalIpc.Event

/-- What the JSON of an event says: its fields under their names, in the order of the record. -/
def value (e : Event) : Json.Value :=
  .object [
    ("event", .text e.event),
    ("transport", .text e.transport),
    ("path", .text e.path),
    ("sequence", .integer e.sequence),
    ("handle", .integer e.handle.toInt),
    ("bytes_received", .integer e.bytesReceived),
    ("preview", .text e.preview),
    ("duration_ms", .integer e.durationMs),
    ("timestamp", .text e.timestamp)]

theorem toInt_handle_inj {a b : Handle} : a.toInt = b.toInt ↔ a = b := by
  cases a
  cases b
  simp [Handle.toInt, Int64.toInt_inj]

theorem value_inj {e e' : Event} : e.value = e'.value ↔ e = e' := by
  refine ⟨fun h => ?_, fun h => h ▸ rfl⟩
  cases e
  cases e'
  simp only [value, Json.Value.integer, Json.Value.object.injEq, List.cons.injEq, Prod.mk.injEq,
    Json.Value.text.injEq, Json.Value.number.injEq, true_and, and_true, Int.natCast_inj,
    toInt_handle_inj] at h
  simpa only [Event.mk.injEq] using h

section Written

variable {j : Json.Writer} (hj : j.Documented)

include hj

theorem object_members (e : Event) : j.object (e.members j) = some (e.jsonBy j) := by
  unfold jsonBy
  rw [hj.object]
  rfl

theorem exists_writtenMembers (e : Event) :
    ∃ vs, e.value = .object vs ∧ Json.WrittenMembers (e.members j) vs := by
  refine ⟨_, rfl, ?_⟩
  simp only [members, List.forall₂_cons, Json.Writer.text_written hj, Json.Writer.number_written hj,
    true_and]
  exact .nil

theorem read?_jsonBy (e : Event) : Json.read? (e.jsonBy j) = some e.value := by
  obtain ⟨vs, hvalue, h⟩ := exists_writtenMembers hj e
  rw [hvalue]
  exact Json.Writer.read?_object hj h (List.cons_ne_nil _ _) (object_members hj e)

theorem shown_of_mem_jsonBy (e : Event) : ∀ c ∈ (e.jsonBy j).toList, 0x20 ≤ c.toNat := by
  obtain ⟨vs, -, h⟩ := exists_writtenMembers hj e
  exact Json.Writer.shown_of_mem_object hj h (object_members hj e)

/-- Whatever library writes it, every event is read back from its JSON, field by field, and the JSON
stays on one line; no event is lost to an empty object, and no two events look alike. -/
theorem jsonBy_read_back :
    (∀ e : Event, e.jsonBy j ≠ "\x7b\x7d" ∧ (∀ c ∈ (e.jsonBy j).toList, 0x20 ≤ c.toNat) ∧
      Json.read? (e.jsonBy j) = some e.value) ∧
      ∀ e e' : Event, e.jsonBy j = e'.jsonBy j ↔ e = e' := by
  refine ⟨fun e => ⟨fun hempty => ?_, shown_of_mem_jsonBy hj e, read?_jsonBy hj e⟩,
    fun e e' => ⟨fun h => ?_, fun h => h ▸ rfl⟩⟩
  · -- an empty object is read as one, without any member
    have hnone : Json.read? (e.jsonBy j) = some (.object []) := by
      rw [hempty]
      rfl
    rw [read?_jsonBy hj] at hnone
    simp [value] at hnone
  · exact value_inj.mp (Option.some.inj (by rw [← read?_jsonBy hj e, ← read?_jsonBy hj e', h]))

end Written

theorem read?_toJson (e : Event) : Json.read? e.toJson = some e.value :=
  read?_jsonBy Json.writer_documented e

theorem shown_of_mem_toJson (e : Event) : ∀ c ∈ e.toJson.toList, 0x20 ≤ c.toNat :=
  shown_of_mem_jsonBy Json.writer_documented e

/-- Every event is read back from its JSON, field by field, and the JSON stays on one line; no event
is lost to an empty object, and no two events look alike. -/
theorem toJson_read_back :
    (∀ e : Event, e.toJson ≠ "\x7b\x7d" ∧ (∀ c ∈ e.toJson.toList, 0x20 ≤ c.toNat) ∧
      Json.read? e.toJson = some (.object [
        ("event", .text e.event),
        ("transport", .text e.transport),
        ("path", .text e.path),
        ("sequence", .integer e.sequence),
        ("handle", .integer e.handle.toInt),
        ("bytes_received", .integer e.bytesReceived),
        ("preview", .text e.preview),
        ("duration_ms", .integer e.durationMs),
        ("timestamp", .text e.timestamp)])) ∧
      ∀ e e' : Event, e.toJson = e'.toJson ↔ e = e' :=
  jsonBy_read_back Json.writer_documented

end LocalIpc.Event

import BlogLedger.KeySpace.Batch
import BlogLedger.Proofs.Bytes.Hex
import BlogLedger.Proofs.Json.Stored

/-!
# Batches that are read back

A batch is kept as JSON with its keys and values in hexadecimal, and reads back whatever bytes they
are.

The body of a journal record is such a batch, so that replaying a journal depends on it.  The order
of the writes is kept, although a batch that comes from a layer is in the order of its keys.

## Main Results

* `Batch.decode?_encode` — a batch reads back from its bytes.
-/

namespace BlogLedger

namespace Op

@[simp] theorem ofHexJson?_hexJson (bytes : Bytes) : ofHexJson? (hexJson bytes) = some bytes := by
  simp [ofHexJson?, hexJson, Hex.read_lower, Except.toOption]

/-- The name of a write, and the members beside it.  A removal has no value. -/
def members : Op → List (String × Json)
  | .set key value => [("key", hexJson key), ("value", hexJson value)]
  | .delete key => [("key", hexJson key)]

/-- The tag of a write.  It tells which members to look for. -/
def tag : Op → String
  | .set .. => "set"
  | .delete _ => "delete"

theorem toJson_eq (op : Op) : op.toJson = .ofMembers (("op", .ofText op.tag) :: op.members) := by
  cases op <;> rfl

/-- Every member of a write is a text with a name of its own.  Keys and values are written in
hexadecimal, so any bytes become a text. -/
theorem of_mem_members {op : Op} {m : String × Json} (h : m ∈ op.members) :
    m.1 ≠ "op" ∧ ∃ text, m.2 = .ofText text := by
  have hkey : "key" ≠ "op" := by decide
  have hvalue : "value" ≠ "op" := by decide
  cases op with
  | set key value =>
    rcases List.mem_cons.1 h with rfl | h
    · exact ⟨hkey, _, rfl⟩
    · obtain rfl := List.mem_singleton.1 h
      exact ⟨hvalue, _, rfl⟩
  | delete key =>
    obtain rfl := List.mem_singleton.1 h
    exact ⟨hkey, _, rfl⟩

/-- A write reads back, also inside other values.  Its depth is small, and there is room around it. -/
theorem ofJson?_toJson (op : Op) {around : Nat} (h : around < Json.maxHeight) :
    ofJson? around op.toJson = some op := by
  have htagged : op.toJson.tagged? "op" around = some (op.tag, .ofMembers op.members) := by
    rw [toJson_eq]
    refine Json.tagged?_ofMembers (fun m hm => ?_) (fun m hm => (of_mem_members hm).1) h
    obtain ⟨-, text, htext⟩ := of_mem_members hm
    rw [htext]
    exact Json.isScalar_ofText text
  rw [ofJson?, htagged]
  cases op with
  | set key value =>
    have hfields : Json.unrepeated ["key", "value"]
        [("key", hexJson key), ("value", hexJson value)] = true := rfl
    simp [tag, members, Json.fields?_ofMembers hfields, Fields.required, Fields.lookup_cons]
  | delete key =>
    have hfields : Json.unrepeated ["key"] [("key", hexJson key)] = true := rfl
    simp [tag, members, Json.fields?_ofMembers hfields, Fields.required]

theorem written_toJson (op : Op) : op.toJson.Written := by
  rw [toJson_eq, Json.written_ofMembers, List.forall_mem_cons]
  refine ⟨Json.written_ofText _, fun m hm => ?_⟩
  obtain ⟨-, text, htext⟩ := of_mem_members hm
  rw [htext]
  exact Json.written_ofText text

end Op

namespace Batch

theorem mapM_ofJson?_toJson (ops : List Op) :
    ops.mapM (fun op => Op.ofJson? 2 op.toJson) = some ops := by
  induction ops with
  | nil => rfl
  | cons op rest ih =>
    have hop : Op.ofJson? 2 op.toJson = some op := op.ofJson?_toJson (by decide)
    simp [List.mapM_cons, hop, ih]

theorem ofJson?_toJson (batch : Batch) : ofJson? (toJson batch) = some batch := by
  have hfields : Json.unrepeated ["ops"] [("ops", .array (batch.map Op.toJson))] = true := rfl
  have hops : (batch.map Op.toJson).mapM (Op.ofJson? 2) = some batch := by
    rw [List.mapM_map]
    exact mapM_ofJson?_toJson batch
  rw [ofJson?, toJson, Json.fields?_ofMembers hfields]
  simpa [Fields.required, Json.items?] using hops

theorem written_toJson (batch : Batch) : (toJson batch).Written := by
  have hops : (Json.array (batch.map Op.toJson)).Written := by
    rw [Json.written_array, List.forall_mem_map]
    exact fun op _ => op.written_toJson
  rw [toJson, Json.written_ofMembers]
  simpa using hops

/-- A batch reads back from its bytes, also an empty one. -/
@[simp] theorem decode?_encode (batch : Batch) : decode? (encode batch) = some batch := by
  rw [decode?, encode, Json.parse?_print (written_toJson batch), Option.bind_some, ofJson?_toJson]

end Batch

end BlogLedger

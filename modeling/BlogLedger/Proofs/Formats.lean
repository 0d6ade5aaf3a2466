import BlogLedger.Command.Run
import BlogLedger.Proofs.Json.Line
import BlogLedger.Proofs.KeySpace.Batch

/-!
# Formats that lose nothing

Everything that is stored, and everything that comes in over the wire, reads back from its JSON form
exactly as it was, so different values have different forms.  Texts may hold any characters, numbers
and times may be any 64-bit ones, and optional fields may be there or not.

Reading back is what everything else takes for granted: records that are read are those that were
written, and a transaction on a line is the one that was sent.  A format that reads back cannot give
one form to two values, so nothing is confused either.  The formats share their parts, and each of
them is put together from fields that read back.

## Main Definitions

* `Faithful` — a form that reads back.
* `Message.encode`, `Transaction.encode` — the forms of messages and transactions.
* `FormatsFaithful` — every format of the ledger is faithful.

## Main Results

* `Transaction.decode?_encode` — a transaction reads back.
* `Transaction.transactionOn_encode` — the line of a transaction is read as that transaction.
* `formats_faithful` — every format of the ledger is faithful.
-/

namespace BlogLedger

/-- A form of values as bytes from which every value reads back, so that no two share one.  The
second part follows from the first one and is stated because it is what a reader may look for. -/
structure Faithful {α : Type} (encode : α → Bytes) (decode? : Bytes → Option α) : Prop where
  reads_back : ∀ a, decode? (encode a) = some a
  injective : ∀ a b, encode a = encode b → a = b

theorem Faithful.of_reads_back {α : Type} {encode : α → Bytes} {decode? : Bytes → Option α}
    (h : ∀ a, decode? (encode a) = some a) : Faithful encode decode? where
  reads_back := h
  injective a b hsame := by
    have hread := congrArg decode? hsame
    rwa [h, h, Option.some.injEq] at hread

/-! ### Single values on one line -/

namespace Json

theorem isLine_print_timestamp (t : Timestamp) : t.toJson.print.IsLine :=
  isLine_print_ofInt t.toInt

theorem isLine_print_recordId (id : RecordId) : id.toJson.print.IsLine :=
  isLine_print_ofInt id.number.toNat

theorem isLine_print_address (a : Address) : a.toJson.print.IsLine :=
  isLine_print_ofText a.display

end Json

/-! ### Messages -/

namespace Message

/-- The form of a message.  It is the one that a task is stored with. -/
def encode (m : Message) : Bytes := m.toJson.print

/-- The message of a form.  Bytes that are no message give nothing. -/
def decode? (bytes : Bytes) : Option Message := (Json.parse? bytes).bind (ofJson? 0)

/-- A message reads back from its form, whatever its texts and numbers are. -/
@[simp] theorem decode?_encode (m : Message) : decode? m.encode = some m := by
  rw [decode?, encode, Json.parse?_print m.written_toJson, Option.bind_some,
    m.ofJson?_toJson (by decide)]

/-- A message is on one line.  Line feeds in texts are written as escapes. -/
theorem isLine_print (m : Message) : m.toJson.print.IsLine := by
  refine Json.isLine_print_ofMembers (List.forall_mem_cons.2 ⟨Json.isLine_print_ofText _, ?_⟩)
  intro e he
  cases m <;>
    simp only [members, List.mem_cons, List.not_mem_nil, List.cons_append, List.nil_append,
      Json.mem_optionalMember] at he <;>
    grind [Json.isLine_print_ofText, Json.isLine_print_timestamp, Json.isLine_print_recordId]

end Message

/-! ### Transactions -/

namespace Transaction

/-- The form of a transaction.  It is that of a line of input. -/
def encode (tx : Transaction) : Bytes := tx.toJson.print

/-- The transaction of a form.  Its message must be of a known kind, and its signer an address. -/
def decode? (bytes : Bytes) : Option Transaction := (Json.parse? bytes).bind ofJson?

/-- The members of a transaction.  The signer is left out if there is none. -/
def members (tx : Transaction) : List (String × Json) :=
  ("time", tx.time.toJson) :: Json.optionalMember "signer" Address.toJson tx.signer
    ++ [("msg", tx.message.toJson)]

theorem ofJson?_toJson (tx : Transaction) : ofJson? tx.toJson = some tx := by
  have hmessage : Message.ofJson? 1 tx.message.toJson = some tx.message :=
    tx.message.ofJson?_toJson (by decide)
  have hfields : Json.unrepeated ["time", "signer", "msg"] tx.members = true := by
    obtain ⟨time, signer, message⟩ := tx
    cases signer <;> rfl
  have hsigner : Fields.optional tx.members "signer" Address.ofJson? = some tx.signer :=
    Fields.optional_of_lookup
      (by simp [members, Fields.lookup_cons, Fields.lookup_optionalMember])
      Address.ofJson?_toJson (by simp [Address.toJson, Json.ofText])
  rw [ofJson?, toJson, ← members, Json.fields?_ofMembers hfields]
  simp only [Option.bind_eq_bind, Option.bind_some, hsigner]
  simp [members, Fields.required, Fields.lookup_cons, Fields.lookup_optionalMember, hmessage]

theorem written_toJson (tx : Transaction) : tx.toJson.Written := by
  rw [toJson, Json.written_ofMembers]
  intro m hm
  simp only [List.cons_append, List.mem_cons, List.mem_append, List.not_mem_nil, or_false,
    Json.mem_optionalMember] at hm
  rcases hm with rfl | ⟨signer, -, rfl⟩ | rfl
  · exact Json.written_timestamp tx.time
  · exact Json.written_address signer
  · exact tx.message.written_toJson

/-- A transaction reads back from its form, also without a signer. -/
@[simp] theorem decode?_encode (tx : Transaction) : decode? tx.encode = some tx := by
  rw [decode?, encode, Json.parse?_print tx.written_toJson, Option.bind_some, ofJson?_toJson]

theorem isLine_of_mem_members {tx : Transaction} {m : String × Json} (hm : m ∈ tx.members) :
    m.2.print.IsLine := by
  simp only [members, List.cons_append, List.mem_cons, List.mem_append, List.not_mem_nil, or_false,
    Json.mem_optionalMember] at hm
  rcases hm with rfl | ⟨signer, -, rfl⟩ | rfl
  · exact Json.isLine_print_timestamp tx.time
  · exact Json.isLine_print_address signer
  · exact tx.message.isLine_print

/-- A transaction is on one line, so it can be submitted with others. -/
theorem isLine_encode (tx : Transaction) : tx.encode.IsLine :=
  Json.isLine_print_ofMembers fun _ hm => isLine_of_mem_members hm

/-- The line of a transaction is read as that transaction.  A command reads lines and not forms, and
a line may be taken for a blank one; this one is not. -/
theorem transactionOn_encode (tx : Transaction) :
    Command.transactionOn tx.encode = .ok (some tx) := by
  have hmembers : ∀ m ∈ tx.members, m.2.print.IsLine := fun _ hm => isLine_of_mem_members hm
  obtain ⟨text, htext⟩ := Json.text_print_ofMembers hmembers
  have hread : Bytes.toText? tx.encode = some ("\x7b" ++ text) := by
    rw [← Bytes.toText?_ofText ("\x7b" ++ text), htext]
    rfl
  have hdecode : (Json.parse? tx.encode).bind ofJson? = some tx := tx.decode?_encode
  -- The line starts with a brace, so it is not blank.
  have hblank : Blank.isAllBlank ("\x7b" ++ text) = false := by
    unfold Blank.isAllBlank
    rw [String.toList_append, List.all_append]
    rfl
  unfold Command.transactionOn
  rw [hread]
  dsimp only
  rw [hblank, hdecode]
  rfl

end Transaction

/-! ### All formats -/

/-- Every value that is stored or comes in over the wire reads back from its form.  There is a field
for each kind of value. -/
structure FormatsFaithful : Prop where
  records : Faithful Record.encode fun bytes => (Record.decode bytes).toOption
  messages : Faithful Message.encode Message.decode?
  transactions : Faithful Transaction.encode Transaction.decode?
  tasks : Faithful Task.encode fun bytes => (Task.decode bytes).toOption
  batches : Faithful Batch.encode Batch.decode?
  idLists : Faithful IdList.encode fun bytes => (IdList.decode bytes).toOption
  /-- A transaction that is submitted on a line of its own is read as it was.  Its form has no line
  feed. -/
  lines : ∀ tx : Transaction, (10 : UInt8) ∉ tx.encode
    ∧ Command.transactionOn tx.encode = .ok (some tx)

/-- Every format of the ledger is faithful.  Each field is the round trip of one kind of value. -/
theorem formats_faithful : FormatsFaithful where
  records := .of_reads_back fun r => by rw [r.decode_encode]; rfl
  messages := .of_reads_back Message.decode?_encode
  transactions := .of_reads_back Transaction.decode?_encode
  tasks := .of_reads_back fun t => by rw [t.decode_encode]; rfl
  batches := .of_reads_back Batch.decode?_encode
  idLists := .of_reads_back fun ids => by rw [ids.decode_encode]; rfl
  lines tx := ⟨tx.isLine_encode.unbroken, tx.transactionOn_encode⟩

end BlogLedger

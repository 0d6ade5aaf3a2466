import BlogLedger.Index.IdList
import BlogLedger.Proofs.Address
import BlogLedger.Proofs.Json.Fields
import BlogLedger.Schedule

/-!
# Stored forms that are read back

Records, lists of record numbers and tasks are stored as JSON, and every one of them reads back from
its stored form, whatever its fields hold.

Each stored form is a structure or a tagged one, and its members are numbers, texts or small values
that read back.  So for each of them it has to be checked that its members have different names and
can be read, and then the general rules apply.  Fields that may be left out need a word: leaving one
out must read as the value for which it is left out.

## Main Results

* `Record.decode_encode`, `IdList.decode_encode`, `Task.decode_encode` — the stored forms read back.
* `Message.ofJson?_toJson` — a message reads back, also inside other values.
-/

namespace BlogLedger

/-! ### Single values -/

@[simp] theorem Timestamp.ofJson?_toJson (t : Timestamp) : ofJson? t.toJson = some t := by
  simp [ofJson?, toJson, toInt]

@[simp] theorem RecordId.ofJson?_toJson (id : RecordId) : ofJson? id.toJson = some id := by
  simp [ofJson?, toJson]

@[simp] theorem TaskId.ofJson?_toJson (id : TaskId) : ofJson? id.toJson = some id := by
  simp [ofJson?, toJson]

@[simp] theorem Address.ofJson?_toJson (a : Address) : ofJson? a.toJson = some a := by
  simp [ofJson?, toJson, Except.toOption]

namespace Json

@[simp] theorem isScalar_timestamp (t : Timestamp) : t.toJson.IsScalar :=
  isScalar_ofInt_toInt t.seconds

@[simp] theorem isScalar_recordId (id : RecordId) : id.toJson.IsScalar :=
  isScalar_ofNat_toNat id.number

@[simp] theorem isScalar_taskId (id : TaskId) : id.toJson.IsScalar :=
  isScalar_ofNat_toNat id.number

@[simp] theorem isScalar_address (a : Address) : a.toJson.IsScalar :=
  isScalar_ofText a.display

@[simp] theorem written_timestamp (t : Timestamp) : t.toJson.Written := written_ofInt t.toInt

@[simp] theorem written_recordId (id : RecordId) : id.toJson.Written :=
  written_ofNat id.number.toNat

@[simp] theorem written_taskId (id : TaskId) : id.toJson.Written := written_ofNat id.number.toNat

@[simp] theorem written_address (a : Address) : a.toJson.Written := written_ofText a.display

end Json

/-! ### Fields by name -/

namespace Fields

theorem lookup_cons (name other : String) (value : Json) (rest : Fields) :
    List.lookup name ((other, value) :: rest : Fields)
      = if name = other then some value else List.lookup name rest := by
  by_cases h : name = other
  · simp [h]
  · simp [List.lookup_cons, h, beq_false_of_ne h]

theorem lookup_optionalMember {α : Type} (name other : String) (write : α → Json) (o : Option α)
    (rest : Fields) :
    List.lookup name (Json.optionalMember other write o ++ rest)
      = if name = other then (o.map write).or (List.lookup name rest)
        else List.lookup name rest := by
  cases o <;> simp [Json.optionalMember, lookup_cons]

theorem lookup_optionalMember_last {α : Type} (name other : String) (write : α → Json)
    (o : Option α) :
    List.lookup name (Json.optionalMember other write o)
      = if name = other then o.map write else none := by
  simpa using lookup_optionalMember name other write o []

/-- A field that is left out or holds a written value reads as what was written.  The value that is
written must not be null, which would be taken for a field that is left out. -/
theorem optional_of_lookup {α : Type} {fields : Fields} {name : String} {read : Json → Option α}
    {write : α → Json} {o : Option α} (hlookup : fields.lookup name = o.map write)
    (hread : ∀ a, read (write a) = some a) (hnull : ∀ a, write a ≠ .null) :
    fields.optional name read = some o := by
  cases o with
  | none => simp [optional, hlookup]
  | some a =>
    have hvalue : fields.lookup name = some (write a) := hlookup
    unfold optional
    rw [hvalue]
    split
    · next h => simp at h
    · next h => exact absurd (Option.some.inj h) (hnull a)
    · next j _ h =>
      obtain rfl : write a = j := Option.some.inj h
      simp [hread]

end Fields

/-! ### Records -/

theorem User.ofJson?_ofMembers (u : User) : ofJson? (.ofMembers u.members) = some u := by
  have hfields : Json.unrepeated ["username", "bio", "registered_at"] u.members = true := by
    obtain ⟨username, bio, registeredAt⟩ := u
    cases bio <;> rfl
  have hbio : Fields.optional u.members "bio" Json.text? = some u.bio :=
    Fields.optional_of_lookup (by simp [members, Fields.lookup_cons, Fields.lookup_optionalMember])
      Json.text?_ofText (by simp [Json.ofText])
  rw [ofJson?, Json.fields?_ofMembers hfields]
  simp only [Option.bind_eq_bind, Option.bind_some, hbio]
  simp [members, Fields.required, Fields.lookup_cons, Fields.lookup_optionalMember]

theorem Blog.ofJson?_ofMembers (b : Blog) : ofJson? (.ofMembers b.members) = some b := by
  have hfields : Json.unrepeated ["owner", "title", "description", "created_at"] b.members = true :=
    rfl
  rw [ofJson?, Json.fields?_ofMembers hfields]
  simp [members, Fields.required, Fields.lookup_cons]

theorem Article.ofJson?_ofMembers (a : Article) : ofJson? (.ofMembers a.members) = some a := by
  have hfields : Json.unrepeated ["blog_id", "owner", "title", "content", "created_at",
      "delete_at", "delete_task_id"] a.members = true := by
    obtain ⟨blog, owner, title, content, createdAt, deleteAt, deletion⟩ := a
    cases deleteAt <;> cases deletion <;> rfl
  have hdeadline : Fields.optional a.members "delete_at" Timestamp.ofJson? = some a.deleteAt :=
    Fields.optional_of_lookup
      (by simp [members, Fields.lookup_cons, Fields.lookup_optionalMember,
        Fields.lookup_optionalMember_last])
      Timestamp.ofJson?_toJson (by simp [Timestamp.toJson, Json.ofInt])
  have hdeletion : Fields.optional a.members "delete_task_id" TaskId.ofJson? = some a.deletion :=
    Fields.optional_of_lookup
      (by simp [members, Fields.lookup_cons, Fields.lookup_optionalMember,
        Fields.lookup_optionalMember_last])
      TaskId.ofJson?_toJson (by simp [TaskId.toJson, Json.ofNat])
  rw [ofJson?, Json.fields?_ofMembers hfields]
  simp only [Option.bind_eq_bind, Option.bind_some, hdeadline, hdeletion]
  simp [members, Fields.required, Fields.lookup_cons]

namespace Json

theorem mem_optionalMember {α : Type} {name : String} {write : α → Json} {o : Option α}
    {m : String × Json} : m ∈ optionalMember name write o ↔ ∃ a ∈ o, m = (name, write a) := by
  cases o <;> simp [optionalMember]

end Json

namespace Record

/-- Every member of a record is a scalar with a name of its own, and is written.  The three kinds of
records are gone through here, and nowhere else. -/
theorem of_mem_members {r : Record} {m : String × Json} (h : m ∈ r.members) :
    m.2.IsScalar ∧ m.1 ≠ "type" ∧ m.2.Written := by
  cases r <;>
    simp only [members, User.members, Blog.members, Article.members, List.mem_cons, List.mem_append,
      List.not_mem_nil, List.cons_append, Json.mem_optionalMember] at h <;>
    grind [Json.isScalar_ofText, Json.isScalar_timestamp, Json.isScalar_recordId,
      Json.isScalar_taskId, Json.isScalar_address, Json.written_ofText, Json.written_timestamp,
      Json.written_recordId, Json.written_taskId, Json.written_address]

theorem ofJson?_toJson (r : Record) : ofJson? r.toJson = some r := by
  have htagged : r.toJson.tagged? "type" 0 = some (r.kind.name, .ofMembers r.members) :=
    Json.tagged?_ofMembers (fun m hm => (of_mem_members hm).1) (fun m hm => (of_mem_members hm).2.1)
      (by decide)
  rw [ofJson?, htagged]
  cases r with
  | user u => simp [kind, RecordKind.name, members, User.ofJson?_ofMembers]
  | blog b => simp [kind, RecordKind.name, members, Blog.ofJson?_ofMembers]
  | article a => simp [kind, RecordKind.name, members, Article.ofJson?_ofMembers]

theorem written_toJson (r : Record) : r.toJson.Written := by
  rw [toJson, Json.written_ofMembers, List.forall_mem_cons]
  exact ⟨Json.written_ofText _, fun m hm => (of_mem_members hm).2.2⟩

/-- A record reads back from its stored form, of whatever kind it is. -/
@[simp] theorem decode_encode (r : Record) : decode r.encode = .ok r := by
  simp [decode, encode, Json.parse?_print (written_toJson r), ofJson?_toJson]

end Record

/-! ### Lists of record numbers -/

namespace IdList

theorem ofJson?_toJson (ids : IdList) : ofJson? (toJson ids) = some ids := by
  rw [ofJson?, toJson]
  show (ids.map RecordId.toJson).mapM RecordId.ofJson? = some ids
  rw [List.mapM_map]
  induction ids with
  | nil => rfl
  | cons id rest ih => simp [List.mapM_cons, ih]

theorem written_toJson (ids : IdList) : (toJson ids).Written := by
  rw [toJson, Json.written_array, List.forall_mem_map]
  exact fun id _ => Json.written_recordId id

/-- A list of record numbers reads back from its stored form.  The order is kept, and the numbers
need not ascend for that. -/
@[simp] theorem decode_encode (ids : IdList) : decode (encode ids) = .ok ids := by
  simp [decode, encode, Json.parse?_print (written_toJson ids), ofJson?_toJson]

end IdList

/-! ### Messages and tasks -/

namespace Message

theorem ofName?_name (k : Kind) : Kind.ofName? k.name = some k := by
  cases k <;> rfl

/-- Leaving a deadline out and reading zero for it gives the deadline back.  Zero is how a message
says that there is none. -/
theorem getD_deadline (deleteAt : Timestamp) : (deadline deleteAt).getD .unset = deleteAt := by
  by_cases h : deleteAt = .unset <;> simp [deadline, h]

theorem orDefault_deadline {fields : Fields} {deleteAt : Timestamp}
    (h : fields.lookup "delete_at" = (deadline deleteAt).map Timestamp.toJson) :
    fields.orDefault "delete_at" .unset Timestamp.ofJson? = some deleteAt := by
  have hback := getD_deadline deleteAt
  rw [Fields.orDefault, h]
  cases hd : deadline deleteAt with
  | none => simpa [hd] using hback
  | some deadline => simpa [hd] using hback

theorem ofContent?_ofMembers (m : Message) : ofContent? m.kind (.ofMembers m.members) = some m := by
  cases m with
  | createUser username bio =>
    have hfields : Json.unrepeated ["username", "bio"] (members (.createUser username bio))
        = true := by
      cases bio <;> rfl
    have hbio : Fields.optional (members (.createUser username bio)) "bio" Json.text? = some bio :=
      Fields.optional_of_lookup
        (by simp [members, Fields.lookup_cons, Fields.lookup_optionalMember_last])
        Json.text?_ofText (by simp [Json.ofText])
    simp only [ofContent?, kind, Json.fields?_ofMembers hfields, Option.bind_eq_bind,
      Option.bind_some, hbio]
    simp [members, Fields.required]
  | createBlog title description =>
    have hfields : Json.unrepeated ["title", "description"]
        (members (.createBlog title description)) = true := rfl
    simp only [ofContent?, kind, Json.fields?_ofMembers hfields]
    simp [members, Fields.required, Fields.lookup_cons]
  | changeBlogOwner blog newOwner =>
    have hfields : Json.unrepeated ["blog_id", "new_owner"]
        (members (.changeBlogOwner blog newOwner)) = true := rfl
    simp only [ofContent?, kind, Json.fields?_ofMembers hfields]
    simp [members, Fields.required, Fields.lookup_cons]
  | createArticle blog title content deleteAt =>
    have hfields : Json.unrepeated ["blog_id", "title", "content", "delete_at"]
        (members (.createArticle blog title content deleteAt)) = true := by
      rw [members]
      cases deadline deleteAt <;> rfl
    have hlookup : List.lookup "delete_at" (members (.createArticle blog title content deleteAt))
        = (deadline deleteAt).map Timestamp.toJson := by
      simp [members, Fields.lookup_cons, Fields.lookup_optionalMember_last]
    have hdeadline := orDefault_deadline hlookup
    simp only [ofContent?, kind, Json.fields?_ofMembers hfields, Option.bind_eq_bind,
      Option.bind_some, hdeadline]
    simp [members, Fields.required, Fields.lookup_cons]
  | deleteArticle article | cancelDeletion article =>
    have hfields : Json.unrepeated ["article_id"] [("article_id", article.toJson)] = true := rfl
    simp only [ofContent?, kind, members, Json.fields?_ofMembers hfields]
    simp [Fields.required]

/-- Every member of a message is a scalar with a name of its own, and is written. -/
theorem of_mem_members {m : Message} {e : String × Json} (h : e ∈ m.members) :
    e.2.IsScalar ∧ e.1 ≠ "type" ∧ e.2.Written := by
  cases m <;>
    simp only [members, List.mem_cons, List.not_mem_nil, List.cons_append, List.nil_append,
      Json.mem_optionalMember] at h <;>
    grind [Json.isScalar_ofText, Json.isScalar_timestamp, Json.isScalar_recordId,
      Json.written_ofText, Json.written_timestamp, Json.written_recordId]

/-- A message reads back, also inside other values.  It stands inside a task and inside a
transaction. -/
theorem ofJson?_toJson (m : Message) {around : Nat} (h : around < Json.maxHeight) :
    ofJson? around m.toJson = some m := by
  have htagged : m.toJson.tagged? "type" around = some (m.kind.name, .ofMembers m.members) :=
    Json.tagged?_ofMembers (fun e he => (of_mem_members he).1)
      (fun e he => (of_mem_members he).2.1) h
  rw [ofJson?, htagged]
  simp [ofName?_name, ofContent?_ofMembers]

theorem written_toJson (m : Message) : m.toJson.Written := by
  rw [toJson, Json.written_ofMembers, List.forall_mem_cons]
  exact ⟨Json.written_ofText _, fun e he => (of_mem_members he).2.2⟩

end Message

namespace Task

theorem ofJson?_toJson (t : Task) : ofJson? t.toJson = some t := by
  have hmessage : Message.ofJson? 1 t.message.toJson = some t.message :=
    t.message.ofJson?_toJson (by decide)
  have hfields : Json.unrepeated ["run_at", "msg"]
      [("run_at", t.runAt.toJson), ("msg", t.message.toJson)] = true := rfl
  rw [ofJson?, toJson, Json.fields?_ofMembers hfields]
  simp [Fields.required, Fields.lookup_cons, hmessage]

theorem written_toJson (t : Task) : t.toJson.Written := by
  rw [toJson, Json.written_ofMembers]
  simp [t.message.written_toJson]

/-- A task reads back from its stored form, with its message inside. -/
@[simp] theorem decode_encode (t : Task) : decode t.encode = .ok t := by
  simp [decode, encode, Json.parse?_print (written_toJson t), ofJson?_toJson]

end Task

end BlogLedger

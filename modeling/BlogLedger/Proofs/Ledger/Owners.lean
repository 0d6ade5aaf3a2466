import BlogLedger.Proofs.Address.Grammar
import BlogLedger.Proofs.Bucket.Lookup
import BlogLedger.Proofs.Ledger.History

/-!
# One owner, one address

An owner may be written in any case and with blanks around the digits.  Whichever text is used, by a
signer or in a message, the ledger goes by the address and finds the blogs of that owner.

A text for an address comes into the ledger at two places, the signer of a transaction and the new
owner of a blog, and it goes through one reader at both.  The first place needs an argument about
the form of a submission, since the text stands in the middle of other fields.  For the second one
it is shown that nothing of the text is stored or compared, only the address that was read from it.

## Main Definitions

* `Transaction.SignedAs` — two forms of a transaction with different texts for the signer.
* `Ledger.Owned` — a blog belongs to the owner that a text denotes.
* `Ledger.SameOwner` — two texts that the ledger does not tell apart.

## Main Results

* `Transaction.ofJson?_signedAs` — the text of a signer matters only as an address.
* `Ledger.Shows.owned` — whoever a blog is handed to is found as its owner.
* `Ledger.owners_canonical` — texts that are alike are not told apart.
-/

namespace BlogLedger

open Address (Alike Grammar)

/-! ### Definitions -/

/-- Two forms of a transaction that differ in the texts given for the signer.  A submission may name
its fields or leave the names out, and there is a case for each; the fields around the signer can be
anything. -/
inductive Transaction.SignedAs (x y : String) : Json → Json → Prop where
  | object (before after : List (Bytes × Json)) (name : Bytes) (i j : Json)
      (named : Json.lexemeText? name = some "signer")
      (first : i.text? = some x) (second : j.text? = some y) :
    SignedAs x y (.object (before ++ (name, i) :: after)) (.object (before ++ (name, j) :: after))
  /-- Without names the signer comes second. -/
  | array (time i j : Json) (rest : List Json)
      (first : i.text? = some x) (second : j.text? = some y) :
    SignedAs x y (.array (time :: i :: rest)) (.array (time :: j :: rest))

namespace Ledger

/-- A blog belongs to the owner that a text denotes, and to nobody else.  Both ways in which
ownership shows are in it: who may act on the blog, and under which owner the index finds it. -/
structure Owned (l : Ledger) (id : RecordId) (text : String) : Prop where
  stored : ∃ blog, Blogs.get id l.store = .ok (some blog) ∧ Address.read text = .ok blog.owner
    ∧ ∀ (c : Caller) (action : String), c.requireOwner blog.owner action = .ok ()
      ↔ ∃ a, c.signer? = some a ∧ Address.read text = .ok a
  found : ∀ a, ∃ ids, Blogs.ownedBy a l.store = .ok ids
    ∧ (id ∈ ids ↔ Address.read text = .ok a)

/-- Two texts that the ledger does not tell apart.  Every use that is made of the text of an address
has a field here. -/
structure SameOwner (x y : String) : Prop where
  denotes : ∀ a, Address.read x = .ok a ↔ Address.read y = .ok a
  signed : ∀ i j, Transaction.SignedAs x y i j → Transaction.ofJson? i = Transaction.ofJson? j
  valid : ∀ id, (Message.changeBlogOwner id x).validate = .ok ()
    ↔ (Message.changeBlogOwner id y).validate = .ok ()
  /-- Handing a blog over to either is the same step, with the same answer and the same ledger
  afterwards.  It is asked only of texts that denote an address, since a failure may name a
  character of the text and its position. -/
  handed : ∀ (l : Ledger) (time : Timestamp) (signer : Option Address) (id : RecordId),
    (∃ a, Address.read x = .ok a) →
      l.check ⟨time, signer, .changeBlogOwner id x⟩ = l.check ⟨time, signer, .changeBlogOwner id y⟩
        ∧ l.deliver ⟨time, signer, .changeBlogOwner id x⟩
          = l.deliver ⟨time, signer, .changeBlogOwner id y⟩
  /-- A blog that was handed to the one text belongs to the other.  So a client need not keep the
  form in which it first wrote an owner. -/
  owned : ∀ (l : Ledger) (time : Timestamp) (signer : Option Address) (id : RecordId)
    (outcome : Outcome), l.Reachable →
      (l.deliver ⟨time, signer, .changeBlogOwner id x⟩).result = .ok outcome →
      (l.deliver ⟨time, signer, .changeBlogOwner id x⟩).ledger.Owned id y

end Ledger

/-! ### Signers -/

theorem Address.Alike.ofJson?_eq {x y : String} (h : Alike x y) {i j : Json}
    (hi : i.text? = some x) (hj : j.text? = some y) : ofJson? i = ofJson? j := by
  have hread : (read x).toOption = (read y).toOption := by
    refine Option.ext fun a => ?_
    have hmem : ∀ text, (read text).toOption = some a ↔ read text = .ok a := by
      intro text
      cases read text <;> simp [Except.toOption]
    rw [hmem, hmem]
    exact h.read_eq_ok
  unfold ofJson?
  rw [hi, hj]
  exact hread

theorem Address.bytes_inj {a b : Address} : a.bytes = b.bytes ↔ a = b := by
  obtain ⟨bytes, hbytes⟩ := a
  obtain ⟨others, hothers⟩ := b
  rw [mk.injEq]

theorem Json.exists_string_of_text? {i : Json} {x : String} (h : i.text? = some x) :
    ∃ lexeme, i = .string lexeme := by
  cases i with
  | string lexeme => exact ⟨lexeme, rfl⟩
  | _ => cases h

namespace Transaction

/-- The transaction of fields.  The reader of transactions finds the fields first, with or without
names, and then goes on with this; separating the two lets both forms share what follows. -/
def ofFields (fields : Fields) : Option Transaction := do
  return {
    time := ← fields.required "time" Timestamp.ofJson?
    signer := ← fields.optional "signer" Address.ofJson?
    message := ← fields.required "msg" (Message.ofJson? 1) }

theorem ofJson?_eq (j : Json) :
    ofJson? j = (j.fields? ["time", "signer", "msg"]).bind ofFields := rfl

variable {x y : String} {i j : Json}

/-- Between the same fields the text of a signer matters only as an address.  The other fields are
looked up by other names, so they cannot see it. -/
theorem ofFields_signer (h : Alike x y) (hi : i.text? = some x) (hj : j.text? = some y)
    (before after : Fields) :
    ofFields (before ++ ("signer", i) :: after) = ofFields (before ++ ("signer", j) :: after) := by
  have hrequired : ∀ {α : Type} (name : String) (read : Json → Option α), name ≠ "signer" →
      Fields.required (before ++ ("signer", i) :: after) name read
        = Fields.required (before ++ ("signer", j) :: after) name read := by
    intro α name read hname
    have hne : (name == "signer") = false := beq_eq_false_iff_ne.2 hname
    unfold Fields.required
    rw [List.lookup_append, List.lookup_append, List.lookup_cons, List.lookup_cons, hne]
  have hoptional : Fields.optional (before ++ ("signer", i) :: after) "signer" Address.ofJson?
      = Fields.optional (before ++ ("signer", j) :: after) "signer" Address.ofJson? := by
    have haddress := h.ofJson?_eq hi hj
    -- A text is a value: the field is not taken for one that is left out.
    obtain ⟨first, rfl⟩ := Json.exists_string_of_text? hi
    obtain ⟨second, rfl⟩ := Json.exists_string_of_text? hj
    unfold Fields.optional
    rw [List.lookup_append, List.lookup_append, List.lookup_cons_self, List.lookup_cons_self]
    cases before.lookup "signer" with
    | none => exact congrArg (Option.map some) haddress
    | some other => rfl
  unfold ofFields
  rw [hrequired "time" _ (by decide), hrequired "msg" _ (by decide), hoptional]

/-- The names among members do not depend on their values.  A repeated name is refused before any
value is read, and so it is refused for both texts or for neither. -/
theorem unrepeated_signer (names : List String) (before after : Fields) (i j : Json) :
    Json.unrepeated names (before ++ ("signer", i) :: after)
      = Json.unrepeated names (before ++ ("signer", j) :: after) := by
  have hcount : ∀ name : String,
      ((before ++ ("signer", i) :: after).filter fun m => m.1 = name).length
        = ((before ++ ("signer", j) :: after).filter fun m => m.1 = name).length := by
    intro name
    by_cases hname : "signer" = name <;> simp [hname]
  unfold Json.unrepeated
  simp only [hcount]

theorem namedMembers?_append (before after : List (Bytes × Json)) {name : Bytes}
    (hname : Json.lexemeText? name = some "signer") (i : Json) :
    Json.namedMembers? (before ++ (name, i) :: after)
      = (Json.namedMembers? before).bind fun front => (Json.namedMembers? after).map fun rest =>
        front ++ ("signer", i) :: rest := by
  unfold Json.namedMembers?
  rw [List.mapM_append, List.mapM_cons, hname]
  cases before.mapM fun m => (Json.lexemeText? m.1).map fun name => (name, m.2) with
  | none => rfl
  | some front =>
    cases after.mapM fun m => (Json.lexemeText? m.1).map fun name => (name, m.2) <;> rfl

/-- The text of a signer matters only as an address.  The case split is on the two forms of a
submission; each of them comes down to the same fields. -/
theorem ofJson?_signedAs (h : Alike x y) (hsigned : SignedAs x y i j) : ofJson? i = ofJson? j := by
  rw [ofJson?_eq, ofJson?_eq]
  cases hsigned with
  | object before after name i j named first second =>
    unfold Json.fields?
    dsimp only
    rw [namedMembers?_append before after named i, namedMembers?_append before after named j]
    cases Json.namedMembers? before with
    | none => rfl
    | some front =>
      cases Json.namedMembers? after with
      | none => rfl
      | some rest =>
        simp only [Option.bind_some, Option.map_some, Option.bind_eq_bind]
        rw [unrepeated_signer _ front rest i j]
        split
        · exact ofFields_signer h first second front rest
        · rfl
  | array time i j rest first second =>
    have hfields : ∀ k : Json, (Json.array (time :: k :: rest)).fields? ["time", "signer", "msg"]
        = if rest.length + 1 + 1 ≤ 3 then
            some ([("time", time)] ++ ("signer", k) :: List.zip ["msg"] rest)
          else none := fun _ => rfl
    rw [hfields, hfields]
    split
    · exact ofFields_signer h first second [("time", time)] (List.zip ["msg"] rest)
    · rfl

end Transaction

/-! ### New owners -/

namespace Message

variable {x y : String} {id : RecordId}

theorem ownerFlaws_eq_nil {text : String} :
    ownerFlaws text = [] ↔ ∃ a, Address.read text = .ok a := by
  unfold ownerFlaws
  cases Address.read text <;> simp

/-- Both texts are valid, or neither is.  Validation asks only whether the text can be read. -/
theorem validate_alike (h : Alike x y) (id : RecordId) :
    (changeBlogOwner id x).validate = .ok () ↔ (changeBlogOwner id y).validate = .ok () := by
  have howner : ownerFlaws x = [] ↔ ownerFlaws y = [] := by
    rw [ownerFlaws_eq_nil, ownerFlaws_eq_nil]
    exact exists_congr fun _ => h.read_eq_ok
  rw [validate_eq_ok, validate_eq_ok]
  unfold flaws
  rw [List.append_eq_nil_iff, List.append_eq_nil_iff, howner]

end Message

/-- A blog is handed to the address that a text denotes.  The handler reads the text twice, once to
validate it and once to use it, and neither reading leaves the text behind. -/
theorem Handler.handedBlog_congr {x y : String} {a : Address} (hx : Address.read x = .ok a)
    (hy : Address.read y = .ok a) (ctx : Context) (id : RecordId) :
    handedBlog ctx (.changeBlogOwner id x) = handedBlog ctx (.changeBlogOwner id y) := by
  have hflaws : (Message.changeBlogOwner id x).flaws = (Message.changeBlogOwner id y).flaws := by
    show _ ++ Message.ownerFlaws x = _ ++ Message.ownerFlaws y
    rw [Message.ownerFlaws_eq_nil.2 ⟨a, hx⟩, Message.ownerFlaws_eq_nil.2 ⟨a, hy⟩]
  have howner : Message.newOwner x = Message.newOwner y := by
    unfold Message.newOwner
    rw [hx, hy]
  funext s
  unfold handedBlog Message.validate
  dsimp only
  rw [hflaws, howner]

namespace Ledger

variable {l : Ledger} {σ : Snapshot} {x y : String} {a : Address} {time : Timestamp}
  {signer : Option Address} {id : RecordId} {outcome : Outcome}

/-- Transactions of one time whose messages make the same edit are prepared in the same way.  So for
the rest of the stages the messages need not be compared again. -/
theorem prepare_eq_of_deliver (tx other : Transaction) (htime : tx.time = other.time)
    (hedit : (Handler.submitted tx.message.kind).deliver tx.context tx.message
      = (Handler.submitted other.message.kind).deliver other.context other.message) (l : Ledger) :
    l.prepare tx = l.prepare other := by
  unfold prepare
  rw [Routes.submitted_route, Routes.submitted_route, htime]
  simp only [bind, Except.bind, hedit]

/-- Handing a blog over to one of two texts of an address is the same step, for a check as well as
for a delivery.  It holds on every ledger. -/
theorem steps_congr (hx : Address.read x = .ok a) (hy : Address.read y = .ok a) (l : Ledger)
    (time : Timestamp) (signer : Option Address) (id : RecordId) :
    l.check ⟨time, signer, .changeBlogOwner id x⟩ = l.check ⟨time, signer, .changeBlogOwner id y⟩
      ∧ l.deliver ⟨time, signer, .changeBlogOwner id x⟩
        = l.deliver ⟨time, signer, .changeBlogOwner id y⟩ := by
  have hblog := Handler.handedBlog_congr hx hy ⟨time, .ofSigner signer⟩ id
  have hprice : l.price ⟨time, signer, .changeBlogOwner id x⟩
      = l.price ⟨time, signer, .changeBlogOwner id y⟩ := by
    rw [price_eq, price_eq]
    unfold Handler.check
    simp only [Message.kind, Transaction.context, hblog]
  have hprepare : l.prepare ⟨time, signer, .changeBlogOwner id x⟩
      = l.prepare ⟨time, signer, .changeBlogOwner id y⟩ := by
    refine prepare_eq_of_deliver ⟨time, signer, .changeBlogOwner id x⟩
      ⟨time, signer, .changeBlogOwner id y⟩ rfl ?_ l
    show Handler.changeBlogOwner _ _ = Handler.changeBlogOwner _ _
    unfold Handler.changeBlogOwner
    simp only [Transaction.context, hblog]
  constructor
  · unfold check
    rw [hprice]
    rfl
  · unfold deliver
    rw [hprepare]
    rfl

/-- The owner that a text denotes owns a blog that is stored under that owner.  The row gives the
first part, and the index of owners, which lists exactly the rows with a value, gives the second
one. -/
theorem Shows.owned (h : l.Shows σ) {blog : Blog} (hrow : σ.blogs.row id.number = some blog)
    (hread : Address.read x = .ok blog.owner) : l.Owned id x := by
  have howner : ∀ a, Address.read x = .ok a ↔ a = blog.owner := by
    intro a
    rw [hread, Except.ok.injEq]
    exact eq_comm
  refine ⟨⟨blog, ?_, hread, fun c action => ?_⟩, fun a => ?_⟩
  · rw [h.stored.getBlog, hrow]
  · simp only [howner, exists_eq_right, Caller.requireOwner_eq_ok]
  · have hindex : Index.owner ∈ Bucket.blogs.indexes := List.mem_cons_self
    obtain ⟨ids, hids, hlists⟩ := h.stored.blogs.byIndex hindex a.bytes
    refine ⟨ids, hids, ?_⟩
    rw [hlists.mem_iff, howner, Table.row_map, hrow, Option.map_some]
    constructor
    · rintro ⟨r, hr, hvalue⟩
      cases hr
      exact Address.bytes_inj.1 (Option.some.inj (Except.ok.inj hvalue)).symm
    · rintro rfl
      exact ⟨_, rfl, rfl⟩

/-- Whoever a blog is handed to is found as its owner.  The step is followed to its snapshot, where
the row of the blog has the address that was read from the text. -/
theorem Shows.owned_of_handed (h : l.Shows σ)
    (hok : (l.deliver ⟨time, signer, .changeBlogOwner id x⟩).result = .ok outcome) :
    (l.deliver ⟨time, signer, .changeBlogOwner id x⟩).ledger.Owned id x := by
  have hspare : σ.Spare (.changeBlogOwner id x) := fun q hq => by cases q <;> cases hq
  obtain ⟨-, τ, hchange, hshows⟩ := h.deliver_ok hspare hok
  cases hchange with
  | changeBlogOwner id newOwner owner blog valid named row signed =>
    have hrow : (σ.blogs.put id.number (blog.withOwner owner)).row id.number
        = some (blog.withOwner owner) := by
      rw [Table.row_put, if_pos rfl]
    exact hshows.owned hrow named

theorem Owned.congr (h : l.Owned id x)
    (hread : ∀ a, Address.read x = .ok a ↔ Address.read y = .ok a) : l.Owned id y := by
  obtain ⟨⟨blog, hget, howner, hallowed⟩, hfound⟩ := h
  simp only [hread] at howner hallowed hfound
  exact ⟨⟨blog, hget, howner, hallowed⟩, hfound⟩

/-- Texts that are alike are not told apart.  The grammar of addresses is stated with it, as it says
which texts there are. -/
theorem owners_canonical : Grammar ∧ ∀ x y, Alike x y → SameOwner x y := by
  refine ⟨Address.grammar, fun x y h => ?_⟩
  have hread : ∀ a, Address.read x = .ok a ↔ Address.read y = .ok a := fun _ => h.read_eq_ok
  refine ⟨hread, fun _ _ => Transaction.ofJson?_signedAs h, Message.validate_alike h, ?_, ?_⟩
  · rintro l time signer id ⟨a, ha⟩
    exact steps_congr ha ((hread a).1 ha) l time signer id
  · intro l time signer id outcome hreachable hok
    exact (hreachable.shows.owned_of_handed hok).congr hread

/-- The text of an owner in lower case, with blanks around it. -/
def sampleLower : String := " \t" ++ String.ofList (List.replicate 40 'a') ++ "\n"

/-- The same text in upper case and without them. -/
def sampleUpper : String := String.ofList (List.replicate 40 'A')

theorem owners_canonical_sample :
    Alike sampleLower sampleUpper
      ∧ (sample.deliver ⟨⟨300⟩, some sampleOwner, .changeBlogOwner ⟨1⟩ sampleLower⟩).result
        = .ok (.on .updated ⟨1⟩)
      ∧ Grammar ∧ SameOwner sampleLower sampleUpper := by
  have halike : Alike sampleLower sampleUpper := by decide +kernel
  exact ⟨halike, by decide +kernel, owners_canonical.1, owners_canonical.2 _ _ halike⟩

end Ledger

end BlogLedger

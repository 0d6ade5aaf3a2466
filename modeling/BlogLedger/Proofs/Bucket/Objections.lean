import BlogLedger.Proofs.Bucket.Indexed

/-!
# Objections to a request

Everything that can speak against a request is looked at before the first write: the kind of the
record that it brings along, its flaws, and the indexes one after the other; or whether there is a
record to delete.  A request without objections goes through, although it looks at the store again
on the way, and an objection leaves every key as it was.

To say that a failed request writes nothing one needs to know when it fails, and with what.  So the
checks that are spread over a request are collected in one function of the store and the request,
its objection.  That the request answers with the objection means that nothing else speaks against
it later on, in particular no index that is found to disagree.

## Main Definitions

* `Bucket.checkIndexes` — refuse a record that some index rejects.
* `Bucket.objection` — what there is against a request.
* `Bucket.approve` — the changes that a record asks for, unless it is refused.

## Main Results

* `Bucket.changes_verdict` — the change of a record is rejected by the first index that rejects the
  new record, and by nothing else.
* `Bucket.Holds.answer` — a request is answered by the objection to it.
* `Bucket.failed_request_writes_nothing` — a request that fails leaves every key as it was.
-/

namespace BlogLedger.Bucket

/-- Refuse a record that some index rejects; the first one that does is heard.  The order of the
indexes is that of the bucket. -/
def checkIndexes (b : Bucket) (r : Record) : Except Failure Unit :=
  b.indexes.forM fun index => (valueOf index (some r)).map fun _ => ()

/-- Refuse a record for its kind, for its flaws or for an index, in this order.  If several of these
apply, the first one is reported. -/
def checkRecord (b : Bucket) (r : Record) : Except Failure Unit := do
  b.checkKind r
  r.validate
  b.checkIndexes r

/-- What there is against a request.  A creation and a save are judged alike, whatever the number of
the record is. -/
def objection (b : Bucket) (s : KeySpace) : Request → Except Failure Unit
  | .create r | .save _ r => b.checkRecord r
  | .delete id => if b.exists? id s then .ok () else fail (.noRecord b.kind id)

/-- The changes that putting a record in place of an old one asks for, unless it is refused.  It is
the part that a creation and a save have in common; a creation goes through it twice. -/
def approve (b : Bucket) (old : Option Record) (r : Record) : Except Failure (List Change) := do
  b.checkKind r
  r.validate
  b.changes old (some r)

variable {b : Bucket} {t : Table Record} {s : KeySpace} {r : Record} {old : Option Record}
  {id : RecordId} {f : Failure} {request : Request}

/-! ### Verdicts -/

/-- Whether indexes give a record values in a row: the first one that rejects it decides.  That the
old record has values in all of them is needed, since they are asked for as well. -/
theorem mapM_verdict {indexes : List Index}
    (hold : ∀ index ∈ indexes, ∃ value, valueOf index old = .ok value) :
    (indexes.mapM fun index => do
        return (⟨index.name, ← valueOf index old, ← valueOf index (some r)⟩ : Change)).map
          (fun _ => ())
      = indexes.forM fun index => (valueOf index (some r)).map fun _ => () := by
  induction indexes with
  | nil => rfl
  | cons index rest ih =>
    obtain ⟨value, hvalue⟩ := hold index List.mem_cons_self
    have hrest := ih fun other hother => hold other (List.mem_cons_of_mem index hother)
    show _ = (valueOf index (some r)).map (fun _ => ()) >>= fun _ => rest.forM _
    rw [List.mapM_cons, ← hrest, hvalue]
    cases valueOf index (some r) with
    | error f => rfl
    | ok new =>
      -- The first index takes the record, so the others decide.
      generalize (rest.mapM _ : Except Failure (List Change)) = changes
      cases changes <;> rfl

/-- The change of a record is rejected by the first index that rejects the new record, and by
nothing else.  The old record is stored, and so it was taken by every index before. -/
theorem changes_verdict (hold : ∀ r, old = some r → b.Suits r) :
    (b.changes old (some r)).map (fun _ => ()) = b.checkIndexes r := by
  unfold checkIndexes changes
  rw [← mapM_verdict fun index hindex => ⟨_, valueOf_eq fun r hr => (hold r hr).values index hindex⟩]
  generalize (b.indexes.mapM _ : Except Failure (List Change)) = all
  cases all <;> rfl

/-- A record is approved unless there is an objection to it.  The two are computed differently, and
here they are compared step by step. -/
theorem approve_verdict (hold : ∀ r, old = some r → b.Suits r) :
    (b.approve old r).map (fun _ => ()) = b.checkRecord r := by
  unfold approve checkRecord
  rw [← changes_verdict hold]
  cases b.checkKind r with
  | error f => rfl
  | ok _ => cases r.validate <;> rfl

/-- A record that is approved suits the bucket and has no flaws.  So it can be stored, by what is
known of such records. -/
theorem suits_of_approve {changes : List Change} (h : b.approve old r = .ok changes) :
    b.Suits r ∧ r.validate = .ok () := by
  obtain ⟨_, hkind, h⟩ := Except.bind_eq_ok.1 h
  obtain ⟨_, hvalid, hchanges⟩ := Except.bind_eq_ok.1 h
  have hsame : r.kind = b.kind := by
    by_contra hforeign
    rw [checkKind, if_neg hforeign] at hkind
    cases hkind
  exact ⟨⟨hsame, values_of_changes hchanges⟩, hvalid⟩

/-! ### Refused before the first write -/

/-- A record that is not approved is refused by its kind, by its flaws, or by whatever comes next
and asks for the changes.  What comes next is left open, since a save and a creation go on
differently. -/
theorem run_checks_error {α : Type} (h : b.approve old r = .error f) {next : Edit α}
    (hnext : b.changes old (some r) = .error f → next.run s = (.error f, s)) :
    (Edit.ofExcept (b.checkKind r) >>= fun _ => Edit.ofExcept r.validate >>= fun _ => next).run s
      = (.error f, s) := by
  unfold approve at h
  cases hkind : b.checkKind r with
  | error g =>
    rw [hkind] at h
    cases h
    exact Edit.run_bind_error rfl _
  | ok _ =>
    rw [hkind] at h
    rw [Edit.run_ofExcept_bind rfl]
    cases hvalid : r.validate with
    | error g =>
      rw [hvalid] at h
      cases h
      exact Edit.run_bind_error rfl _
    | ok _ =>
      rw [hvalid] at h
      rw [Edit.run_ofExcept_bind rfl]
      exact hnext h

/-- A record that is not approved is refused when it is to be saved, and nothing is written.  The
changes are derived after the old record is read and before the first write. -/
theorem run_save_error (hget : b.get id s = .ok old) (h : b.approve old r = .error f) :
    (b.save id r).run s = (.error f, s) := by
  unfold save
  refine run_checks_error h fun hchanges => ?_
  rw [Edit.run_look_bind hget]
  exact Edit.run_bind_error (congrArg (·, s) hchanges) _

/-- A record that is not approved is refused when it is to be created, and no number is given out.
This is why a creation asks for the changes once before it takes a number. -/
theorem run_create_error (h : b.approve none r = .error f) : (b.create r).run s = (.error f, s) := by
  unfold create
  exact run_checks_error h fun hchanges => Edit.run_bind_error (congrArg (·, s) hchanges) _

/-! ### Answers -/

namespace Holds

/-- A record to be saved is answered by the objection to it.  Either it is approved and stored, or
it is refused at one of the checks. -/
theorem answer_save (h : b.Holds t s) (hb : b.Separated) (id : RecordId) (r : Record) :
    (∃ u, (b.save id r).run s = (.ok (), u) ∧ b.checkRecord r = .ok ())
      ∨ ∃ f, (b.save id r).run s = (.error f, s) ∧ b.checkRecord r = .error f := by
  rw [← approve_verdict (h.suits id.number)]
  cases happroved : b.approve (t.row id.number) r with
  | error f => exact .inr ⟨f, run_save_error (h.get id) happroved, rfl⟩
  | ok changes =>
    obtain ⟨hsuits, hvalid⟩ := suits_of_approve happroved
    obtain ⟨u, hrun, -⟩ := h.run_save hb hsuits hvalid id
    exact .inl ⟨u, hrun, rfl⟩

/-- A record to be created is answered by the objection to it.  The sequence must have a number
left, since it is not among the objections. -/
theorem answer_create (h : b.Holds t s) (hb : b.Separated) (hnext : t.HasNext) (r : Record) :
    (∃ u, (b.create r).run s = (.ok ⟨t.next⟩, u) ∧ b.checkRecord r = .ok ())
      ∨ ∃ f, (b.create r).run s = (.error f, s) ∧ b.checkRecord r = .error f := by
  have hverdict : (b.approve none r).map (fun _ => ()) = b.checkRecord r := approve_verdict nofun
  rw [← hverdict]
  cases happroved : b.approve none r with
  | error f => exact .inr ⟨f, run_create_error happroved, rfl⟩
  | ok changes =>
    obtain ⟨hsuits, hvalid⟩ := suits_of_approve happroved
    obtain ⟨u, hrun, -⟩ := h.run_create hb hnext hsuits hvalid
    exact .inl ⟨u, hrun, rfl⟩

/-- A record to be deleted is deleted if there is one.  Its values are known, as it was taken when
it was stored. -/
theorem answer_delete (h : b.Holds t s) (hb : b.Separated) (id : RecordId) :
    (∃ u, (b.delete id).run s = (.ok (), u) ∧ b.objection s (.delete id) = .ok ())
      ∨ ∃ f, (b.delete id).run s = (.error f, s) ∧ b.objection s (.delete id) = .error f := by
  dsimp only [objection]
  rw [h.exists?_eq]
  cases hrow : t.row id.number with
  | some r =>
    obtain ⟨u, hrun, -⟩ := h.run_delete hb hrow
    exact .inl ⟨u, hrun, rfl⟩
  | none =>
    refine .inr ⟨_, ?_, rfl⟩
    exact Edit.run_bind_error (congrArg (·, s) (h.mustGet_none hrow)) _

/-- A request is answered by the objection to it, and an objection changes nothing.  The case split
is on the three kinds of request. -/
theorem answer (h : b.Holds t s) (hb : b.Separated) (hspare : b.Spare s request) :
    (∃ u, (b.ask request).run s = (.ok (), u) ∧ b.objection s request = .ok ())
      ∨ ∃ f, (b.ask request).run s = (.error f, s) ∧ b.objection s request = .error f := by
  cases request with
  | create r =>
    rcases h.answer_create hb (h.hasNext_iff.1 hspare) r with ⟨u, hrun, hnone⟩ | ⟨f, hrun, hf⟩
    · exact .inl ⟨u, Edit.run_bind_ok hrun _, hnone⟩
    · exact .inr ⟨f, Edit.run_bind_error hrun _, hf⟩
  | save id r => exact h.answer_save hb id r
  | delete id => exact h.answer_delete hb id

end Holds

/-- After all requests, granted or refused, the next one is answered by the objection to it, and if
it fails every key is as it was, that of the last number included.  The requests before make sure
that there is a table; which one it is does not matter. -/
theorem failed_request_writes_nothing (hb : b.Named) (h : b.Reachable s) (request : Request)
    (hspare : b.Spare s request) :
    ((b.ask request).run s).1 = b.objection s request
      ∧ ∀ f, ((b.ask request).run s).1 = .error f → ((b.ask request).run s).2 = s := by
  obtain ⟨t, hholds, -⟩ := h.holds hb.separated
  rcases hholds.answer hb.separated hspare with ⟨u, hrun, hnone⟩ | ⟨f, hrun, hf⟩
  · rw [hrun]
    exact ⟨hnone.symm, nofun⟩
  · rw [hrun]
    exact ⟨hf.symm, fun _ _ => rfl⟩

/-- An article created at a time. -/
def sampleArticle (time : Timestamp) : Record :=
  .article ⟨⟨1⟩, ⟨List.replicate 20 2, rfl⟩, "First Frost", "It was cold.", time, none, none⟩

/-- An article is created. -/
def sampleArticles : KeySpace := ((articles.ask (.create (sampleArticle ⟨100⟩))).run .empty).2

/-- The first index takes the article with the early time, and the second one rejects it. -/
theorem failed_request_writes_nothing_sample :
    articles.Named ∧ articles.Reachable sampleArticles
      ∧ articles.Spare sampleArticles (.save ⟨1⟩ (sampleArticle ⟨-10⟩))
      ∧ (sampleArticles.get articles.sequenceKey).isSome
      ∧ articles.objection sampleArticles (.save ⟨1⟩ (sampleArticle ⟨-10⟩))
        = fail (.index (.negativeTime ⟨-10⟩))
      ∧ ((articles.ask (.save ⟨1⟩ (sampleArticle ⟨-10⟩))).run sampleArticles).2
        = sampleArticles := by
  have hindex : ∀ index ∈ articles.indexes, IsPlainName index.name := by
    intro index hmem
    rcases List.mem_cons.1 hmem with rfl | hmem
    · decide
    · obtain rfl := List.mem_singleton.1 hmem
      decide
  have hnamed : articles.Named := ⟨by decide, hindex, by decide⟩
  have hspare : articles.HasNext .empty := by
    unfold HasNext
    rw [KeySpace.get_empty]
    exact nofun
  have hreached : articles.Reachable sampleArticles :=
    .ask .empty (.create (sampleArticle ⟨100⟩)) hspare
  have hobjection : articles.objection sampleArticles (.save ⟨1⟩ (sampleArticle ⟨-10⟩))
      = fail (.index (.negativeTime ⟨-10⟩)) := by
    decide +kernel
  obtain ⟨hanswer, hsame⟩ := failed_request_writes_nothing hnamed hreached
    (.save ⟨1⟩ (sampleArticle ⟨-10⟩)) trivial
  exact ⟨hnamed, hreached, trivial, by decide +kernel, hobjection,
    hsame _ (hanswer.trans hobjection)⟩

end BlogLedger.Bucket

import BlogLedger.Proofs.Bucket.Keys
import BlogLedger.Proofs.Failure

/-!
# Requests to a bucket

A bucket is asked for changes, and grants or refuses each one.  A refused request leaves every key as
it was, since all index values are derived before anything is written.

## Main Definitions

* `Bucket.Request`, `Bucket.ask` — a change that is asked for, and the edit that makes it.
* `Bucket.Refusal` — why a request is refused.
* `Bucket.HasNext` — the sequence of a bucket has a number left.
* `Bucket.Reachable` — requests in a row lead here from an empty key space.

## Main Results

* `Bucket.Holds.ask` — a request changes the table as it says, or it is refused and changes nothing.
* `Bucket.Reachable.holds` — a bucket always holds a table, and there are no other keys.
-/

namespace BlogLedger.Bucket

open KeySpace (Confined)

/-- A change that a bucket is asked for.  The three kinds are all that write to a bucket. -/
inductive Request where
  | create (r : Record)
  | save (id : RecordId) (r : Record)
  | delete (id : RecordId)

/-- The record that a request brings along, if there is one.  A deletion brings none. -/
def Request.record? : Request → Option Record
  | .create r | .save _ r => some r
  | .delete _ => none

/-- What a request does to the records, if it is granted.  On tables it is total, and whether it is
granted is another question. -/
def Request.apply (t : Table Record) : Request → Table Record
  | .create r => t.add r
  | .save id r => t.put id.number r
  | .delete id => t.drop id.number

/-- Make the change that is asked for.  The number of a new record is not given back, as it can be
told from the table. -/
def ask (b : Bucket) : Request → Edit Unit
  | .create r => do
    let _ ← b.create r
  | .save id r => b.save id r
  | .delete id => b.delete id

/-- Why a request is refused: its record is of another kind, has flaws or is rejected by an index,
or there is no record to delete. -/
inductive Refusal (b : Bucket) : Request → Failure → Prop where
  | kind {request : Request} (r : Record) (asked : request.record? = some r)
      (foreign : r.kind ≠ b.kind) : Refusal b request (.of (.foreignKind b.name b.kind r.kind))
  | flawed {request : Request} {f : Failure} (r : Record) (asked : request.record? = some r)
      (invalid : r.validate = .error f) : Refusal b request f
  | rejected {request : Request} (r : Record) (index : Index) (fault : IndexFault)
      (asked : request.record? = some r) (mem : index ∈ b.indexes)
      (value : index.value r = .error fault) : Refusal b request (.of (.index fault))
  | missing (id : RecordId) : Refusal b (.delete id) (.of (.noRecord b.kind id))

/-- The sequence of a bucket has a number left: it has not given out the last one that fits in 64
bits.  It is a condition on one key of the store. -/
def HasNext (b : Bucket) (s : KeySpace) : Prop :=
  s.get b.sequenceKey ≠ some (Bytes.big64 (UInt64.ofNat (UInt64.size - 1)))

/-- A request finds the number that it takes.  Only a creation takes one. -/
def Spare (b : Bucket) (s : KeySpace) : Request → Prop
  | .create _ => b.HasNext s
  | _ => True

/-- Requests in a row, granted or refused, lead from an empty key space without layers to this one.
Nobody else writes to it, so all of its keys are those of the bucket. -/
inductive Reachable (b : Bucket) : KeySpace → Prop where
  | empty : Reachable b .empty
  | ask {s : KeySpace} (before : Reachable b s) (request : Request) (spare : b.Spare s request) :
    Reachable b ((b.ask request).run s).2

variable {b : Bucket} {t : Table Record} {s : KeySpace} {r : Record}

/-! ### Index values -/

/-- The change of a record is rejected only by an index that rejects the new record.  It gives the
index and its fault, where the verdict gives only the answer. -/
theorem changes_error {old new : Option Record} (hold : ∀ r, old = some r → b.Suits r) {f : Failure}
    (h : b.changes old new = .error f) :
    ∃ index ∈ b.indexes, ∃ r fault, new = some r ∧ index.value r = .error fault
      ∧ f = .of (.index fault) := by
  unfold changes at h
  cases hall : (b.indexes.mapM fun index => do
      return (⟨index.name, ← valueOf index old, ← valueOf index new⟩ : Change)) with
  | ok all =>
    rw [hall] at h
    cases h
  | error f' =>
    rw [hall] at h
    cases h
    obtain ⟨index, hindex, herror⟩ := Except.exists_error_of_mapM hall
    rw [valueOf_eq fun r hr => (hold r hr).values index hindex] at herror
    refine ⟨index, hindex, ?_⟩
    cases new with
    | none => cases herror
    | some r =>
      refine ⟨r, ?_⟩
      cases hvalue : index.value r with
      | ok value =>
        have hof : valueOf index (some r) = .ok value := by
          simp only [valueOf, Indexer.ofOption, hvalue]
        rw [hof] at herror
        cases herror
      | error fault =>
        have hof : valueOf index (some r) = fail (.index fault) := by
          simp only [valueOf, Indexer.ofOption, hvalue]
        rw [hof] at herror
        cases herror
        exact ⟨fault, rfl, rfl, rfl⟩

/-- A record that can take the place of an old one is taken by every index.  The changes cannot be
computed otherwise. -/
theorem values_of_changes {old : Option Record} {changes : List Change}
    (h : b.changes old (some r) = .ok changes) :
    ∀ index ∈ b.indexes, index.value r = .ok (valueIn index r) := by
  intro index hindex
  unfold Bucket.changes at h
  obtain ⟨all, hall, -⟩ := Except.bind_eq_ok.1 h
  obtain ⟨change, -, hchange⟩ := Except.exists_mem_of_mapM hall hindex
  obtain ⟨oldValue, -, hrest⟩ := Except.bind_eq_ok.1 hchange
  obtain ⟨newValue, hnew, -⟩ := Except.bind_eq_ok.1 hrest
  unfold valueIn
  cases hvalue : index.value r with
  | ok value => rfl
  | error fault =>
    simp only [valueOf, Indexer.ofOption, hvalue, fail] at hnew
    cases hnew

/-! ### One request -/

/-- A record that is brought along is refused for its kind, for its flaws or by an index, in this
order, unless it suits the bucket and has no flaws.  It covers saving and creating, and so the
checks are looked at once. -/
theorem suits_or_refused (request : Request) (asked : request.record? = some r)
    (old : Option Record) (hold : ∀ r, old = some r → b.Suits r) :
    (b.Suits r ∧ r.validate = .ok ()) ∨ ∃ f, b.Refusal request f ∧ (b.checkKind r = .error f
      ∨ b.checkKind r = .ok () ∧ (r.validate = .error f
        ∨ r.validate = .ok () ∧ b.changes old (some r) = .error f)) := by
  by_cases hkind : r.kind = b.kind
  · have hchecked := checkKind_eq hkind
    cases hvalid : r.validate with
    | error f => exact .inr ⟨f, .flawed r asked hvalid, .inr ⟨hchecked, .inl rfl⟩⟩
    | ok _ =>
      cases hchanges : b.changes old (some r) with
      | ok changes => exact .inl ⟨⟨hkind, values_of_changes hchanges⟩, rfl⟩
      | error f =>
        obtain ⟨index, hindex, r', fault, hr, hvalue, rfl⟩ := changes_error hold hchanges
        cases hr
        exact .inr ⟨_, .rejected r index fault asked hindex hvalue,
          .inr ⟨hchecked, .inr ⟨rfl, rfl⟩⟩⟩
  · exact .inr ⟨_, .kind r asked hkind, .inl (if_neg hkind)⟩

namespace Holds

/-- A record is saved, or it is refused before anything is written.  A refused save leaves the key
space as it was, and not only the keys of the bucket. -/
theorem save_or_refused (h : b.Holds t s) (hb : b.Separated) (id : RecordId) (r : Record) :
    (∃ u, (b.save id r).run s = (.ok (), u) ∧ Confined b.starts s u
        ∧ b.Holds (t.put id.number r) u)
      ∨ ∃ f, (b.save id r).run s = (.error f, s) ∧ b.Refusal (.save id r) f := by
  rcases suits_or_refused (.save id r) rfl (t.row id.number) (h.suits id.number)
    with ⟨hsuits, hvalid⟩ | ⟨f, hrefusal, hkind | ⟨hkind, hflawed | ⟨hvalid, hchanges⟩⟩⟩
  · exact .inl (h.run_save hb hsuits hvalid id)
  all_goals
    refine .inr ⟨f, ?_, hrefusal⟩
    unfold Bucket.save
  · exact Edit.run_bind_error (by rw [Edit.run_ofExcept, hkind]) _
  · rw [Edit.run_ofExcept_bind hkind]
    exact Edit.run_bind_error (by rw [Edit.run_ofExcept, hflawed]) _
  · rw [Edit.run_ofExcept_bind hkind, Edit.run_ofExcept_bind hvalid, Edit.run_look_bind (h.get id)]
    exact Edit.run_bind_error (by rw [Edit.run_ofExcept, hchanges]) _

/-- A record is created, or it is refused before a number is given out.  The save inside a creation
cannot fail any more, since all checks were made before. -/
theorem create_or_refused (h : b.Holds t s) (hb : b.Separated) (hnext : t.HasNext) (r : Record) :
    (∃ u, (b.create r).run s = (.ok ⟨t.next⟩, u) ∧ Confined b.starts s u ∧ b.Holds (t.add r) u)
      ∨ ∃ f, (b.create r).run s = (.error f, s) ∧ b.Refusal (.create r) f := by
  rcases suits_or_refused (.create r) rfl none nofun
    with ⟨hsuits, hvalid⟩ | ⟨f, hrefusal, hkind | ⟨hkind, hflawed | ⟨hvalid, hchanges⟩⟩⟩
  · exact .inl (h.run_create hb hnext hsuits hvalid)
  all_goals
    refine .inr ⟨f, ?_, hrefusal⟩
    unfold Bucket.create
  · exact Edit.run_bind_error (by rw [Edit.run_ofExcept, hkind]) _
  · rw [Edit.run_ofExcept_bind hkind]
    exact Edit.run_bind_error (by rw [Edit.run_ofExcept, hflawed]) _
  · rw [Edit.run_ofExcept_bind hkind, Edit.run_ofExcept_bind hvalid]
    exact Edit.run_bind_error (by rw [Edit.run_ofExcept, hchanges]) _

/-- A record is deleted, or there is none.  A record that is there always reads back, and its
entries are found. -/
theorem delete_or_refused (h : b.Holds t s) (hb : b.Separated) (id : RecordId) :
    (∃ u, (b.delete id).run s = (.ok (), u) ∧ Confined b.starts s u
        ∧ b.Holds (t.drop id.number) u)
      ∨ ∃ f, (b.delete id).run s = (.error f, s) ∧ b.Refusal (.delete id) f := by
  cases hrow : t.row id.number with
  | some r => exact .inl (h.run_delete hb hrow)
  | none =>
    refine .inr ⟨_, ?_, .missing id⟩
    unfold Bucket.delete
    exact Edit.run_bind_error (by rw [Edit.run_look, h.mustGet_none hrow]; rfl) _

/-- The sequence has a number left exactly when the table has.  The one looks at the key, and the
other at the last number. -/
theorem hasNext_iff (h : b.Holds t s) : b.HasNext s ↔ t.HasNext := by
  unfold Bucket.HasNext
  rw [h.sequence.get, Table.hasNext_iff]

/-- A request changes the table as it says and stays within the keys of the bucket, or it is refused
and changes nothing.  It is the step of every induction over requests. -/
theorem ask (h : b.Holds t s) (hb : b.Separated) {request : Request}
    (hspare : b.Spare s request) :
    (∃ u, (b.ask request).run s = (.ok (), u) ∧ Confined b.starts s u
        ∧ b.Holds (request.apply t) u)
      ∨ ∃ f, (b.ask request).run s = (.error f, s) ∧ b.Refusal request f := by
  cases request with
  | create r =>
    rcases h.create_or_refused hb (h.hasNext_iff.1 hspare) r with ⟨u, hrun, hu⟩ | ⟨f, hrun, hf⟩
    · exact .inl ⟨u, Edit.run_bind_ok hrun _, hu⟩
    · exact .inr ⟨f, Edit.run_bind_error hrun _, hf⟩
  | save id r => exact h.save_or_refused hb id r
  | delete id => exact h.delete_or_refused hb id

end Holds

/-! ### Requests in a row -/

/-- What requests lead to holds a table, and nothing stands under other keys.  The induction goes
along the requests, and each of them is the step above. -/
theorem Reachable.holds (h : b.Reachable s) (hb : b.Separated) :
    ∃ t, b.Holds t s ∧ Confined b.starts .empty s := by
  induction h with
  | empty => exact ⟨.empty, .empty b, .refl _ _⟩
  | ask before request spare ih =>
    obtain ⟨t, hholds, hconf⟩ := ih
    rcases hholds.ask hb spare with ⟨u, hrun, hu, hafter⟩ | ⟨f, hrun, -⟩
    · rw [hrun]
      exact ⟨_, hafter, hconf.trans hu⟩
    · rw [hrun]
      exact ⟨t, hholds, hconf⟩

end BlogLedger.Bucket

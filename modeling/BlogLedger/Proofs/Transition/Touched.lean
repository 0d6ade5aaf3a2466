import BlogLedger.Proofs.Failure
import BlogLedger.Proofs.KeySpace.Direct
import BlogLedger.Proofs.Snapshot.Stored

/-!
# What edits write to

An edit that fails halfway leaves behind the writes that it has made.  Whatever the store holds, a
bucket and the schedule write to keys of their own and to no other ones, in success and in failure.

On a sound store an edit is known by what it leaves behind, and `Bucket.Holds` and its like say
which keys that takes.  An edit that fails, or one on a store whose content makes no sense, is not
known in this way: how far it got depends on what it met.  What can be said of it is where it may
write, and that needs no assumption at all.  `Edit.Touches` is this statement, closed under the
combinators that edits are written with, so each edit is followed line by line and no line asks what
the store holds.

The parts of a ledger do not disturb each other for this reason, and neither does a fired task that
fails after its first writes.

## Main Definitions

* `Edit.Touches` — an edit writes to keys with given starts and to no other ones.

## Main Results

* `Edit.Touches.confined` — what an edit touches is all that it changes.
* `Bucket.touches_create`, `Bucket.touches_save`, `Bucket.touches_delete` — a bucket writes to its own
  keys.
* `Schedule.touches_add`, `Schedule.touches_take`, `Schedule.touches_cancel` — so does the schedule.
* `Handler.touches_fireDeletion` — a deletion that is fired writes to the keys of articles.
-/

namespace BlogLedger

open Bytes (Under)

/-- Writes to keys with given starts are confined to them.  The induction is on the writes in the
order in which they are made, so a later write to the same key is covered. -/
theorem KeySpace.Confined.apply {starts : List Bytes} {writes : Batch}
    (h : ∀ o ∈ writes, Under starts o.key) (s : KeySpace) : Confined starts s (writes.apply s) := by
  induction writes generalizing s with
  | nil => exact .refl _ s
  | cons o rest ih =>
    obtain ⟨ho, hrest⟩ := List.forall_mem_cons.1 h
    refine .trans ⟨parent?_apply [o] s, fun key hkey => ?_⟩ (ih hrest (o.apply s))
    show (o.apply s).get key = s.get key
    rw [o.get_apply, if_neg]
    rintro rfl
    exact hkey ho

namespace Edit

variable {α β : Type} {e : Edit α} {starts : List Bytes} {key : Bytes}

/-- Whether it succeeds or fails, an edit comes to writes in a row, each to a key that starts with
one of the given byte strings.  The writes are named and not only their effect: a layer keeps a
write that changes nothing, and such a write is pending too. -/
def Touches (starts : List Bytes) (e : Edit α) : Prop :=
  ∀ s, ∃ writes : Batch, (∀ o ∈ writes, Under starts o.key) ∧ (e.run s).2 = writes.apply s

namespace Touches

theorem pure (a : α) : (Pure.pure a : Edit α).Touches starts :=
  fun _ => ⟨[], List.forall_mem_nil _, rfl⟩

theorem look (f : KeySpace → Except Failure α) : (Edit.look f).Touches starts :=
  fun _ => ⟨[], List.forall_mem_nil _, rfl⟩

theorem ofExcept (r : Except Failure α) : (Edit.ofExcept r).Touches starts :=
  fun _ => ⟨[], List.forall_mem_nil _, rfl⟩

theorem set (h : Under starts key) (value : Bytes) :
    (Edit.write (·.set key value)).Touches starts :=
  fun _ => ⟨[.set key value], List.forall_mem_singleton.2 h, rfl⟩

theorem delete (h : Under starts key) : (Edit.write (·.delete key)).Touches starts :=
  fun _ => ⟨[.delete key], List.forall_mem_singleton.2 h, rfl⟩

theorem bind {next : α → Edit β} (he : e.Touches starts) (hnext : ∀ a, (next a).Touches starts) :
    (e >>= next).Touches starts := by
  intro s
  obtain ⟨first, hfirst, hs⟩ := he s
  rw [run_bind]
  rcases hrun : e.run s with ⟨f | a, t⟩
  · rw [hrun] at hs
    exact ⟨first, hfirst, hs⟩
  · rw [hrun] at hs
    obtain ⟨second, hsecond, ht⟩ := hnext a t
    refine ⟨first ++ second, List.forall_mem_append.2 ⟨hfirst, hsecond⟩, ?_⟩
    rw [Batch.apply_append, ← hs]
    exact ht

/-- What comes after a result is asked only for that result.  A bind in general asks it for every
value, and then nothing would be known of the changes that an edit has computed before it makes
them. -/
theorem ofExcept_bind {r : Except Failure α} {next : α → Edit β}
    (hnext : ∀ a, r = .ok a → (next a).Touches starts) :
    (Edit.ofExcept r >>= next).Touches starts := by
  cases r with
  | error f => exact fun s => ⟨[], List.forall_mem_nil _, rfl⟩
  | ok a => exact hnext a rfl

/-- Nothing changes under other keys, whether the edit succeeds or fails.  It is the form in which
other parts of the store are shown to be as they were. -/
theorem confined (h : e.Touches starts) (s : KeySpace) :
    KeySpace.Confined starts s (e.run s).2 := by
  obtain ⟨writes, hwrites, hrun⟩ := h s
  rw [hrun]
  exact .apply hwrites s

/-- On a new layer nothing but the writes of the edit is pending.  A commit therefore writes to the
keys of the edit alone, even if the edit was stopped in the middle. -/
theorem under_pending (h : e.Touches starts) (s : KeySpace) :
    ∀ o ∈ (e.run s.cover).2.pending, Under starts o.key := by
  obtain ⟨writes, hwrites, hrun⟩ := h s.cover
  rw [hrun]
  intro o ho
  have hkey : o.key ∈ (writes.apply s.cover).touched := List.mem_map.2 ⟨o, ho, rfl⟩
  rcases (KeySpace.mem_touched_apply (u := s) rfl).1 hkey with hkey | hkey
  · obtain ⟨o', ho', hsame⟩ := List.mem_map.1 hkey
    rw [← hsame]
    exact hwrites o' ho'
  · cases hkey

end Touches

end Edit

namespace Bucket

variable (b : Bucket) (id : RecordId) {starts : List Bytes} {index : String}

theorem touches_addRef (h : b.indexStart index ∈ starts) (value : Bytes) :
    (b.addRef id index value).Touches starts :=
  .bind (.look _) fun _ => .set ⟨_, h, List.prefix_append _ _⟩ _

theorem touches_removeRef (h : b.indexStart index ∈ starts) (value : Bytes) :
    (b.removeRef id index value).Touches starts := by
  have hunder : Under starts (b.indexKey index value) := ⟨_, h, List.prefix_append _ _⟩
  refine .bind (.look _) fun ids => ?_
  cases IdList.remove? id ids with
  | none => exact .ofExcept _
  | some rest =>
    cases rest with
    | nil => exact .delete hunder
    | cons _ _ => exact .set hunder _

theorem touches_applyChanges {changes : List Change}
    (h : ∀ c ∈ changes, b.indexStart c.index ∈ starts) :
    (b.applyChanges id changes).Touches starts := by
  induction changes with
  | nil => exact .pure _
  | cons c rest ih =>
    obtain ⟨hfirst, hrest⟩ := List.forall_mem_cons.1 h
    have hadded : ∀ value,
        (b.addRef id c.index value >>= fun _ => b.applyChanges id rest).Touches starts :=
      fun value => .bind (b.touches_addRef id hfirst value) fun _ => ih hrest
    unfold applyChanges
    cases c.old with
    | none =>
      cases c.new with
      | none => exact ih hrest
      | some value => exact hadded value
    | some value =>
      refine .bind (b.touches_removeRef id hfirst value) fun _ => ?_
      cases c.new with
      | none => exact ih hrest
      | some value => exact hadded value

/-- Changes are asked of the indexes of the bucket, so the keys that they lead to begin with the
start of one of these.  The names come from a computation that can fail, which is why this is a
lemma and not a matter of unfolding. -/
theorem index_of_changes {old new : Option Record} {changes : List Change}
    (h : b.changes old new = .ok changes) :
    ∀ c ∈ changes, b.indexStart c.index ∈ b.starts := by
  intro c hc
  unfold Bucket.changes at h
  obtain ⟨all, hall, hchanges⟩ := Except.bind_eq_ok.1 h
  cases hchanges
  obtain ⟨index, hindex, hchange⟩ := (Except.mem_mapM_iff hall).1 (List.mem_filter.1 hc).1
  obtain ⟨oldValue, -, hchange⟩ := Except.bind_eq_ok.1 hchange
  obtain ⟨newValue, -, hchange⟩ := Except.bind_eq_ok.1 hchange
  cases hchange
  exact List.mem_cons_of_mem _ (List.mem_cons_of_mem _ (List.mem_map.2 ⟨index, hindex, rfl⟩))

theorem under_recordKey : Under b.starts (b.recordKey id) :=
  ⟨b.recordStart, List.mem_cons_self, List.prefix_append _ _⟩

theorem under_sequenceKey : Under b.starts b.sequenceKey :=
  ⟨_, List.mem_cons_of_mem _ List.mem_cons_self, List.prefix_rfl⟩

/-- A record that is saved is written to the keys of its bucket: under its number, and under the
values of its indexes, old and new. -/
theorem touches_save (r : Record) : (b.save id r).Touches b.starts := by
  refine .bind (.ofExcept _) fun _ => .bind (.ofExcept _) fun _ => .bind (.look _) fun old => ?_
  refine .ofExcept_bind fun changes hchanges => .bind (.set (b.under_recordKey id) _) fun _ => ?_
  exact b.touches_applyChanges id (b.index_of_changes hchanges)

theorem touches_nextId : b.nextId.Touches b.starts :=
  .bind (.look _) fun _ => .bind (.set b.under_sequenceKey _) fun _ => .pure _

/-- A record that is created is written to the keys of its bucket; the sequence that its number
comes from is one of them. -/
theorem touches_create (r : Record) : (b.create r).Touches b.starts := by
  refine .bind (.ofExcept _) fun _ => .bind (.ofExcept _) fun _ => .bind (.ofExcept _) fun _ => ?_
  exact .bind b.touches_nextId fun id => .bind (b.touches_save id r) fun _ => .pure _

/-- A deletion writes to the keys of its bucket, also when an index does not list the record and the
deletion fails there. -/
theorem touches_delete : (b.delete id).Touches b.starts := by
  refine .bind (.look _) fun old => .ofExcept_bind fun changes hchanges => ?_
  exact .bind (.delete (b.under_recordKey id)) fun _ =>
    b.touches_applyChanges id (b.index_of_changes hchanges)

end Bucket

namespace Schedule

theorem under_sequenceKey : Under starts sequenceKey := ⟨_, by simp [starts], List.prefix_rfl⟩

theorem under_taskKey (id : TaskId) : Under starts (taskKey id) :=
  ⟨taskStart, by simp [starts], List.prefix_append _ _⟩

theorem under_queueKey (runAt : Timestamp) (id : TaskId) : Under starts (queueKey runAt id) :=
  ⟨queueStart, by simp [starts], queueStart_le_queueKey runAt id⟩

/-- A message that is scheduled is written to the keys of the schedule: the sequence, the task and
its place in the queue. -/
theorem touches_add (runAt : Timestamp) (message : Message) :
    (add runAt message).Touches starts := by
  have hnext : nextId.Touches starts :=
    .bind (.look _) fun _ => .bind (.set under_sequenceKey _) fun _ => .pure _
  refine .bind (.ofExcept _) fun _ => .bind hnext fun id => ?_
  exact .bind (.set (under_taskKey id) _) fun _ => .bind (.set (under_queueKey runAt id) _) fun _ =>
    .pure _

/-- Taking a task out removes keys of the schedule. -/
theorem touches_take (id : TaskId) : (take id).Touches starts := by
  refine .bind (.look _) fun found => ?_
  cases found with
  | none => exact .pure _
  | some task =>
    refine .bind (.delete (under_taskKey id)) fun _ => .bind (.ofExcept _) fun _ => ?_
    exact .bind (.delete (under_queueKey task.runAt id)) fun _ => .pure _

theorem touches_cancel (id : TaskId) : (cancel id).Touches starts := by
  refine .bind (touches_take id) fun taken => ?_
  cases taken with
  | none => exact .ofExcept _
  | some _ => exact .pure _

end Schedule

/-- A deletion that is fired writes to the keys of articles.  It may fail after the article is gone
and before the second index has been cleaned, and what it leaves then is still within these keys. -/
theorem Handler.touches_fireDeletion (ctx : Context) (m : Message) :
    (fireDeletion ctx m).Touches Part.articles.starts := by
  refine .bind (.ofExcept _) fun asked => .bind (.look _) fun found => ?_
  cases found with
  | none => exact .pure _
  | some article =>
    dsimp only
    split
    · exact .pure _
    · exact .bind (Bucket.articles.touches_delete _) fun _ => .pure _

end BlogLedger

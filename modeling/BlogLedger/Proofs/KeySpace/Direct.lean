import BlogLedger.Proofs.KeySpace.Layers
import Mathlib.Logic.Function.Iterate

/-!
# Layers and direct writes

Writes on a layer are kept back, and yet every read answers as if they had been made on what lies
below.  Committing the layer makes them there, so that afterwards nothing tells a key space that was
written through a layer from one that was written directly.

## Main Definitions

* `KeySpace.Alike` — two key spaces answer every read alike.
* `KeySpace.commit` — make the pending writes of the uppermost layer on what it lies on.
* `KeySpace.Buffered` — a layer with writes on it stands for those writes.

## Main Results

* `Op.apply_comm`, `Op.apply_absorb` — writes to different keys commute, and the later one of two
  writes to one key wins.
* `KeySpace.pending_apply` — a write is the last one of its layer.
* `KeySpace.perm_pending_apply` — the batch of a layer holds exactly the writes that were made.
* `KeySpace.commit_apply_cover` — committing a layer is writing directly.
* `KeySpace.commit_iterate` — committing every layer gives what the uppermost one showed.
* `KeySpace.layered_as_direct` — a layer is as good as direct writes.

## Design Notes

Reads leave a key space as it is, so a read between two writes is a read after the writes before it,
and a statement about all lists of writes is one about every mixture of reads and writes.
-/

namespace BlogLedger

/-! ### Writes -/

namespace Op

/-- The key that is written to.  A write has one key, and it is what decides whether two writes can
be exchanged. -/
def key : Op → Bytes
  | .set key _ => key
  | .delete key => key

/-- The value that is written; a removal writes none.  With it the two kinds of writes need no case
split. -/
def value? : Op → Option Bytes
  | .set _ value => some value
  | .delete _ => none

@[simp] theorem op_key_value? (o : Op) : KeySpace.op (o.key, o.value?) = o := by
  cases o <;> rfl

@[simp] theorem key_op (e : Bytes × Option Bytes) : (KeySpace.op e).key = e.1 := by
  obtain ⟨key, _ | value⟩ := e <;> rfl

theorem apply_base (o : Op) (m : ByteMap Bytes) :
    o.apply (.base m) = .base (KeySpace.settle m (o.key, o.value?)) := by
  cases o <;> rfl

theorem apply_layer (o : Op) (parent : KeySpace) (writes : ByteMap (Option Bytes)) :
    o.apply (.layer parent writes) = .layer parent (writes.insert o.key o.value?) := by
  cases o <;> rfl

/-- After a write the written key holds what was written and no other key changes.  All reads follow
from this. -/
theorem get_apply (o : Op) (s : KeySpace) (key : Bytes) :
    (o.apply s).get key = if o.key = key then o.value? else s.get key := by
  have h := KeySpace.get_apply_op s (o.key, o.value?) key
  rwa [op_key_value?] at h

/-- Writes to different keys commute.  It is an equation between key spaces and not only between
reads, since later layers are built on them. -/
theorem apply_comm {a b : Op} (h : a.key ≠ b.key) (s : KeySpace) :
    b.apply (a.apply s) = a.apply (b.apply s) := by
  have hkeys : ∀ key, ¬ (a.key = key ∧ b.key = key) := fun key hk => h (hk.1.trans hk.2.symm)
  cases s with
  | base m =>
    simp only [apply_base, KeySpace.base.injEq]
    refine ByteMap.ext_find? fun key => ?_
    simp only [KeySpace.find?_settle]
    grind
  | layer parent writes =>
    simp only [apply_layer, KeySpace.layer.injEq, true_and]
    refine ByteMap.ext_find? fun key => ?_
    simp only [ByteMap.find?_insert]
    grind

/-- The later one of two writes to one key wins.  Nothing of the earlier one is left, also on a
layer. -/
theorem apply_absorb {a b : Op} (h : a.key = b.key) (s : KeySpace) :
    b.apply (a.apply s) = b.apply s := by
  cases s with
  | base m =>
    simp only [apply_base, KeySpace.base.injEq]
    refine ByteMap.ext_find? fun key => ?_
    simp only [KeySpace.find?_settle, h]
    split <;> rfl
  | layer parent writes =>
    simp only [apply_layer, KeySpace.layer.injEq, true_and]
    refine ByteMap.ext_find? fun key => ?_
    simp only [ByteMap.find?_insert, h]
    split <;> rfl

end Op

namespace KeySpace

variable {s t u : KeySpace}

/-! ### Reads -/

/-- Two key spaces answer every read alike.  There are four kinds of reads, and they need not have
the same layers. -/
structure Alike (s t : KeySpace) : Prop where
  get : ∀ key, s.get key = t.get key
  has : ∀ key, s.has key = t.has key
  range : ∀ start stop, s.range start stop = t.range start stop
  scan : ∀ start, s.scan start = t.scan start

/-- Every read is determined by the reads of single keys.  It leaves one of the four kinds to be
looked at. -/
theorem alike_of_get (h : ∀ key, s.get key = t.get key) : Alike s t := by
  have hrange : ∀ start stop, s.range start stop = t.range start stop := fun start stop =>
    ByteMap.ext_find? fun key => by rw [find?_range, find?_range, h key]
  exact ⟨h, fun key => congrArg Option.isSome (h key), hrange, fun start => hrange start _⟩

/-- One write keeps key spaces alike, whatever layers they have. -/
theorem Alike.apply_op (h : Alike s t) (o : Op) : Alike (o.apply s) (o.apply t) := by
  refine alike_of_get fun key => ?_
  rw [o.get_apply, o.get_apply, h.get]

/-- Writes in a row keep key spaces alike. -/
theorem Alike.apply (h : Alike s t) (writes : Batch) :
    Alike (writes.apply s) (writes.apply t) := by
  induction writes generalizing s t with
  | nil => exact h
  | cons o rest ih => exact ih (h.apply_op o)

/-- A range that ends before it starts is empty.  On layers a range is put together from two, and
this must not bring anything in. -/
theorem range_of_le {start stop : Bytes} (h : stop ≤ start) (s : KeySpace) :
    s.range start (some stop) = .empty := by
  refine ByteMap.ext_find? fun key => ?_
  have hout : ¬ ByteMap.inRange start (some stop) key = true := by
    intro hin
    simp only [ByteMap.inRange, Option.all_some, Bool.and_eq_true, decide_eq_true_eq] at hin
    exact List.not_lt.2 h (Std.lt_of_le_of_lt hin.1 hin.2)
  rw [find?_range, if_neg hout]
  rfl

/-! ### Committing one layer -/

/-- Make the pending writes of the uppermost layer on what it lies on.  Without a layer there is
nothing to make. -/
def commit : KeySpace → KeySpace
  | .base entries => .base entries
  | .layer parent writes => (pending (.layer parent writes)).apply parent

/-- A write can be made before writes to other keys.  It is the exchange of two writes, as often as
needed. -/
theorem apply_map_op {entries : List (Bytes × Option Bytes)} {o : Op}
    (h : ∀ e ∈ entries, o.key ≠ e.1) (s : KeySpace) :
    Batch.apply (entries.map op) (o.apply s) = o.apply (Batch.apply (entries.map op) s) := by
  induction entries generalizing s with
  | nil => rfl
  | cons head rest ih =>
    obtain ⟨hhead, hrest⟩ := List.forall_mem_cons.1 h
    have hkey : o.key ≠ (op head).key := by rwa [Op.key_op]
    show Batch.apply (rest.map op) ((op head).apply (o.apply s)) = _
    rw [Op.apply_comm hkey, ih hrest]
    rfl

/-- A write that is put among pending ones in key order acts as if it came last.  The pending ones
are sorted, and this is why the order in which they were made is lost without harm. -/
theorem apply_insertEntry {entries : List (Bytes × Option Bytes)} (h : Ascending entries) (o : Op)
    (s : KeySpace) :
    Batch.apply ((ByteMap.insertEntry o.key o.value? entries).map op) s
      = o.apply (Batch.apply (entries.map op) s) := by
  induction entries generalizing s with
  | nil =>
    show (op (o.key, o.value?)).apply s = o.apply s
    rw [Op.op_key_value?]
  | cons head rest ih =>
    obtain ⟨hhead, hrest⟩ := List.pairwise_cons.1 h
    rw [ByteMap.insertEntry]
    split
    · next hlt =>
      -- The write comes first, and none of the others touches its key.
      have hother : ∀ e ∈ head :: rest, o.key ≠ e.1 := by
        intro e he heq
        rcases List.mem_cons.1 he with rfl | he
        · exact List.lt_irrefl _ (heq ▸ hlt)
        · exact List.lt_irrefl _ (heq ▸ List.lt_trans hlt (hhead e he))
      rw [← apply_map_op hother]
      show Batch.apply _ ((op (o.key, o.value?)).apply s) = _
      rw [Op.op_key_value?]
    · split
      · next heq =>
        -- The write takes the place of one to the same key.
        have hother : ∀ e ∈ rest, o.key ≠ e.1 := fun e he hk =>
          List.lt_irrefl _ (hk ▸ heq ▸ hhead e he)
        have hkey : (op head).key = o.key := by rw [Op.key_op, heq]
        show Batch.apply (rest.map op) ((op (o.key, o.value?)).apply s)
          = o.apply (Batch.apply (rest.map op) ((op head).apply s))
        rw [Op.op_key_value?, ← apply_map_op hother, Op.apply_absorb hkey]
      · exact ih hrest _

/-- A write on a layer is the last one of its batch, as far as one can tell from making the batch. -/
theorem pending_apply (h : t.parent? = some u) (o : Op) (s : KeySpace) :
    (o.apply t).pending.apply s = o.apply (t.pending.apply s) := by
  cases t with
  | base m => cases h
  | layer parent writes =>
    rw [Op.apply_layer]
    exact apply_insertEntry writes.ascending o s

/-- The writes of a layer are those that it held before and then those that were made on it.  The
induction is on the writes, and the layer is general. -/
theorem pending_apply_batch (h : t.parent? = some u) (writes : Batch) (s : KeySpace) :
    (writes.apply t).pending.apply s = writes.apply (t.pending.apply s) := by
  induction writes generalizing t with
  | nil => rfl
  | cons o rest ih =>
    have hparent : (o.apply t).parent? = some u := (parent?_apply [o] t).trans h
    have hrest := ih hparent
    rw [pending_apply h] at hrest
    exact hrest

/-- Committing a layer is writing directly.  The key space is the same one as data, and not only to
its reads. -/
theorem commit_apply_cover (writes : Batch) (s : KeySpace) :
    (writes.apply s.cover).pending.apply s = writes.apply s :=
  pending_apply_batch (t := s.cover) rfl writes s

/-! ### Committing every layer -/

/-- How many layers there are.  It is how often a commit has something to do. -/
def depth : KeySpace → Nat
  | .base _ => 0
  | .layer parent _ => parent.depth + 1

@[simp] theorem depth_apply (writes : Batch) (s : KeySpace) :
    (writes.apply s).depth = s.depth := by
  induction writes generalizing s with
  | nil => rfl
  | cons o rest ih =>
    have hop : (o.apply s).depth = s.depth := by
      cases s with
      | base m => rw [Op.apply_base]; rfl
      | layer parent pending => rw [Op.apply_layer]; rfl
    exact (ih _).trans hop

theorem alike_commit (s : KeySpace) : Alike s.commit s := by
  cases s with
  | base m => exact alike_of_get fun _ => rfl
  | layer parent writes => exact alike_of_get fun key => get_apply_pending rfl key

/-- Committing every layer, the uppermost first, leaves a key space without layers that holds
exactly what was shown.  The induction is on the number of layers; each commit leaves all reads as
they were. -/
theorem commit_iterate (s : KeySpace) : commit^[s.depth] s = .base (s.range [] none) := by
  generalize hdepth : s.depth = n
  induction n generalizing s with
  | zero =>
    cases s with
    | layer parent writes => cases hdepth
    | base m =>
      have hall : m.between [] none = m := ByteMap.ext_find? fun key => by
        simp [ByteMap.find?_between, ByteMap.inRange]
      show KeySpace.base m = .base (m.between [] none)
      rw [hall]
  | succ n ih =>
    cases s with
    | base m => cases hdepth
    | layer parent writes =>
      have hparent : (commit (.layer parent writes)).depth = n :=
        (depth_apply _ _).trans (Nat.succ.inj hdepth)
      rw [Function.iterate_succ_apply, ih _ hparent, (alike_commit _).range]

/-! ### The batch of a layer -/

/-- The keys of the batch of a layer, in order. -/
def touched (s : KeySpace) : List Bytes := s.pending.map Op.key

theorem touched_layer (parent : KeySpace) (writes : ByteMap (Option Bytes)) :
    (layer parent writes).touched = writes.entries.map Prod.fst := by
  show (writes.entries.map op).map Op.key = _
  rw [List.map_map]
  exact List.map_congr_left fun e _ => Op.key_op e

/-- The batch of a layer is in key order, so it holds each key once.  A record of the journal never
writes a key twice. -/
theorem touched_ascending (s : KeySpace) : s.touched.Pairwise (· < ·) := by
  cases s with
  | base m => exact .nil
  | layer parent writes =>
    rw [touched_layer, List.pairwise_map]
    exact writes.ascending

theorem mem_touched_layer {parent : KeySpace} {writes : ByteMap (Option Bytes)} {key : Bytes} :
    key ∈ (layer parent writes).touched ↔ (writes.find? key).isSome = true := by
  simp only [touched_layer, List.mem_map, Prod.exists, exists_and_right, exists_eq_right,
    ByteMap.mem_entries_iff, Option.isSome_iff_exists]

/-- A write touches its key and no other one.  That the key was touched before makes no difference. -/
theorem mem_touched_apply_op (h : t.parent? = some u) {o : Op} {key : Bytes} :
    key ∈ (o.apply t).touched ↔ key = o.key ∨ key ∈ t.touched := by
  cases t with
  | base m => cases h
  | layer parent writes =>
    rw [Op.apply_layer, mem_touched_layer, mem_touched_layer, ByteMap.find?_insert]
    by_cases hkey : o.key = key
    · simp [hkey]
    · simp [hkey, Ne.symm hkey]

/-- The batch of a layer touches the keys that were written to and no other ones. -/
theorem mem_touched_apply (h : t.parent? = some u) {writes : Batch} {key : Bytes} :
    key ∈ (writes.apply t).touched ↔ key ∈ writes.map Op.key ∨ key ∈ t.touched := by
  induction writes generalizing t with
  | nil => simp [Batch.apply]
  | cons o rest ih =>
    have hparent : (o.apply t).parent? = some u := (parent?_apply [o] t).trans h
    show key ∈ (Batch.apply rest (o.apply t)).touched ↔ _
    rw [ih hparent, mem_touched_apply_op h, List.map_cons, List.mem_cons]
    exact or_left_comm.trans or_assoc.symm

/-- A write to a key of its own is put among the others.  Up to order, it is one more. -/
theorem perm_insertEntry {β : Type} {key : Bytes} {entries : List (Bytes × β)}
    (h : ∀ e ∈ entries, e.1 ≠ key) (value : β) :
    (ByteMap.insertEntry key value entries).Perm ((key, value) :: entries) := by
  induction entries with
  | nil => exact .refl _
  | cons head rest ih =>
    obtain ⟨hhead, hrest⟩ := List.forall_mem_cons.1 h
    rw [ByteMap.insertEntry]
    split
    · exact .refl _
    · rw [if_neg (Ne.symm hhead)]
      exact ((ih hrest).cons head).trans (.swap _ _ _)

/-- A write to a key of its own is one more in the batch of the layer.  If the key had been written
to before, the earlier write would be gone. -/
theorem perm_pending_apply_op (h : t.parent? = some u) {o : Op} (hnew : o.key ∉ t.touched) :
    (o.apply t).pending.Perm (o :: t.pending) := by
  cases t with
  | base m => cases h
  | layer parent writes =>
    rw [touched_layer] at hnew
    have hother : ∀ e ∈ writes.entries, e.1 ≠ o.key :=
      fun e he hkey => hnew (hkey ▸ List.mem_map.2 ⟨e, he, rfl⟩)
    have hperm := (perm_insertEntry hother o.value?).map op
    rw [List.map_cons, Op.op_key_value?] at hperm
    rw [Op.apply_layer]
    exact hperm

/-- The batch of a layer holds exactly the writes that are made on it, if each has a key of its own.
So the record of such a layer can be named by its writes. -/
theorem perm_pending_apply (h : t.parent? = some u) {writes : Batch}
    (hdistinct : (writes.map Op.key).Nodup) (hnew : ∀ o ∈ writes, o.key ∉ t.touched) :
    (writes.apply t).pending.Perm (t.pending ++ writes) := by
  induction writes generalizing t with
  | nil =>
    rw [List.append_nil]
    exact .refl _
  | cons o rest ih =>
    obtain ⟨hfirst, hrest⟩ := List.nodup_cons.1 hdistinct
    obtain ⟨hnewFirst, hnewRest⟩ := List.forall_mem_cons.1 hnew
    have hparent : (o.apply t).parent? = some u := (parent?_apply [o] t).trans h
    have hothers : ∀ o' ∈ rest, o'.key ∉ (o.apply t).touched := by
      intro o' ho' htouched
      rcases (mem_touched_apply_op h).1 htouched with hsame | hold
      · exact hfirst (hsame ▸ List.mem_map.2 ⟨o', ho', rfl⟩)
      · exact hnewRest o' ho' hold
    exact (ih hparent hrest hothers).trans
      (((perm_pending_apply_op h hnewFirst).append_right rest).trans List.perm_middle.symm)

/-! ### A layer stands for its writes -/

/-- The key space `t` is a layer on `s` that stands for `writes`: until it is committed it shows what
`s` would show after them, and committing it makes them. -/
structure Buffered (s : KeySpace) (writes : Batch) (t : KeySpace) : Prop where
  /-- Every read answers as after the same writes on `s` itself. -/
  alike : Alike t (writes.apply s)
  /-- A range that ends before it starts is empty. -/
  inverted : ∀ start stop, stop ≤ start → t.range start (some stop) = .empty
  /-- What lies below is as it was. -/
  parent : t.parent? = some s
  /-- The batch of the layer, made on `s`, gives the very key space that direct writes give, and
  nothing can be told from what the layer showed. -/
  committed : t.pending.apply s = writes.apply s
  shown : Alike (t.pending.apply s) t
  /-- The batch of this layer is made on the next one, the batch of that one on the one below, and so
  on; in the end a key space without layers holds exactly what the uppermost layer showed. -/
  settled : commit^[t.depth] t = .base (t.range [] none)
  /-- The batch holds the keys that were written to, each once, in ascending order. -/
  ascending : t.touched.Pairwise (· < ·)
  touched : ∀ key, key ∈ t.touched ↔ key ∈ writes.map Op.key

/-- A layer is as good as direct writes.  Whatever a new layer is laid on, and whatever is written
on it, it stands for its writes.  There is no hypothesis: the key space may have layers of its own,
and the writes may repeat keys. -/
theorem layered_as_direct (s : KeySpace) (writes : Batch) :
    Buffered s writes (writes.apply s.cover) where
  alike := (alike_of_get fun key => get_cover key s).apply writes
  inverted _ _ h := range_of_le h _
  parent := parent?_apply writes s.cover
  committed := commit_apply_cover writes s
  shown := alike_of_get fun key => get_apply_pending (parent?_apply writes s.cover) key
  settled := commit_iterate _
  ascending := touched_ascending _
  touched key := by
    rw [mem_touched_apply (u := s) rfl]
    exact or_iff_left List.not_mem_nil

end KeySpace

end BlogLedger

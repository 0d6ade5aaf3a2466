import BlogLedger.Proofs.Bucket.Span
import BlogLedger.Proofs.Ledger.History
import BlogLedger.Proofs.Snapshot.Kinds

/-!
# Time and numbers run together

The time of the last transition never moves back, and a record is created at the time of its
transition under the next number.  So the records of a kind lie in the order of time when they lie in
the order of their numbers, and the two indexes of the articles of a blog list them alike.

That the two listings of a blog agree is not a matter of how they are computed: one reads an index
by blog, which is ordered by number, and the other an index by blog and time.  They agree because an
article with a larger number was never created earlier.  This needs the time of the ledger to be
monotone and creation to take both the time and the next number from the same transition, and it has
to survive deletions, which leave gaps in the numbers.

## Main Definitions

* `Table.Dated` — records were created in the order of their numbers, up to a time.
* `Ledger.Chronological` — what is true of the times in a ledger.
* `Ledger.RunsForward` — what is true of the times along calls.

## Main Results

* `Ledger.Effect.time_le`, `Ledger.Effect.record_origin` — what a call does to the time and to the
  records.
* `Ledger.Run.dated` — after every run the records of a kind are dated.
* `Ledger.Shows.byTime_eq_ofBlog` — the articles of a blog by time and by number.
* `Ledger.time_runs_forward` — time and numbers run together in every run.
-/

namespace BlogLedger

/-- Records were created in the order of their numbers, after 1970 began and until a time.  The time
is that of the last transition; it has to be part of the invariant, as the next record is compared
with it. -/
structure Table.Dated (t : Table Record) (last : Timestamp) : Prop where
  created : ∀ n r, t.row n = some r → .unset < r.createdAt ∧ r.createdAt ≤ last
  ordered : ∀ m n r s, t.row m = some r → t.row n = some s → m < n → r.createdAt ≤ s.createdAt

/-- Records stay dated when later ones come under later numbers.  It is the step of the invariant,
stated for tables alone: what may happen to a row is that it stays, keeps its time when it is saved
again, goes, or comes in at the end. -/
theorem Table.Dated.of_origin {t t' : Table Record} {last now : Timestamp} (h : t.Dated last)
    (hnumbered : t.Numbered) (hle : last ≤ now)
    (horigin : ∀ n r, t'.row n = some r →
      (∃ old, t.row n = some old ∧ r.createdAt = old.createdAt)
        ∨ t.last < n ∧ r.createdAt = now ∧ .unset < now) : t'.Dated now where
  created := by
    intro n r hrow
    rcases horigin n r hrow with ⟨old, hold, heq⟩ | ⟨-, heq, hpositive⟩
    · obtain ⟨hpositive, hlast⟩ := h.created n old hold
      rw [heq]
      exact ⟨hpositive, Timestamp.le_trans hlast hle⟩
    · rw [heq]
      exact ⟨hpositive, Timestamp.le_refl now⟩
  ordered := by
    intro m n r s hr hs hlt
    rcases horigin n s hs with ⟨old', hold', heq'⟩ | ⟨-, heq', -⟩
    · -- The one number was given out before the other, which was given out before.
      rcases horigin m r hr with ⟨old, hold, heq⟩ | ⟨hnew, -, -⟩
      · rw [heq, heq']
        exact h.ordered m n old old' hold hold' hlt
      · exact absurd (UInt64.lt_trans hnew hlt) (UInt64.not_lt.2 (hnumbered n old' hold').2)
    · rw [heq']
      rcases horigin m r hr with ⟨old, hold, heq⟩ | ⟨-, heq, -⟩
      · rw [heq]
        exact Timestamp.le_trans (h.created m old hold).2 hle
      · rw [heq]
        exact Timestamp.le_refl now

theorem Snapshot.row_records_afterFiring {σ : Snapshot} {now : Timestamp}
    {fired : List (TaskId × Task)} {kind : RecordKind} {n : UInt64} {r : Record}
    (hrow : ((σ.afterFiring now fired).records kind).row n = some r) :
    (σ.records kind).row n = some r := by
  cases kind with
  | user | blog => exact hrow
  | article =>
    obtain ⟨article, hleft, rfl⟩ := Option.map_eq_some_iff.1 hrow
    dsimp only [Snapshot.afterFiring] at hleft
    split at hleft
    · cases hleft
    · exact Option.map_eq_some_iff.2 ⟨article, hleft, rfl⟩

namespace Ledger

/-- What is true of the times in a ledger.  Everything is said with reads, so that it can be checked
on a ledger in use. -/
structure Chronological (l : Ledger) : Prop where
  /-- Every record was created at a positive time, and not after the last transition.  A time of
  zero would mean that the record has none. -/
  created : ∃ last, l.lastTime = .ok last ∧ ∀ (kind : RecordKind) id r,
    kind.bucket.get id l.store = .ok (some r) → .unset < r.createdAt ∧ r.createdAt ≤ last
  /-- Records of a kind, articles among them, were created in the order of their numbers. -/
  ordered : ∀ (kind : RecordKind) id id' r r', kind.bucket.get id l.store = .ok (some r) →
    kind.bucket.get id' l.store = .ok (some r') → id < id' → r.createdAt ≤ r'.createdAt
  /-- The articles of a blog are the same list by time and by number. -/
  byTime_eq : ∀ blog, ∃ ids,
    Articles.ofBlog blog l.store = .ok ids ∧ Articles.byTime blog l.store = .ok ids

/-- What is true of the times along calls: at every moment of a run, and between any two of them. -/
structure RunsForward (start : Ledger) (calls : List Call) : Prop where
  /-- The time of the last transition never moves back. -/
  lastTime_le : ∀ earlier later, earlier <+: later → later <+: calls → ∃ s t,
    (start.after earlier).lastTime = .ok s ∧ (start.after later).lastTime = .ok t ∧ s ≤ t
  chronological : ∀ before, before <+: calls → (start.after before).Chronological

variable {start l : Ledger} {calls : List Call} {c : Call} {σ τ : Snapshot} {n : UInt64}
  {r : Record} {kind : RecordKind}

/-! ### One call -/

/-- A time is not refused when a transition can happen at it and it does not lie before the last
one.  The same time may be used again; only going back is refused. -/
theorem Shows.ensureTime_iff (h : l.Shows σ) {now : Timestamp} :
    l.ensureTime now = .ok () ↔ now.Usable ∧ σ.time ≤ now := by
  constructor
  · intro hensure
    refine ⟨usable_of_ensureTime hensure, ?_⟩
    unfold ensureTime at hensure
    rw [h.lastTime] at hensure
    split at hensure
    · cases hensure
    · split at hensure
      · cases hensure
      · change (if now < σ.time then _ else _) = _ at hensure
        split at hensure
        · cases hensure
        · next hnot => exact Timestamp.not_lt.1 hnot
  · rintro ⟨husable, hle⟩
    have hpositive : ¬ now ≤ .unset := fun hearly => Timestamp.not_lt.2 hearly husable.positive
    unfold ensureTime
    rw [if_neg hpositive, if_neg (not_not.2 husable.shown), h.lastTime]
    exact if_neg (Timestamp.not_lt.2 hle)

theorem ensureTime_of_deliver {tx : Transaction} {outcome : Outcome}
    (hok : (l.deliver tx).result = .ok outcome) : l.ensureTime tx.time = .ok () := by
  cases hensure : l.ensureTime tx.time with
  | ok _ => rfl
  | error f =>
    have hprepare : l.prepare tx = .error f := by
      unfold prepare
      rw [hensure]
      rfl
    unfold deliver at hok
    rw [hprepare] at hok
    cases hok

/-- The time never moves back.  A call that is refused leaves it where it is, and one that goes
through was checked against it. -/
theorem Effect.time_le (h : Effect l σ c τ) (hl : l.Shows σ) : σ.time ≤ τ.time := by
  cases h with
  | check | refused => exact Timestamp.le_refl σ.time
  | accepted tx outcome τ result usable spare change =>
    exact (hl.ensureTime_iff.1 (ensureTime_of_deliver result)).2
  | tick now limit usable =>
    have hlimited : (l.limited limit).Shows σ := hl.of_store_eq rfl
    show σ.time ≤ if (l.limited limit).fired now = [] then σ.time else now
    split
    · exact Timestamp.le_refl σ.time
    · next hfired => exact (hlimited.ensureTime_iff.1 (ensureTime_of_fired hfired)).2

/-- A record was there before a call, created when it was, or it is created at the time of the call
under a number that was not given out before.  A saved record keeps its time, which is why handing
over a blog does not disturb the order. -/
theorem Effect.record_origin (h : Effect l σ c τ) (hrow : (τ.records kind).row n = some r) :
    (∃ old, (σ.records kind).row n = some old ∧ r.createdAt = old.createdAt)
      ∨ (σ.records kind).last < n ∧ r.createdAt = τ.time ∧ .unset < τ.time := by
  cases h with
  | check | refused => exact .inl ⟨r, hrow, rfl⟩
  | tick => exact .inl ⟨r, Snapshot.row_records_afterFiring hrow, rfl⟩
  | accepted tx outcome τ result usable spare change =>
    rw [Snapshot.records_withTime] at hrow
    rcases (change.records kind).origin hrow with hold | ⟨htakes, rfl, htime⟩
    · exact .inl hold
    · have hnext : (σ.records kind).HasNext := by
        unfold Table.HasNext
        rw [Snapshot.next_records]
        exact spare _ htakes
      exact .inr ⟨Table.last_lt_next hnext, htime, usable.positive⟩

/-! ### Runs -/

/-- After every run the records of a kind are dated. -/
theorem Run.dated (h : start.Run calls) (kind : RecordKind) :
    ((start.after calls).snapshot.records kind).Dated (start.after calls).snapshot.time := by
  refine (h.induct (motive := fun _ _ σ => ∀ kind, (σ.records kind).Dated σ.time) ?_ ?_).1 kind
  · intro kind
    cases kind <;> exact ⟨nofun, nofun⟩
  · intro calls l σ c τ hdated hl heffect kind
    exact (hdated kind).of_origin (hl.sound.records_numbered kind) (heffect.time_le hl)
      fun n r => heffect.record_origin

/-- The time does not move back in later calls of a run. -/
theorem Run.time_le {later : List Call} (h : start.Run (calls ++ later)) :
    (start.after calls).snapshot.time ≤ (start.after (calls ++ later)).snapshot.time := by
  induction later using List.reverseRecOn with
  | nil =>
    rw [List.append_nil]
    exact Timestamp.le_refl _
  | append_singleton later c ih =>
    rw [← List.append_assoc] at h ⊢
    obtain ⟨hl, heffect, -⟩ := h.effect (made_concat.2 (.inr ⟨rfl, rfl⟩))
    rw [after_concat]
    exact Timestamp.le_trans (ih (h.of_prefix (List.prefix_append _ _))) (heffect.time_le hl)

/-! ### The articles of a blog -/

/-- A timed value starts with the blog that it was made for, and with no other one.  The number of
the blog has a fixed length, so no number is the beginning of another one. -/
theorem key_le_timedValue_iff {blog other : RecordId} {time : Timestamp} :
    blog.key <+: timedValue other time ↔ other = blog := by
  constructor
  · intro hstart
    have hfront : blog.key <+: other.key :=
      List.prefix_of_prefix_length_le hstart (List.prefix_append _ _)
        (Nat.le_of_eq (blog.length_key.trans other.length_key.symm))
    have hkey : blog.key = other.key :=
      hfront.eq_of_length (blog.length_key.trans other.length_key.symm)
    exact (RecordId.key_inj.1 hkey).symm
  · rintro rfl
    exact List.prefix_append _ _

/-- The articles with a timed value. -/
theorem Shows.heldIn_timedBlog_iff (h : l.Shows σ) {id : RecordId} {value : Bytes} :
    Bucket.heldIn (σ.records .article) .timedBlog id = some value
      ↔ ∃ a, σ.articles.row id.number = some a ∧ timedValue a.blog a.createdAt = value := by
  rw [Bucket.heldIn_eq_some_iff]
  constructor
  · rintro ⟨r, hrow, hvalue⟩
    obtain ⟨a, ha, rfl⟩ := Option.map_eq_some_iff.1 hrow
    obtain ⟨b, hb, -, rfl⟩ := Index.timedBlog_value_iff.1 hvalue
    cases hb
    exact ⟨a, ha, rfl⟩
  · rintro ⟨a, ha, rfl⟩
    exact ⟨.article a, Option.map_eq_some_iff.2 ⟨a, ha, rfl⟩,
      Index.timedBlog_value_iff.2 ⟨a, rfl, h.stored.created ha, rfl⟩⟩

/-- A list by time of the articles of a blog is their list by number.  Both are determined by their
order and their members; the members are the same, and the times are in the order of the numbers. -/
theorem Shows.lists_of_listsByValue (h : l.Shows σ) (hdated : (σ.records .article).Dated σ.time)
    {blog : RecordId} {ids : List RecordId}
    (hlists : Bucket.ListsByValue (Bucket.heldIn (σ.records .article) .timedBlog)
      (blog.key <+: ·) ids) :
    IdList.Lists ids fun id => ∃ a, σ.articles.row id.number = some a ∧ a.blog = blog := by
  have hmem : ∀ id, id ∈ ids ↔ ∃ a, σ.articles.row id.number = some a ∧ a.blog = blog := by
    intro id
    rw [hlists.mem_iff]
    constructor
    · rintro ⟨value, hheld, hstart⟩
      obtain ⟨a, ha, rfl⟩ := h.heldIn_timedBlog_iff.1 hheld
      exact ⟨a, ha, key_le_timedValue_iff.1 hstart⟩
    · rintro ⟨a, ha, rfl⟩
      exact ⟨_, h.heldIn_timedBlog_iff.2 ⟨a, ha, rfl⟩, key_le_timedValue_iff.2 rfl⟩
  -- The list is ordered by value, and within one blog values differ in their times alone.
  refine ⟨hlists.ordered.imp_of_mem ?_, hmem⟩
  rintro x y hx hy ⟨v, w, hv, hw, hbefore⟩
  obtain ⟨a, ha, rfl⟩ := h.heldIn_timedBlog_iff.1 hv
  obtain ⟨b, hb, rfl⟩ := h.heldIn_timedBlog_iff.1 hw
  obtain ⟨a', ha', hblog⟩ := (hmem x).1 hx
  obtain ⟨b', hb', hblog'⟩ := (hmem y).1 hy
  cases ha.symm.trans ha'
  cases hb.symm.trans hb'
  rw [hblog, hblog'] at hbefore
  rcases hbefore with hlt | ⟨-, hlt⟩
  · -- An article that was created earlier does not have the larger number.
    have htime : a.createdAt < b.createdAt :=
      (Timestamp.key_lt_iff (h.stored.created ha) (h.stored.created hb)).1
        ((Bytes.append_lt_append_left_iff _).1 hlt)
    by_contra hnot
    have hrow : ∀ {id : RecordId} {c : Article}, σ.articles.row id.number = some c →
        (σ.records .article).row id.number = some (.article c) :=
      fun hc => Option.map_eq_some_iff.2 ⟨_, hc, rfl⟩
    by_cases heq : x = y
    · subst heq
      cases ha.symm.trans hb
      exact Timestamp.not_lt.2 (Timestamp.le_refl _) htime
    · have hgt : y < x := RecordId.lt_of_not_lt_of_ne hnot heq
      exact Timestamp.not_lt.2 (hdated.ordered _ _ _ _ (hrow hb) (hrow ha) hgt) htime
  · exact hlt

/-- The articles of a blog are the same list by time and by number. -/
theorem Shows.byTime_eq_ofBlog (h : l.Shows σ) (hdated : (σ.records .article).Dated σ.time)
    (blog : RecordId) : ∃ ids,
      Articles.ofBlog blog l.store = .ok ids ∧ Articles.byTime blog l.store = .ok ids := by
  have hblog : Index.blog ∈ Bucket.articles.indexes := by simp [Bucket.articles]
  have htimed : Index.timedBlog ∈ Bucket.articles.indexes := by simp [Bucket.articles]
  obtain ⟨ids, hids, hlists⟩ := h.stored.articles.byIndex hblog blog.key
  obtain ⟨ids', hids', hlists'⟩ := h.stored.articles.byIndexStart htimed blog.key
  have hbyNumber : ids.Lists fun id => ∃ a, σ.articles.row id.number = some a ∧ a.blog = blog := by
    refine hlists.congr fun id => ?_
    constructor
    · rintro ⟨r, hrow, hvalue⟩
      obtain ⟨a, ha, rfl⟩ := Option.map_eq_some_iff.1 hrow
      exact ⟨a, ha, RecordId.key_inj.1 (Option.some.inj (Except.ok.inj hvalue))⟩
    · rintro ⟨a, ha, rfl⟩
      exact ⟨.article a, Option.map_eq_some_iff.2 ⟨a, ha, rfl⟩, rfl⟩
  obtain rfl := hbyNumber.unique (h.lists_of_listsByValue hdated hlists')
  exact ⟨ids, hids, hids'⟩

/-! ### Time in a run -/

theorem Shows.get_record_iff (h : l.Shows σ) {id : RecordId} :
    kind.bucket.get id l.store = .ok (some r) ↔ (σ.records kind).row id.number = some r := by
  rw [(h.stored.records kind).get, Except.ok.injEq]

theorem Run.chronological (h : start.Run calls) : (start.after calls).Chronological where
  created := ⟨_, h.shows.lastTime, fun kind _ _ hget =>
    (h.dated kind).created _ _ (h.shows.get_record_iff.1 hget)⟩
  ordered kind _ _ _ _ hget hget' :=
    (h.dated kind).ordered _ _ _ _ (h.shows.get_record_iff.1 hget) (h.shows.get_record_iff.1 hget')
  byTime_eq := h.shows.byTime_eq_ofBlog (h.dated .article)

/-- Time and numbers run together in every run. -/
theorem time_runs_forward (h : start.Run calls) : start.RunsForward calls where
  lastTime_le := by
    rintro earlier later ⟨between, rfl⟩ hfront
    have hlater := h.of_prefix hfront
    have hearlier := hlater.of_prefix (List.prefix_append _ _)
    exact ⟨_, _, hearlier.shows.lastTime, hlater.shows.lastTime, hlater.time_le⟩
  chronological before hfront := (h.of_prefix hfront).chronological

theorem time_runs_forward_sample :
    volatile.Run sampleCalls
      ∧ (Articles.byTime ⟨1⟩ sample.store).toOption = some [⟨1⟩, ⟨2⟩]
      ∧ volatile.RunsForward sampleCalls :=
  ⟨sample_run, by decide +kernel, time_runs_forward sample_run⟩

end Ledger

end BlogLedger

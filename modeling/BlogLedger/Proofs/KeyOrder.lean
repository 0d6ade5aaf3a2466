import BlogLedger.Proofs.Bucket.Span
import BlogLedger.Proofs.Schedule.Due

/-!
# Keys keep order

Whatever is found in the store by its order is found by the order of bytes: records by number,
articles by blog and time, tasks by time and number.  Numbers and times are eight bytes each, so a key
that puts one behind the other compares as the pair.  A key of the next second alone is shorter than
the keys of the queue, and bounds those whose time has come.

A time before 1970 would sort after every later one.  No key is made of such a time: an article that
was created then has no timed value, and a task for then has no place in the queue.

## Main Definitions

* `Schedule.Separates` — a bound of the queue at a time.
* `KeysKeepOrder` — keys compare exactly as what they are made of.

## Main Results

* `Schedule.separates_next` — the key of the next second is a bound, except at the last time.
* `keys_keep_order` — keys compare exactly as what they are made of.
-/

namespace BlogLedger

namespace Schedule

/-- The byte string lies above the keys of the queue for times up to `now`, and below those for later
times. -/
structure Separates (stop : Bytes) (now : Timestamp) : Prop where
  above_iff : ∀ runAt id, ¬ runAt < .unset → (queueKey runAt id < stop ↔ runAt ≤ now)
  below_iff : ∀ runAt id, ¬ runAt < .unset → (stop < queueKey runAt id ↔ now < runAt)

variable {now runAt : Timestamp}

theorem checkTime_iff : checkTime runAt = .ok () ↔ ¬ runAt < .unset := by
  refine ⟨fun hcheck hnegative => ?_, checkTime_eq⟩
  unfold checkTime at hcheck
  rw [if_pos hnegative] at hcheck
  cases hcheck

/-- The key of the next second is no longer than what stands before the number in a key of the
queue, so it lies below the keys for that second too.  It decides on which side the second itself
falls. -/
theorem stop_lt_queueKey_iff (id : TaskId) (hrun : ¬ runAt < .unset)
    (hnext : ¬ now.addSeconds 1 < .unset) :
    queueStart ++ (now.addSeconds 1).key < queueKey runAt id ↔ now.addSeconds 1 ≤ runAt := by
  have hnumber : Bytes.big64 id.number ≠ [] := by
    intro hnil
    exact absurd (Bytes.length_big64 id.number) (by rw [hnil]; decide)
  rw [queueKey_eq, Bytes.append_lt_append_left_iff]
  unfold place
  -- Where the times agree the number is left over, which makes the key the greater one.
  rw [Bytes.lt_append_iff ((Timestamp.length_key _).trans runAt.length_key.symm) hnumber,
    Timestamp.key_lt_iff hnext hrun, Timestamp.key_inj, Timestamp.lt_iff, Timestamp.le_iff,
    ← Timestamp.toInt_inj]
  omega

/-- The key of the next second separates what is due from what is not, as long as there is a next
second.  At the last time there is none, and the bound is that of the last second itself. -/
theorem separates_next (hlast : now < .last) (hnext : ¬ now.addSeconds 1 < .unset) :
    Separates (queueStart ++ (now.addSeconds 1).key) now where
  above_iff runAt id hrun := by
    rw [queueKey_lt_stop_iff id hrun hnext]
    refine and_iff_left_of_imp fun hle => ?_
    rintro rfl
    exact Timestamp.not_lt.2 hle hlast
  below_iff runAt id hrun := by
    have hne : now ≠ .last := by
      rintro rfl
      exact absurd hlast (by decide)
    rw [stop_lt_queueKey_iff id hrun hnext, Timestamp.le_iff, Timestamp.toInt_addSeconds_one,
      if_neg hne, Timestamp.lt_iff]
    exact Int.add_one_le_iff

/-- If even the next second is before 1970, no key is made of it, every place in the queue is for a
later time, and nothing is due. -/
theorem nothing_due (hnext : now.addSeconds 1 < .unset) :
    checkTime (now.addSeconds 1) = fail (.negativeSchedule (now.addSeconds 1))
      ∧ (∀ runAt, ¬ runAt < .unset → now < runAt) ∧ ∀ limit s, due now limit s = .ok [] := by
  have hnow : now < .unset := not_imp_not.1 Timestamp.not_lt_unset_addSeconds_one hnext
  refine ⟨if_pos hnext, fun runAt hrun => ?_, fun limit s => if_pos hnow⟩
  rw [Timestamp.lt_iff, Timestamp.toInt_unset] at *
  omega

end Schedule

/-- Keys compare exactly as what they are made of.  A code that keeps the order is also injective,
so different things have different keys. -/
structure KeysKeepOrder : Prop where
  /-- The bytes of a number compare as the number, over the whole range of 64 bits. -/
  numbers : Bytes.KeepsOrder (fun _ => True) RecordId.key fun id => id.number.toNat
  /-- Bytes are read as the number whose bytes they are. -/
  read_iff : ∀ bytes id, RecordId.ofKey bytes = .ok id ↔ bytes = id.key
  /-- Other bytes than eight are refused. -/
  read_refused : ∀ bytes, bytes.length ≠ 8 →
    RecordId.ofKey bytes = fail (.recordKeyLength bytes.length)
  /-- The articles that were not created before 1970 have a timed value, and no other record has. -/
  timed_iff : ∀ r value, Index.timedBlog.value r = .ok (some value) ↔ ∃ a : Article,
    r = .article a ∧ ¬ a.createdAt < .unset ∧ timedValue a.blog a.createdAt = value
  /-- Timed values compare as pairs of the blog and the time of creation. -/
  timed : Bytes.KeepsOrder (fun a : Article => ¬ a.createdAt < .unset)
    (fun a => timedValue a.blog a.createdAt) fun a => toLex (a.blog.number.toNat, a.createdAt.toInt)
  /-- A task for a time that is not before 1970 has a place in the queue, and no other one has. -/
  placed_iff : ∀ runAt, Schedule.checkTime runAt = .ok () ↔ ¬ runAt < .unset
  /-- Keys of the queue compare as pairs of the time and the number of the task. -/
  queue : Bytes.KeepsOrder (fun x : Timestamp × TaskId => ¬ x.1 < .unset)
    (fun x => Schedule.queueKey x.1 x.2) fun x => toLex (x.1.toInt, x.2.number.toNat)
  /-- The key of the next second alone separates what is due from what is not. -/
  separates : ∀ now, now < .last → ¬ now.addSeconds 1 < .unset →
    Schedule.Separates (Schedule.queueStart ++ (now.addSeconds 1).key) now
  /-- If even the next second is before 1970 no key is made of it, and nothing is due. -/
  nothing_due : ∀ now, now.addSeconds 1 < .unset →
    Schedule.checkTime (now.addSeconds 1) = fail (.negativeSchedule (now.addSeconds 1))
      ∧ (∀ runAt, ¬ runAt < .unset → now < runAt) ∧ ∀ limit s, Schedule.due now limit s = .ok []

/-- Keys compare exactly as what they are made of.  Each field is an instance of what is known of
codes, or the condition under which there is one. -/
theorem keys_keep_order : KeysKeepOrder where
  numbers := RecordId.keepsOrder_key
  read_iff _ _ := RecordId.ofKey_eq_ok
  read_refused _ hlength := RecordId.ofKey_of_length hlength
  timed_iff _ _ := Index.timedBlog_value_iff
  timed := keepsOrder_timedValue.comap (fun a : Article => (a.blog, a.createdAt)) fun _ h => h
  placed_iff _ := Schedule.checkTime_iff
  queue := Schedule.keepsOrder_queueKey
  separates _ := Schedule.separates_next
  nothing_due _ := Schedule.nothing_due

-- The key of a second before 1970 would lie above those of all later times.
example : Schedule.queueKey .last ⟨1⟩ < Schedule.queueKey ⟨-1⟩ ⟨1⟩ := by decide

end BlogLedger

import BlogLedger.Proofs.Digest.Crc32
import BlogLedger.Proofs.Journal.Replay

/-!
# Journals that were damaged

A journal that was cut, or of whose records a few bytes were altered, is not replayed in full.  The
replay stops at the record that was damaged, after all records before it.

A replay that stops must stop at the right place, and it must not stop without need.  For a cut this
is a matter of lengths, as the beginning of a record is never a record itself.  For altered bytes
the checksum has to be relied on, and how far that goes is known: up to four bytes next to each
other.  In both cases the records before the damage are whole, so they are replayed first.

## Main Definitions

* `JournalRecord.boundary` — where a record ends and the next one begins.
* `JournalRecord.Altered` — bytes were altered, and only between two offsets.
* `JournalRecord.DetectsDamage` — what a replay makes of a damaged journal.

## Main Results

* `JournalRecord.stopsAt_take` — a cut inside a record stops the replay at that record.
* `JournalRecord.stopsAt_of_altered_body`, `JournalRecord.stopsAt_of_altered_checksum` — so does a
  record some of whose bytes were altered.
* `JournalRecord.detectsDamage` — damage of these kinds is always detected.

## Design Notes

Nothing is said of an altered length: where the record is taken to end is then a matter of what
follows.  In the body the bytes may not be further apart than the checksum is wide.
-/

namespace BlogLedger.JournalRecord

variable {old new front middle back file body tail : Bytes} {batches : List Batch}
  {start stop : Nat}

/-! ### Definitions -/

/-- How many bytes the first records of batches have, so that the next record begins there.  Offsets
in damaged journals are given by it. -/
def boundary (batches : List Batch) (count : Nat) : Nat := (inRow (batches.take count)).length

/-- Bytes were altered at offsets from one on and up to another one, and nowhere else.  No byte was
added or lost, and at least one is different. -/
structure Altered (old new : Bytes) (start stop : Nat) : Prop where
  length_eq : new.length = old.length
  ne : new ≠ old
  outside : ∀ offset, offset < start ∨ stop ≤ offset → new[offset]? = old[offset]?

/-- What a replay makes of the records of batches after damage.  A cut goes unnoticed only between
two records; a cut inside a record and altered bytes of its body or of its checksum stop the replay
where the record begins.  That a cut between records goes unnoticed cannot be helped: it leaves a
journal that might have been written. -/
structure DetectsDamage (batches : List Batch) (s : KeySpace) : Prop where
  cut_iff : ∀ size ≤ (inRow batches).length,
    (∃ count t, IsReplay ((inRow batches).take size) count s t)
      ↔ ∃ count ≤ batches.length, size = boundary batches count
  cut_between : ∀ count ≤ batches.length,
    IsReplay ((inRow batches).take (boundary batches count)) count s
      (applyAll (batches.take count) s)
  cut_inside : ∀ size ≤ (inRow batches).length,
    (¬ ∃ count ≤ batches.length, size = boundary batches count) →
      ∃ index < batches.length, boundary batches index < size ∧ size < boundary batches (index + 1)
        ∧ ∃ fault, StopsAt ((inRow batches).take size) s (batches.take index)
            (boundary batches index) fault
  body : ∀ index < batches.length, ∀ start stop file, Altered (inRow batches) file start stop →
    boundary batches index + 4 ≤ start → stop + 4 ≤ boundary batches (index + 1) →
      stop ≤ start + 4 →
        ∃ fault, fault.message = "checksum mismatch"
          ∧ StopsAt file s (batches.take index) (boundary batches index) fault
  checksum : ∀ index < batches.length, ∀ start stop file, Altered (inRow batches) file start stop →
    boundary batches (index + 1) ≤ start + 4 → stop ≤ boundary batches (index + 1) →
      ∃ fault, fault.message = "checksum mismatch"
        ∧ StopsAt file s (batches.take index) (boundary batches index) fault

/-! ### Altered bytes -/

theorem Altered.take_eq (h : Altered old new start stop) {size : Nat} (hsize : size ≤ start) :
    new.take size = old.take size := by
  refine List.ext_getElem? fun offset => ?_
  rw [List.getElem?_take, List.getElem?_take]
  split
  · exact h.outside offset (.inl (by omega))
  · rfl

theorem Altered.drop_eq (h : Altered old new start stop) {size : Nat} (hsize : stop ≤ size) :
    new.drop size = old.drop size := by
  refine List.ext_getElem? fun offset => ?_
  rw [List.getElem?_drop, List.getElem?_drop]
  exact h.outside _ (.inr (by omega))

/-- One byte that is replaced by another one.  It is the smallest damage of this kind. -/
theorem altered_set {offset : Nat} {byte : UInt8} (h : old.set offset byte ≠ old) :
    Altered old (old.set offset byte) offset (offset + 1) :=
  ⟨List.length_set, h, fun _ houtside => List.getElem?_set_ne (by omega)⟩

/-- What was altered between two byte strings is what was altered of the bytes between them.  So
damage to a file becomes damage to a body or to a checksum, with offsets counted from there. -/
theorem Altered.exists_middle (h : Altered (front ++ (middle ++ back)) new start stop)
    (hstart : front.length ≤ start) (hstop : stop ≤ front.length + middle.length) :
    ∃ middle', new = front ++ (middle' ++ back)
      ∧ Altered middle middle' (start - front.length) (stop - front.length) := by
  have hfront : new.take front.length = front := by
    rw [h.take_eq hstart, List.take_left' rfl]
  have hback : (new.drop front.length).drop middle.length = back := by
    rw [List.drop_drop, h.drop_eq hstop, ← List.drop_drop, List.drop_left' rfl, List.drop_left' rfl]
  obtain ⟨middle', rfl⟩ : ∃ middle', new = front ++ (middle' ++ back) :=
    ⟨(new.drop front.length).take middle.length, by
      calc new = new.take front.length ++ new.drop front.length := (List.take_append_drop ..).symm
        _ = front ++ ((new.drop front.length).take middle.length ++ back) := by
          rw [hfront, ← hback, List.take_append_drop]⟩
  have hlength : middle'.length = middle.length := by
    have htotal := h.length_eq
    simp only [List.length_append] at htotal
    omega
  refine ⟨middle', rfl, hlength, fun heq => h.ne (by rw [heq]), fun offset hoffset => ?_⟩
  by_cases hinside : offset < middle.length
  · have hpart : ∀ part : Bytes, part.length = middle.length →
        (front ++ (part ++ back))[front.length + offset]? = part[offset]? := fun part hsize => by
      rw [List.getElem?_append_right (Nat.le_add_right ..), Nat.add_sub_cancel_left,
        List.getElem?_append_left (hsize ▸ hinside)]
    rw [← hpart middle' hlength, ← hpart middle rfl]
    exact h.outside _ (by omega)
  · rw [List.getElem?_eq_none (by omega), List.getElem?_eq_none (by omega)]

/-- Few altered bytes next to each other show in the checksum.  What comes before and after them is
the same, and checksums do not forget. -/
theorem Altered.checksum_ne (h : Altered old new start stop) (hshort : stop ≤ start + 4) :
    Crc32.checksum new ≠ Crc32.checksum old := by
  intro hsum
  -- Both byte strings consist of what was not altered and of what may have been.
  have hparts : ∀ bytes : Bytes, bytes.take start ++ (bytes.drop start).take (stop - start)
      ++ (bytes.drop start).drop (stop - start) = bytes := fun bytes => by
    rw [List.append_assoc, List.take_append_drop, List.take_append_drop]
  have hback : (new.drop start).drop (stop - start) = (old.drop start).drop (stop - start) := by
    rw [List.drop_drop, List.drop_drop, h.drop_eq (by omega)]
  have hmiddle : (new.drop start).take (stop - start) = (old.drop start).take (stop - start) := by
    rw [← hparts new, ← hparts old, h.take_eq (Nat.le_refl start), hback] at hsum
    refine Crc32.checksum_patch_inj ?_ ?_ hsum
    · simp only [List.length_take, List.length_drop, h.length_eq]
    · rw [List.length_take]
      omega
  refine h.ne ?_
  rw [← hparts new, ← hparts old, h.take_eq (Nat.le_refl start), hmiddle, hback]

/-! ### Boundaries -/

theorem boundary_length (batches : List Batch) :
    boundary batches batches.length = (inRow batches).length := by
  rw [boundary, List.take_length]

/-- The first records and those after them.  A journal can be cut apart at any boundary. -/
theorem inRow_eq_append (batches : List Batch) (count : Nat) :
    inRow batches = inRow (batches.take count) ++ inRow (batches.drop count) := by
  rw [← inRow_append, List.take_append_drop]

theorem take_boundary (batches : List Batch) (count : Nat) :
    (inRow batches).take (boundary batches count) = inRow (batches.take count) := by
  rw [inRow_eq_append batches count]
  exact List.take_left' rfl

section

variable {index : Nat}

/-- The records before one record, that record, and those after it.  This is how one record is
looked at. -/
theorem inRow_split (h : index < batches.length) :
    inRow batches = inRow (batches.take index)
      ++ (frame batches[index].encode ++ inRow (batches.drop (index + 1))) := by
  rw [inRow_eq_append batches index, List.drop_eq_getElem_cons h, inRow_cons]

theorem boundary_succ (h : index < batches.length) : boundary batches (index + 1) =
    boundary batches index + (overhead + batches[index].encode.length) := by
  rw [boundary, boundary, ← List.take_append_getElem h, inRow_append, List.length_append,
    inRow_cons, List.length_append, length_frame]
  rfl

/-- A size lies on a boundary or within one record.  The induction goes from the last boundary back
to the one below the size. -/
theorem exists_boundary {count size : Nat} (hcount : count ≤ batches.length)
    (hsize : size ≤ boundary batches count) :
    (∃ count ≤ batches.length, size = boundary batches count) ∨
      ∃ index < batches.length, boundary batches index < size
        ∧ size < boundary batches (index + 1) := by
  induction count with
  | zero => exact .inl ⟨0, hcount, Nat.le_zero.1 hsize⟩
  | succ count ih =>
    by_cases hbefore : size ≤ boundary batches count
    · exact ih (by omega) hbefore
    · rcases Nat.lt_or_eq_of_le hsize with hlt | heq
      · exact .inr ⟨count, by omega, by omega, hlt⟩
      · exact .inl ⟨count + 1, hcount, heq⟩

/-! ### Damage -/

variable {s : KeySpace} (hfits : ∀ batch ∈ batches, Fits batch)
include hfits

/-- The records before one record are replayed, for they are records in a row. -/
theorem areRecords_take (count : Nat) :
    AreRecords (inRow (batches.take count)) (batches.take count) :=
  areRecords_inRow fun batch hbatch => hfits batch (List.mem_of_mem_take hbatch)

/-- A cut inside a record stops the replay at that record.  What is left of it is not empty and is
no record. -/
theorem stopsAt_take (h : index < batches.length) {size : Nat}
    (hstart : boundary batches index < size) (hstop : size < boundary batches (index + 1)) :
    ∃ fault, StopsAt ((inRow batches).take size) s (batches.take index) (boundary batches index)
      fault := by
  rw [boundary_succ h, ← length_frame] at hstop
  obtain ⟨room, rfl⟩ := Nat.exists_eq_add_of_lt hstart
  have hrecord := isRecord_frame (hfits _ (List.getElem_mem h))
  obtain ⟨hne, damage, hread⟩ := misfit_iff.1
    (hrecord.misfit_take (Nat.succ_pos room) (by omega))
  have hcut : (inRow batches).take (boundary batches index + room + 1)
      = inRow (batches.take index) ++ (frame batches[index].encode).take (room + 1) := by
    rw [inRow_split h, Nat.add_assoc, boundary, List.take_length_add_append,
      List.take_append_of_le_length (by omega)]
  rw [hcut]
  exact ⟨_, (areRecords_take hfits index).stopsAt hne hread s⟩

/-- A body with a checksum that does not belong to it stops the replay where the record begins.
Whether the body or the checksum was altered makes no difference. -/
theorem stopsAt_of_mismatch (index : Nat) {length : Bytes} (hhead : length.length = 4)
    (hlength : (Bytes.ofLittle32 length).toNat = body.length) (htail : tail.length = 4)
    (hsum : Crc32.checksum body ≠ Bytes.ofLittle32 tail) (rest : Bytes) :
    ∃ fault, fault.message = "checksum mismatch"
      ∧ StopsAt (inRow (batches.take index) ++ (length ++ (body ++ (tail ++ rest)))) s
          (batches.take index) (boundary batches index) fault := by
  have hread : read (length ++ (body ++ (tail ++ rest))) = .error .checksumMismatch := by
    rw [read_parts hhead hlength htail, if_neg]
    exact fun hverified => hsum (of_decide_eq_true hverified)
  have hne : length ++ (body ++ (tail ++ rest)) ≠ [] := by
    refine List.ne_nil_of_length_pos ?_
    rw [List.length_append]
    omega
  exact ⟨_, rfl, (areRecords_take hfits index).stopsAt hne hread s⟩

/-- The parts of one record, among the records before it and after it.  With the lengths of the
parts, every offset can be told to be in one of them. -/
theorem exists_layout (h : index < batches.length) :
    ∃ length body rest : Bytes,
      inRow batches = inRow (batches.take index)
          ++ (length ++ (body ++ (Bytes.little32 (Crc32.checksum body) ++ rest)))
        ∧ length.length = 4 ∧ (Bytes.ofLittle32 length).toNat = body.length
        ∧ boundary batches (index + 1) = boundary batches index + (overhead + body.length) := by
  refine ⟨Bytes.little32 (UInt32.ofNat batches[index].encode.length), batches[index].encode,
    inRow (batches.drop (index + 1)), ?_, Bytes.length_little32 _, ?_, boundary_succ h⟩
  · rw [← frame_append]
    exact inRow_split h
  · rw [Bytes.ofLittle32_little32]
    exact Nat.mod_eq_of_lt (hfits _ (List.getElem_mem h))

/-- A few altered bytes of a body stop the replay at its record.  The length that stands in front is
as it was, so the body is found where it was. -/
theorem stopsAt_of_altered_body (h : index < batches.length)
    (haltered : Altered (inRow batches) file start stop)
    (hstart : boundary batches index + 4 ≤ start)
    (hstop : stop + 4 ≤ boundary batches (index + 1)) (hshort : stop ≤ start + 4) :
    ∃ fault, fault.message = "checksum mismatch"
      ∧ StopsAt file s (batches.take index) (boundary batches index) fault := by
  obtain ⟨length, body, rest, hlayout, hfour, hlength, hend⟩ := exists_layout hfits h
  rw [hend, overhead, boundary] at hstop
  rw [boundary] at hstart
  have hfront : (inRow (batches.take index) ++ length).length
      = (inRow (batches.take index)).length + 4 := by
    rw [List.length_append, hfour]
  rw [hlayout, ← List.append_assoc] at haltered
  obtain ⟨body', rfl, hbody⟩ := haltered.exists_middle (by omega) (by omega)
  rw [List.append_assoc]
  refine stopsAt_of_mismatch hfits index hfour ?_ (Bytes.length_little32 _) ?_ rest
  · rw [hlength, hbody.length_eq]
  · rw [Bytes.ofLittle32_little32]
    exact hbody.checksum_ne (by omega)

/-- Altered bytes of a checksum stop the replay at its record.  Any bytes of it may be altered,
since the sum that is computed stays the same. -/
theorem stopsAt_of_altered_checksum (h : index < batches.length)
    (haltered : Altered (inRow batches) file start stop)
    (hstart : boundary batches (index + 1) ≤ start + 4)
    (hstop : stop ≤ boundary batches (index + 1)) :
    ∃ fault, fault.message = "checksum mismatch"
      ∧ StopsAt file s (batches.take index) (boundary batches index) fault := by
  obtain ⟨length, body, rest, hlayout, hfour, hlength, hend⟩ := exists_layout hfits h
  rw [hend, overhead, boundary] at hstart hstop
  have htail := Bytes.length_little32 (Crc32.checksum body)
  have hfront : (inRow (batches.take index) ++ length ++ body).length
      = (inRow (batches.take index)).length + 4 + body.length := by
    rw [List.length_append, List.length_append, hfour]
  rw [hlayout, ← List.append_assoc, ← List.append_assoc] at haltered
  obtain ⟨tail, rfl, hsum⟩ := haltered.exists_middle (by omega) (by omega)
  have hfour' : tail.length = 4 := hsum.length_eq.trans htail
  rw [List.append_assoc, List.append_assoc]
  refine stopsAt_of_mismatch hfits index hfour hlength hfour' (fun hsame => hsum.ne ?_) rest
  rw [hsame, Bytes.little32_ofLittle32 hfour']

/-- Records are replayed, cuts and altered bytes are detected.  A cut is either on a boundary or
within a record, and these are the two cases of the first field. -/
theorem detectsDamage (s : KeySpace) : DetectsDamage batches s := by
  have hbetween : ∀ count ≤ batches.length,
      IsReplay ((inRow batches).take (boundary batches count)) count s
        (applyAll (batches.take count) s) := fun count hcount => by
    have hreplay := (areRecords_take hfits count).isReplay s
    rwa [List.length_take_of_le hcount, ← take_boundary] at hreplay
  have hinside : ∀ size ≤ (inRow batches).length,
      (¬ ∃ count ≤ batches.length, size = boundary batches count) →
        ∃ index < batches.length, boundary batches index < size
          ∧ size < boundary batches (index + 1)
          ∧ ∃ fault, StopsAt ((inRow batches).take size) s (batches.take index)
              (boundary batches index) fault := fun size hsize hnone => by
    rw [← boundary_length] at hsize
    obtain ⟨index, h, hstart, hstop⟩ :=
      (exists_boundary (Nat.le_refl _) hsize).resolve_left hnone
    exact ⟨index, h, hstart, hstop, stopsAt_take hfits h hstart hstop⟩
  refine ⟨fun size hsize => ⟨?_, ?_⟩, hbetween, hinside, ?_, ?_⟩
  · rintro ⟨count, t, hreplay⟩
    by_contra hnone
    obtain ⟨_, _, _, _, fault, hstops⟩ := hinside size hsize hnone
    exact hstops.not_isReplay hreplay
  · rintro ⟨count, hcount, rfl⟩
    exact ⟨count, _, hbetween count hcount⟩
  · intro index h start stop file
    exact stopsAt_of_altered_body hfits h
  · intro index h start stop file
    exact stopsAt_of_altered_checksum hfits h

end

/-- Two batches with records of 54 and 44 bytes. -/
def sampleBatches : List Batch := [[.set [1] [2]], [.delete [1]]]

theorem detectsDamage_sample :
    (∀ batch ∈ sampleBatches, Fits batch)
      ∧ (¬ ∃ count t, IsReplay ((inRow sampleBatches).take 56) count .empty t)
      ∧ ∃ fault, fault.message = "checksum mismatch"
        ∧ StopsAt ((inRow sampleBatches).set 70 0) .empty [[.set [1] [2]]] 54 fault := by
  have hfits : ∀ batch ∈ sampleBatches, Fits batch := by
    unfold Fits
    decide +kernel
  have hdetects := detectsDamage hfits .empty
  refine ⟨hfits, ?_, ?_⟩
  · rw [hdetects.cut_iff 56 (by decide +kernel)]
    decide +kernel
  · have haltered : Altered (inRow sampleBatches) ((inRow sampleBatches).set 70 0) 70 71 :=
      altered_set (by decide +kernel)
    have hstart : boundary sampleBatches 1 = 54 := by decide +kernel
    have hend : boundary sampleBatches 2 = 98 := by decide +kernel
    have hfound := hdetects.body 1 (by decide) 70 71 _ haltered
      (by rw [hstart]; decide) (by rw [hend]; decide) (by decide)
    rwa [hstart] at hfound

end BlogLedger.JournalRecord

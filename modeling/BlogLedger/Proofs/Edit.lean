import BlogLedger.Edit

/-!
# Edits that go through

An edit is run one part after the other, and each part that succeeds hands on the key space that it
left behind.

An edit is a function, and running a sequence of edits could be done by unfolding.  These rules take
one step at a time instead, and each step names the key space that it ends in.  Proofs about edits
rewrite with them from the first line of an edit to its last one.

## Main Definitions

* `Edit.Stays` — an edit writes on the uppermost layer alone.

## Main Results

* `Edit.run_bind_ok`, `Edit.run_bind_error` — go on after a success, stop at a failure.
-/

namespace BlogLedger.Edit

variable {α β : Type} {e : Edit α} {s t : KeySpace}

/-- After a success the next edit goes on, with the result and on the key space that were left. -/
theorem run_bind_ok {a : α} (h : e.run s = (.ok a, t)) (next : α → Edit β) :
    (e >>= next).run s = (next a).run t := by
  rw [run_bind, h]

/-- After a failure the next edit does not run.  What was written before stays in the key space, and
it is for the caller to drop it. -/
theorem run_bind_error {f : Failure} (h : e.run s = (.error f, t)) (next : α → Edit β) :
    (e >>= next).run s = (.error f, t) := by
  rw [run_bind, h]

/-- A look that succeeds changes nothing.  It can fail, and is a failure of the edit then. -/
theorem run_look_bind {f : KeySpace → Except Failure α} {a : α} (h : f s = .ok a)
    (next : α → Edit β) : (look f >>= next).run s = (next a).run s :=
  run_bind_ok (by rw [run_look, h]) next

/-- A result that is there is handed on.  It is how a check inside an edit goes through. -/
theorem run_ofExcept_bind {r : Except Failure α} {a : α} (h : r = .ok a) (next : α → Edit β) :
    (ofExcept r >>= next).run s = (next a).run s :=
  run_bind_ok (by rw [run_ofExcept, h]) next

/-- A write is followed by what comes after it, since it cannot fail. -/
theorem run_write_bind (f : KeySpace → KeySpace) (next : Unit → Edit β) :
    (write f >>= next).run s = (next ()).run (f s) :=
  run_bind_ok (run_write f s) next

/-- A success is the same inside an activity.  Only a failure would be reworded. -/
theorem run_within_ok {a : α} (h : e.run s = (.ok a, t)) (activity : String) :
    (within activity e).run s = (.ok a, t) := by
  simp only [within, h]

/-! ### Writing on a layer -/

/-- Whether it succeeds or fails, the edit leaves what lies under the uppermost layer alone.  For
this reason an edit on a fresh layer can be dropped with the layer. -/
def Stays (e : Edit α) : Prop := ∀ s, (e.run s).2.parent? = s.parent?

namespace Stays

theorem pure (a : α) : (Pure.pure a : Edit α).Stays := fun _ => rfl

theorem look (f : KeySpace → Except Failure α) : (Edit.look f).Stays := fun _ => rfl

theorem ofExcept (r : Except Failure α) : (Edit.ofExcept r).Stays := fun _ => rfl

theorem set (key value : Bytes) : (Edit.write (·.set key value)).Stays :=
  fun s => KeySpace.parent?_set key value s

theorem delete (key : Bytes) : (Edit.write (·.delete key)).Stays :=
  fun s => KeySpace.parent?_delete key s

theorem bind {next : α → Edit β} (he : e.Stays) (hnext : ∀ a, (next a).Stays) :
    (e >>= next).Stays := by
  intro s
  have hfirst := he s
  rw [run_bind]
  rcases hrun : e.run s with ⟨a | f, t⟩
  · rwa [hrun] at hfirst
  · rw [hrun] at hfirst
    exact (hnext _ t).trans hfirst

theorem within (activity : String) (he : e.Stays) : (Edit.within activity e).Stays := by
  intro s
  have hrun := he s
  unfold Edit.within
  dsimp only
  rcases h : e.run s with ⟨_ | _, t⟩ <;> rwa [h] at hrun

end Stays

end BlogLedger.Edit

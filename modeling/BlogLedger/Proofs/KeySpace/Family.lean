import BlogLedger.Proofs.KeySpace.Layers

/-!
# Families of keys

A component of the ledger keeps its data under keys that start with bytes of its own.  What one
component writes is therefore invisible to the others.

That two components do not disturb each other is a matter of how their keys start, and it should not
have to be proved again for each write.  So writes are described by the starts of the keys that they
may touch, and such descriptions can be joined and widened.  When something is to be kept across a
write, it is enough to compare two short lists of starts, which is decided by looking at them.

## Main Definitions

* `Bytes.Apart` — byte strings of which neither starts with the other.
* `Bytes.Under` — a key starts with one of the given byte strings.
* `KeySpace.Confined` — what changed between two key spaces lies under given byte strings.
-/

namespace BlogLedger

namespace Bytes

/-- Neither byte string starts with the other, so no key starts with both.  It can be decided. -/
def Apart (p q : Bytes) : Prop := ¬ p <+: q ∧ ¬ q <+: p

instance (p q : Bytes) : Decidable (Apart p q) := inferInstanceAs (Decidable (_ ∧ _))

theorem Apart.symm {p q : Bytes} (h : Apart p q) : Apart q p := ⟨h.2, h.1⟩

theorem Apart.not_starts {p q key : Bytes} (h : Apart p q) (hp : p <+: key) : ¬ q <+: key := by
  intro hq
  rcases List.prefix_or_prefix_of_prefix hp hq with hpq | hqp
  · exact h.1 hpq
  · exact h.2 hqp

/-- The key starts with one of the given byte strings.  A component is given by such a list. -/
def Under (starts : List Bytes) (key : Bytes) : Prop := ∃ p ∈ starts, p <+: key

theorem Under.mono {small large : List Bytes} (h : small ⊆ large) {key : Bytes}
    (hk : Under small key) : Under large key := by
  obtain ⟨p, hp, hpk⟩ := hk
  exact ⟨p, h hp, hpk⟩

/-- A key that starts with `p` lies under none of the byte strings that are apart from `p`.  Two
starts of one key are comparable. -/
theorem not_under_of_apart {p key : Bytes} {starts : List Bytes} (hp : p <+: key)
    (h : ∀ q ∈ starts, Apart p q) : ¬ Under starts key := by
  rintro ⟨q, hq, hqk⟩
  exact (h q hq).not_starts hp hqk

@[simp] theorem under_append {xs ys : List Bytes} {key : Bytes} :
    Under (xs ++ ys) key ↔ Under xs key ∨ Under ys key := by
  simp [Under, or_and_right, exists_or]

@[simp] theorem under_cons {p : Bytes} {starts : List Bytes} {key : Bytes} :
    Under (p :: starts) key ↔ p <+: key ∨ Under starts key := by
  simp [Under]

@[simp] theorem not_under_nil {key : Bytes} : ¬ Under [] key := by
  simp [Under]

end Bytes

namespace KeySpace

/-- The key space `t` lies on what `s` lies on, and differs from `s` only at keys that start with
one of the given byte strings.  Which of them have changed is left open. -/
structure Confined (starts : List Bytes) (s t : KeySpace) : Prop where
  parent : t.parent? = s.parent?
  get : ∀ key, ¬ Bytes.Under starts key → t.get key = s.get key

namespace Confined

variable {starts : List Bytes} {s t u : KeySpace}

theorem refl (starts : List Bytes) (s : KeySpace) : Confined starts s s :=
  ⟨rfl, fun _ _ => rfl⟩

theorem trans (hst : Confined starts s t) (htu : Confined starts t u) : Confined starts s u :=
  ⟨htu.parent.trans hst.parent, fun key hk => (htu.get key hk).trans (hst.get key hk)⟩

theorem mono {large : List Bytes} (hsub : starts ⊆ large) (h : Confined starts s t) :
    Confined large s t :=
  ⟨h.parent, fun key hk => h.get key fun hu => hk (hu.mono hsub)⟩

theorem set {key : Bytes} (hk : Bytes.Under starts key) (value : Bytes) (s : KeySpace) :
    Confined starts s (s.set key value) := by
  refine ⟨parent?_set key value s, fun other hother => ?_⟩
  rw [get_set, if_neg]
  rintro rfl
  exact hother hk

theorem delete {key : Bytes} (hk : Bytes.Under starts key) (s : KeySpace) :
    Confined starts s (s.delete key) := by
  refine ⟨parent?_delete key s, fun other hother => ?_⟩
  rw [get_delete, if_neg]
  rintro rfl
  exact hother hk

/-- Keys under byte strings that are apart from all that changed read as before.  It is how a
component is shown to be undisturbed. -/
theorem get_of_under (h : Confined starts s t) {family : List Bytes} {key : Bytes}
    (hk : Bytes.Under family key) (hap : ∀ p ∈ family, ∀ q ∈ starts, Bytes.Apart p q) :
    t.get key = s.get key := by
  obtain ⟨p, hp, hpk⟩ := hk
  exact h.get key (Bytes.not_under_of_apart hpk (hap p hp))

/-- Keys that start with bytes apart from all that changed read as before.  It is the same for one
start. -/
theorem get_of_apart (h : Confined starts s t) {p key : Bytes} (hp : p <+: key)
    (hap : ∀ q ∈ starts, Bytes.Apart p q) : t.get key = s.get key :=
  h.get key (Bytes.not_under_of_apart hp hap)

end Confined

end KeySpace

end BlogLedger

import BlogLedger.Message
import BlogLedger.Proofs.Timestamp
import BlogLedger.Transition.Caller

/-!
# Checks that pass

What is known once a check has passed: all its parts have, and the fields are without flaws.

Many definitions are sequences of checks and lookups that may fail.  To take such a sequence apart,
one has to know that it succeeds exactly when each of its parts does, and what they gave.  The rules
for lists are used where many records are read in a row.

## Main Results

* `Except.bind_eq_ok` — results in a row succeed when each one does.
* `Except.exists_mapM_ok`, `Except.exists_error_of_mapM` — results in a list succeed when each one
  does, and fail when one does.
* `Except.mem_mapM_iff`, `Except.pairwise_of_mapM` — what they give together, and in which order.
* `Message.validate_eq_ok` — a message passes its check exactly when it has no flaws.
* `Caller.requireOwner_eq_ok` — an action is allowed to a signer who is the owner.
-/

namespace BlogLedger

/-- Results in a row succeed exactly when each one does.  Almost every proof about a definition that
may fail begins with it. -/
theorem Except.bind_eq_ok {ε α β : Type} {x : Except ε α} {f : α → Except ε β} {b : β} :
    (x >>= f) = .ok b ↔ ∃ a, x = .ok a ∧ f a = .ok b := by
  cases x with
  | error e =>
    constructor
    · intro h
      cases h
    · rintro ⟨a, ha, -⟩
      cases ha
  | ok a =>
    constructor
    · intro h
      exact ⟨a, rfl, h⟩
    · rintro ⟨_, ha, h⟩
      cases ha
      exact h

theorem Except.map_eq_ok {ε α β : Type} {x : Except ε α} {f : α → β} {b : β} :
    x.map f = .ok b ↔ ∃ a, x = .ok a ∧ f a = b := by
  cases x <;> simp [Except.map]

theorem Except.map_eq_error {ε α β : Type} {x : Except ε α} {f : α → β} {e : ε} :
    x.map f = .error e ↔ x = .error e := by
  cases x <;> simp [Except.map]

/-- What can be read off a result shows that it is a success.  For a fixed input it is enough to
compute what is read. -/
theorem Except.exists_ok_of_bind {ε α β : Type} {x : Except ε α} {f : α → Option β} {b : β}
    (h : x.toOption.bind f = some b) : ∃ a, x = .ok a ∧ f a = some b := by
  cases x with
  | error e => cases h
  | ok a => exact ⟨a, rfl, h⟩

/-- Results in a list succeed together when each one does.  What they give is found later, by the
other rules. -/
theorem Except.exists_mapM_ok {ε α β : Type} {f : α → Except ε β} {l : List α}
    (h : ∀ a ∈ l, ∃ b, f a = .ok b) : ∃ bs, l.mapM f = .ok bs := by
  induction l with
  | nil => exact ⟨[], rfl⟩
  | cons a rest ih =>
    obtain ⟨b, hb⟩ := h a List.mem_cons_self
    obtain ⟨bs, hbs⟩ := ih fun x hx => h x (List.mem_cons_of_mem a hx)
    refine ⟨b :: bs, ?_⟩
    rw [List.mapM_cons, hb, hbs]
    rfl

/-- Results in a list succeed when the first one does and the others do.  It is the step of
inductions over the list. -/
theorem Except.mapM_cons_eq_ok {ε α β : Type} {f : α → Except ε β} {a : α} {l : List α}
    {bs : List β} : (a :: l).mapM f = .ok bs
      ↔ ∃ b others, f a = .ok b ∧ l.mapM f = .ok others ∧ bs = b :: others := by
  rw [List.mapM_cons, Except.bind_eq_ok]
  constructor
  · rintro ⟨b, hb, hrest⟩
    obtain ⟨others, hothers, hbs⟩ := Except.bind_eq_ok.1 hrest
    cases hbs
    exact ⟨b, others, hb, hothers, rfl⟩
  · rintro ⟨b, others, hb, hothers, rfl⟩
    exact ⟨b, hb, Except.bind_eq_ok.2 ⟨others, hothers, rfl⟩⟩

/-- Results in a list that succeed together succeed one by one, and all of them are given.  So
nothing that was asked for is missing. -/
theorem Except.exists_mem_of_mapM {ε α β : Type} {f : α → Except ε β} {l : List α} {bs : List β}
    (h : l.mapM f = .ok bs) {a : α} (ha : a ∈ l) : ∃ b ∈ bs, f a = .ok b := by
  induction l generalizing bs with
  | nil => cases ha
  | cons first rest ih =>
    obtain ⟨b, others, hfirst, hrest, rfl⟩ := Except.mapM_cons_eq_ok.1 h
    rcases List.mem_cons.1 ha with rfl | ha
    · exact ⟨b, List.mem_cons_self, hfirst⟩
    · obtain ⟨c, hc, hok⟩ := ih hrest ha
      exact ⟨c, List.mem_cons_of_mem b hc, hok⟩

/-- What results in a list give together is what they give one by one.  So nothing comes in that was
not asked for. -/
theorem Except.mem_mapM_iff {ε α β : Type} {f : α → Except ε β} {l : List α} {bs : List β}
    (h : l.mapM f = .ok bs) {b : β} : b ∈ bs ↔ ∃ a ∈ l, f a = .ok b := by
  constructor
  · intro hb
    induction l generalizing bs with
    | nil =>
      cases h
      cases hb
    | cons first rest ih =>
      obtain ⟨b', others, hfirst, hrest, rfl⟩ := Except.mapM_cons_eq_ok.1 h
      rcases List.mem_cons.1 hb with rfl | hb
      · exact ⟨first, List.mem_cons_self, hfirst⟩
      · obtain ⟨a, ha, hok⟩ := ih hrest hb
        exact ⟨a, List.mem_cons_of_mem first ha, hok⟩
  · rintro ⟨a, ha, hok⟩
    obtain ⟨c, hc, hok'⟩ := Except.exists_mem_of_mapM h ha
    cases hok.symm.trans hok'
    exact hc

/-- Results in a list come in the order of what they come from.  A scan of ascending keys gives
ascending records by this rule. -/
theorem Except.pairwise_of_mapM {ε α β : Type} {f : α → Except ε β} {l : List α} {bs : List β}
    {r : α → α → Prop} {s : β → β → Prop} (h : l.mapM f = .ok bs) (hl : l.Pairwise r)
    (hrs : ∀ a ∈ l, ∀ a' ∈ l, r a a' → ∀ b b', f a = .ok b → f a' = .ok b' → s b b') :
    bs.Pairwise s := by
  induction l generalizing bs with
  | nil =>
    cases h
    exact .nil
  | cons first rest ih =>
    obtain ⟨b, others, hfirst, hrest, rfl⟩ := Except.mapM_cons_eq_ok.1 h
    obtain ⟨hbefore, hordered⟩ := List.pairwise_cons.1 hl
    refine List.pairwise_cons.2 ⟨fun b' hb' => ?_, ih hrest hordered fun a ha a' ha' =>
      hrs a (List.mem_cons_of_mem first ha) a' (List.mem_cons_of_mem first ha')⟩
    obtain ⟨a', ha', hok⟩ := (Except.mem_mapM_iff hrest).1 hb'
    exact hrs first List.mem_cons_self a' (List.mem_cons_of_mem first ha') (hbefore a' ha') b b'
      hfirst hok

/-- Results in a list that fail together fail at one of them.  Which one it is does not matter where
it is used. -/
theorem Except.exists_error_of_mapM {ε α β : Type} {f : α → Except ε β} {l : List α} {e : ε}
    (h : l.mapM f = .error e) : ∃ a ∈ l, f a = .error e := by
  induction l with
  | nil => cases h
  | cons first rest ih =>
    rw [List.mapM_cons] at h
    cases hfirst : f first with
    | error e' =>
      rw [hfirst] at h
      cases h
      exact ⟨first, List.mem_cons_self, hfirst⟩
    | ok b =>
      rw [hfirst] at h
      cases hrest : rest.mapM f with
      | error e' =>
        rw [hrest] at h
        cases h
        obtain ⟨a, ha, herror⟩ := ih hrest
        exact ⟨a, List.mem_cons_of_mem first ha, herror⟩
      | ok others =>
        rw [hrest] at h
        cases h

theorem within_eq_ok {α : Type} {activity : String} {x : Except Failure α} {a : α} :
    within activity x = .ok a ↔ x = .ok a := by
  cases x <;> simp [within]

namespace Flaws

theorem conclude_eq_ok {flaws : Flaws} : conclude flaws = .ok () ↔ flaws = [] := by
  cases flaws with
  | nil => simp [conclude]
  | cons first rest => simp [conclude, fail]

@[simp] theorem check_eq_nil {ok : Bool} {field : String} {flaw : Flaw} :
    check ok field flaw = [] ↔ ok = true := by
  cases ok <;> simp [check]

theorem ofRange_eq_nil {field : String} {time : Timestamp} :
    ofRange field time = [] ↔ time.IsRepresentable := by
  unfold ofRange
  rw [check_eq_nil, decide_eq_true_eq]

/-- The time of a transition has no flaw.  Validation asks of times only what is asked of the time
of a call. -/
theorem ofTime_eq_nil {field : String} {time : Timestamp} (h : time.Usable) :
    ofTime field time = [] := by
  have hset : (decide (time ≠ .unset)) = true := decide_eq_true h.ne_unset
  unfold ofTime
  rw [ofRange_eq_nil.2 h.shown, check_eq_nil.2 hset]
  rfl

end Flaws

/-- A message passes its check exactly when it has no flaws.  The flaws of all fields are collected
first, and then there is a failure or none. -/
theorem Message.validate_eq_ok {m : Message} : m.validate = .ok () ↔ m.flaws = [] :=
  Flaws.conclude_eq_ok

theorem Message.newOwner_eq_ok {text : String} {owner : Address} :
    newOwner text = .ok owner ↔ Address.read text = .ok owner := by
  unfold newOwner Address.orFail
  cases Address.read text <;> simp [fail]

namespace Caller

variable {c : Caller}

theorem requireSigner_eq_ok {owner : Address} :
    c.requireSigner = .ok owner ↔ c.signer? = some owner := by
  unfold requireSigner
  cases c.signer? <;> simp [fail]

theorem requireOwner_eq_ok {owner : Address} {action : String} :
    c.requireOwner owner action = .ok () ↔ c.signer? = some owner := by
  unfold requireOwner isAuthorized
  by_cases h : c.signer? = some owner <;> simp [h, fail]

end Caller

end BlogLedger

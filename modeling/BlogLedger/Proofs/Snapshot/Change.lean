import BlogLedger.Proofs.Failure
import BlogLedger.Proofs.Snapshot.Sound

/-!
# Changes of snapshots

What a message does to a snapshot, said once for each message: what must hold before, what is there
afterwards, and what is reported.

Handlers read and write the store, and a proof about one has to follow it through its reads.  The
changes are what is left when this is done.  What is shown of accepted messages afterwards is shown
by cases on the change, without looking at a handler again.

## Main Definitions

* `Snapshot.Change` — the change that an accepted message makes.

## Main Results

* `Snapshot.Change.sound` — every change keeps a snapshot sound.
* `Snapshot.Change.last` — how it moves the sequences on.
-/

namespace BlogLedger

/-! ### Records made from messages without flaws -/

theorem User.flaws_of_message {username : String} {bio : Option String} {time : Timestamp}
    (h : (Message.createUser username bio).flaws = []) (htime : time.Usable) :
    User.flaws ⟨username, Message.givenBio bio, time⟩ = [] := by
  unfold User.flaws
  rw [Flaws.ofTime_eq_nil htime, List.append_nil]
  exact h

theorem Blog.flaws_of_message {title description : String} {owner : Address} {time : Timestamp}
    (h : (Message.createBlog title description).flaws = []) (htime : time.Usable) :
    Blog.flaws ⟨owner, title, description, time⟩ = [] := by
  unfold Blog.flaws
  rw [Flaws.ofTime_eq_nil htime, List.append_nil]
  exact h

theorem Article.flaws_of_message (owner : Address) (deletion : Option TaskId) {blog : RecordId}
    {title content : String} {deleteAt time : Timestamp}
    (h : (Message.createArticle blog title content deleteAt).flaws = []) (htime : time.Usable) :
    Article.flaws ⟨blog, owner, title, content, time, Message.deadline deleteAt, deletion⟩
      = [] := by
  obtain ⟨hfields, hrange⟩ := List.append_eq_nil_iff.1 h
  have hdeadline : deadlineFlaws (Message.deadline deleteAt) = [] := by
    unfold Message.deadline
    split
    · rfl
    · next hset =>
      rw [if_neg hset] at hrange
      have hzero : decide (deleteAt ≠ .unset) = true := decide_eq_true hset
      show Flaws.ofRange "delete_at" deleteAt ++ Flaws.check _ "delete_at" .zeroDeadline = []
      rw [hrange, Flaws.check_eq_nil.2 hzero]
      rfl
  unfold Article.flaws
  rw [Flaws.ofTime_eq_nil htime, hdeadline, List.append_nil, List.append_nil]
  exact hfields

namespace Snapshot

/-- The change that an accepted message makes in a context, and the outcome that is reported.  Each
constructor has as its hypotheses what the handler checks, so that a change can also be asked what
was checked.  An article with a deadline has a constructor of its own, since two tables change with
it. -/
inductive Change (ctx : Context) (σ : Snapshot) : Message → Outcome → Snapshot → Prop where
  | createUser (username : String) (bio : Option String)
      (valid : (Message.createUser username bio).flaws = []) :
    Change ctx σ (.createUser username bio) (.on .created ⟨σ.users.next⟩)
      { σ with users := σ.users.add ⟨username, Message.givenBio bio, ctx.time⟩ }
  | createBlog (title description : String) (owner : Address)
      (valid : (Message.createBlog title description).flaws = [])
      (signed : ctx.caller.signer? = some owner) :
    Change ctx σ (.createBlog title description) (.on .created ⟨σ.blogs.next⟩)
      { σ with blogs := σ.blogs.add ⟨owner, title, description, ctx.time⟩ }
  | changeBlogOwner (id : RecordId) (newOwner : String) (owner : Address) (blog : Blog)
      (valid : (Message.changeBlogOwner id newOwner).flaws = [])
      (named : Address.read newOwner = .ok owner)
      (row : σ.blogs.row id.number = some blog)
      (signed : ctx.caller.signer? = some blog.owner) :
    Change ctx σ (.changeBlogOwner id newOwner) (.on .updated id)
      { σ with blogs := σ.blogs.put id.number (blog.withOwner owner) }
  | createArticle (id : RecordId) (title content : String) (blog : Blog)
      (valid : (Message.createArticle id title content .unset).flaws = [])
      (row : σ.blogs.row id.number = some blog)
      (signed : ctx.caller.signer? = some blog.owner) :
    Change ctx σ (.createArticle id title content .unset) (.on .created ⟨σ.articles.next⟩)
      { σ with
        articles := σ.articles.add ⟨id, blog.owner, title, content, ctx.time, none, none⟩ }
  /-- The article and the task for it come together and name each other.  Both numbers are known
  before either is written. -/
  | scheduleArticle (id : RecordId) (title content : String) (deleteAt : Timestamp) (blog : Blog)
      (valid : (Message.createArticle id title content deleteAt).flaws = [])
      (row : σ.blogs.row id.number = some blog)
      (signed : ctx.caller.signer? = some blog.owner)
      (set : deleteAt ≠ .unset) (later : ctx.time < deleteAt) :
    Change ctx σ (.createArticle id title content deleteAt)
      { Outcome.on .created ⟨σ.articles.next⟩ with scheduled := some ⟨σ.tasks.next⟩ }
      { σ with
        articles := σ.articles.add ⟨id, blog.owner, title, content, ctx.time, some deleteAt,
          some ⟨σ.tasks.next⟩⟩
        tasks := σ.tasks.add ⟨deleteAt, .deleteArticle ⟨σ.articles.next⟩⟩ }
  | deleteArticle (id : RecordId) (article : Article)
      (valid : (Message.deleteArticle id).flaws = [])
      (row : σ.articles.row id.number = some article)
      (signed : ctx.caller.signer? = some article.owner) :
    Change ctx σ (.deleteArticle id)
      { Outcome.on .deleted id with cancelled := article.deletion }
      (σ.without id article.deletion)
  | cancelDeletion (id : RecordId) (article : Article) (task : TaskId)
      (valid : (Message.cancelDeletion id).flaws = [])
      (row : σ.articles.row id.number = some article)
      (signed : ctx.caller.signer? = some article.owner)
      (waiting : article.deletion = some task) :
    Change ctx σ (.cancelDeletion id) { Outcome.on .updated id with cancelled := some task }
      { σ with
        articles := σ.articles.put id.number { article with deletion := none }
        tasks := σ.tasks.drop task.number }

/-- Every change keeps a snapshot sound.  The cases are the changes.  The time must be usable, for
it becomes part of new records, and these have to pass their check. -/
theorem Change.sound {ctx : Context} {σ τ : Snapshot} {m : Message} {outcome : Outcome}
    (hchange : Change ctx σ m outcome τ) (htime : ctx.time.Usable) (h : σ.Sound)
    (hspare : σ.Spare m) : τ.Sound := by
  cases hchange with
  | createUser username bio valid =>
    exact { h with
      users_numbered := h.users_numbered.add (hspare .users trivial) _
      users_flawless := h.users_flawless.add (User.flaws_of_message valid htime) }
  | createBlog title description owner valid signed =>
    exact { h with
      blogs_numbered := h.blogs_numbered.add (hspare .blogs trivial) _
      blogs_flawless := h.blogs_flawless.add (Blog.flaws_of_message valid htime) }
  | changeBlogOwner id newOwner owner blog valid named row signed =>
    -- The check of a blog does not look at the owner.
    have hflaws : (blog.withOwner owner).flaws = [] := by
      show blog.flaws = []
      exact h.blogs_flawless _ _ row
    exact { h with
      blogs_numbered := h.blogs_numbered.put row _
      blogs_flawless := h.blogs_flawless.put _ hflaws }
  | createArticle id title content blog valid row signed =>
    exact h.posted (hspare .articles trivial)
      (Article.flaws_of_message blog.owner none valid htime) rfl
  | scheduleArticle id title content deleteAt blog valid row signed set later =>
    have hdeadline : Message.deadline deleteAt = some deleteAt := if_neg set
    have hflaws := Article.flaws_of_message blog.owner none valid htime
    rw [hdeadline] at hflaws
    exact h.postedUntil (hspare .articles trivial) (hspare .tasks set) hflaws rfl
  | deleteArticle id article valid row signed => exact h.without row
  | cancelDeletion id article task valid row signed waiting =>
    have hspared := h.spared row
    rw [waiting] at hspared
    exact hspared

/-- A change takes one number from each sequence that the message asks and none from the others.  So
the last numbers after a run can be told from the accepted messages. -/
theorem Change.last {ctx : Context} {σ τ : Snapshot} {m : Message} {outcome : Outcome}
    (h : Change ctx σ m outcome τ) (q : Sequence) :
    m.Takes q ∧ τ.last q = σ.last q + 1 ∨ ¬ m.Takes q ∧ τ.last q = σ.last q := by
  cases h with
  | createUser =>
    cases q with
    | users => exact .inl ⟨trivial, rfl⟩
    | blogs | articles | tasks => exact .inr ⟨id, rfl⟩
  | createBlog =>
    cases q with
    | blogs => exact .inl ⟨trivial, rfl⟩
    | users | articles | tasks => exact .inr ⟨id, rfl⟩
  | createArticle =>
    cases q with
    | articles => exact .inl ⟨trivial, rfl⟩
    | users | blogs => exact .inr ⟨id, rfl⟩
    | tasks => exact .inr ⟨fun hset => hset rfl, rfl⟩
  | scheduleArticle id title content deleteAt blog valid row signed set later =>
    cases q with
    | articles => exact .inl ⟨trivial, rfl⟩
    | tasks => exact .inl ⟨set, rfl⟩
    | users | blogs => exact .inr ⟨fun hfalse => hfalse, rfl⟩
  | changeBlogOwner | cancelDeletion => cases q <;> exact .inr ⟨fun hfalse => hfalse, rfl⟩
  | deleteArticle =>
    cases q with
    | users | blogs | articles => exact .inr ⟨fun hfalse => hfalse, rfl⟩
    | tasks => exact .inr ⟨fun hfalse => hfalse, last_tasksWithout _ _⟩

end Snapshot

end BlogLedger

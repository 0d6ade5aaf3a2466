import BlogLedger.Proofs.Ledger.Deletions

/-!
# Who may change what

Whatever changes on a ledger was asked for by its owner in a signed transaction, or was scheduled by
the owner and is fired when its time has come.

The statement is about records and not about messages: it starts from a difference between two
stores, and says which signed transaction or which deadline accounts for it.  So a change that slips
in by some other way would be found, whichever message it came with.  To get there, the rows of the
snapshot are followed through one effect, first forwards (what becomes of a blog or of an article)
and then backwards (where one that is there has come from).  What holds of one call holds of every
call of a run, since each one is made on a sound snapshot.

## Main Definitions

* `Ledger.Accepts`, `Ledger.Expires` — a signed message is accepted, and a deadline passes.
* `Ledger.Posts` — an article is created under a blog.
* `Ledger.BlogFate`, `Ledger.ArticleFate` — what a call may do to a blog and to an article.
* `Ledger.Permitted` — a call does nothing else.
* `Ledger.Authorized` — no call of a run does, and articles stay with who owned the blog.

## Main Results

* `Ledger.changes_authorized` — every run is authorized.
-/

namespace BlogLedger

theorem Caller.signer?_ofSigner (signer : Option Address) :
    (Caller.ofSigner signer).signer? = signer := by
  cases signer <;> rfl

namespace Ledger

/-- A call makes a transaction of a message that an account has signed.  The outcome is part of it,
as it names the record that a creation gives. -/
inductive Accepts (l : Ledger) (signer : Address) (m : Message) (outcome : Outcome) : Call → Prop
  where
  | deliver (time : Timestamp) (result : (l.deliver ⟨time, some signer, m⟩).result = .ok outcome) :
    Accepts l signer m outcome (.deliver ⟨time, some signer, m⟩)

/-- A tick that does not come before the deadline of an article fires the task that the article
names.  Nobody signs a tick; what stands for the signature is the deadline, which the owner has set
when the article was posted. -/
inductive Expires (l : Ledger) (id : RecordId) (article : Article) : Call → Prop where
  | tick (now : Timestamp) (limit : Nat) (handle : TaskId) (deadline : Timestamp)
      (named : article.deletion = some handle) (due : article.deleteAt = some deadline)
      (passed : deadline ≤ now)
      (fired : (handle, ⟨deadline, .deleteArticle id⟩) ∈ (l.limited limit).fired now) :
    Expires l id article (.tick now limit)

/-- A call creates an article under a blog whose owner has signed.  The owner is that of the blog
when the call is made; a blog may be handed over later. -/
def Posts (l : Ledger) (id blog : RecordId) (owner : Address) (c : Call) : Prop :=
  (∃ title content deleteAt outcome,
    l.Accepts owner (.createArticle blog title content deleteAt) outcome c ∧ outcome.id = some id)
  ∧ ∃ stored, Blogs.get blog l.store = .ok (some stored) ∧ stored.owner = owner

/-- What becomes of a blog: it is kept as it is, or its owner hands it over.  There is no third
case, so blogs are never deleted and their other fields never change. -/
inductive BlogFate (l : Ledger) (id : RecordId) (blog : Blog) (c : Call) : Option Blog → Prop where
  | kept : BlogFate l id blog c (some blog)
  | handedOver (newOwner : String) (owner : Address) (outcome : Outcome)
      (named : Address.read newOwner = .ok owner)
      (accepted : l.Accepts blog.owner (.changeBlogOwner id newOwner) outcome c) :
    BlogFate l id blog c (some { blog with owner })

/-- What becomes of an article: it is kept as it is, its owner calls the deletion off or deletes it,
or it expires. -/
inductive ArticleFate (l : Ledger) (id : RecordId) (article : Article) (c : Call) :
    Option Article → Prop where
  | kept : ArticleFate l id article c (some article)
  | spared (outcome : Outcome)
      (accepted : l.Accepts article.owner (.cancelDeletion id) outcome c) :
    ArticleFate l id article c (some { article with deletion := none })
  | deleted (outcome : Outcome)
      (accepted : l.Accepts article.owner (.deleteArticle id) outcome c) :
    ArticleFate l id article c none
  | expired (passed : l.Expires id article c) : ArticleFate l id article c none

/-- Every change that a call makes is one that somebody may ask for, and has asked for.  It has a
field for each kind of record, and for new ones a field each that goes backwards. -/
structure Permitted (l : Ledger) (c : Call) : Prop where
  users_kept : ∀ id user, Users.get id l.store = .ok (some user) →
    Users.get id (c.run l).store = .ok (some user)
  blogs_kept : ∀ id blog, Blogs.get id l.store = .ok (some blog) →
    ∃ found, Blogs.get id (c.run l).store = .ok found ∧ BlogFate l id blog c found
  articles_kept : ∀ id article, Articles.get id l.store = .ok (some article) →
    ∃ found, Articles.get id (c.run l).store = .ok found ∧ ArticleFate l id article c found
  /-- A blog that was not there was created by its owner. -/
  blogs_new : ∀ id blog, Blogs.get id (c.run l).store = .ok (some blog) →
    (∃ old, Blogs.get id l.store = .ok (some old))
      ∨ ∃ title description outcome,
        l.Accepts blog.owner (.createBlog title description) outcome c ∧ outcome.id = some id
  /-- An article that was not there was created by the owner of its blog. -/
  articles_new : ∀ id article, Articles.get id (c.run l).store = .ok (some article) →
    (∃ old, Articles.get id l.store = .ok (some old)) ∨ l.Posts id article.blog article.owner c

/-- Every call of a run does what it may, and the articles that are left are owned by those who
owned their blogs when they were created.  The second part is about the whole run: handing a blog
over does not hand over its articles. -/
structure Authorized (start : Ledger) (calls : List Call) : Prop where
  permitted : ∀ l c, start.Made calls l c → l.Permitted c
  posted : ∀ id article, Articles.get id (start.after calls).store = .ok (some article) →
    ∃ l c, start.Made calls l c ∧ l.Posts id article.blog article.owner c
  owner_eq : ∀ l c id blog owner article, start.Made calls l c → l.Posts id blog owner c →
    Articles.get id (start.after calls).store = .ok (some article) →
    article.blog = blog ∧ article.owner = owner

variable {start l : Ledger} {calls : List Call} {c : Call} {σ τ : Snapshot} {n : UInt64}

/-! ### Reads of a ledger that shows a snapshot -/

theorem Shows.get_user_iff (h : l.Shows σ) {id : RecordId} {user : User} :
    Users.get id l.store = .ok (some user) ↔ σ.users.row id.number = some user := by
  rw [h.stored.getUser, Except.ok.injEq]

theorem Shows.get_blog_iff (h : l.Shows σ) {id : RecordId} {blog : Blog} :
    Blogs.get id l.store = .ok (some blog) ↔ σ.blogs.row id.number = some blog := by
  rw [h.stored.getBlog, Except.ok.injEq]

/-! ### What an effect does to a row -/

/-- Nothing happens to a user.  There is no message that changes or deletes one. -/
theorem Effect.user (h : Effect l σ c τ) (hσ : σ.Sound) {user : User}
    (hrow : σ.users.row n = some user) : τ.users.row n = some user := by
  cases h with
  | check | refused | tick => exact hrow
  | accepted tx outcome τ result usable spare change =>
    show τ.users.row n = _
    obtain ⟨time, signer, message⟩ := tx
    cases change with
    | createUser => exact hσ.users_numbered.row_add_of_row (spare .users trivial) hrow _
    | _ => exact hrow

/-- A call that makes a transaction accepts it from its signer. -/
theorem accepts_of_signed {tx : Transaction} {owner : Address} {outcome : Outcome}
    (result : (l.deliver tx).result = .ok outcome)
    (signed : tx.context.caller.signer? = some owner) :
    l.Accepts owner tx.message outcome (.deliver tx) := by
  obtain ⟨time, signer, message⟩ := tx
  obtain rfl : signer = some owner := (Caller.signer?_ofSigner signer).symm.trans signed
  exact .deliver time result

/-- A blog has one of the two fates.  The case split is on the effect, and then on the change that
an accepted message makes. -/
theorem Effect.blog (h : Effect l σ c τ) (hσ : σ.Sound) {blog : Blog}
    (hrow : σ.blogs.row n = some blog) : BlogFate l ⟨n⟩ blog c (τ.blogs.row n) := by
  cases h with
  | check | refused | tick =>
    show BlogFate l ⟨n⟩ blog _ (σ.blogs.row n)
    rw [hrow]
    exact .kept
  | accepted tx outcome τ result usable spare change =>
    show BlogFate l ⟨n⟩ blog _ (τ.blogs.row n)
    obtain ⟨time, signer, message⟩ := tx
    cases change with
    | createBlog =>
      dsimp only
      rw [hσ.blogs_numbered.row_add_of_row (spare .blogs trivial) hrow]
      exact .kept
    | changeBlogOwner id newOwner owner old valid named row signed =>
      dsimp only
      rw [Table.row_put]
      split
      · next hn =>
        subst hn
        obtain rfl : old = blog := Option.some.inj (row.symm.trans hrow)
        exact .handedOver newOwner owner _ named (accepts_of_signed result signed)
      · rw [hrow]
        exact .kept
    | _ =>
      dsimp only [Snapshot.without]
      rw [hrow]
      exact .kept

/-- An article that a tick removes expires.  That the task which is fired is the one that the
article names comes from soundness: tasks and articles name each other. -/
theorem Shows.expires (h : l.Shows σ) {now : Timestamp} {limit : Nat} {article : Article}
    (hrow : σ.articles.row n = some article) {x : TaskId × Task}
    (hx : x ∈ (l.limited limit).fired now) (hmessage : x.2.message = .deleteArticle ⟨n⟩) :
    l.Expires ⟨n⟩ article (.tick now limit) := by
  obtain ⟨handle, task⟩ := x
  have hlimited : (l.limited limit).Shows σ := h.of_store_eq rfl
  obtain ⟨htask, hpassed⟩ := hlimited.mem_fired hx
  -- The task is the one that waits for the article, and it carries the deadline of the article.
  obtain ⟨id, stored, hother, hstored, hnamed⟩ := h.sound.awaited _ _ htask
  cases hmessage.symm.trans hother
  obtain rfl : article = stored := Option.some.inj (hrow.symm.trans hstored)
  obtain ⟨deadline, hdue, hsame⟩ := h.sound.scheduled _ _ _ hrow hnamed
  cases htask.symm.trans hsame
  exact .tick now limit handle deadline hnamed hdue hpassed hx

/-- An article has one of the four fates. -/
theorem Effect.article (h : Effect l σ c τ) (hl : l.Shows σ) {article : Article}
    (hrow : σ.articles.row n = some article) :
    ArticleFate l ⟨n⟩ article c (τ.articles.row n) := by
  cases h with
  | check | refused =>
    rw [hrow]
    exact .kept
  | tick now limit usable =>
    dsimp only [Snapshot.afterFiring]
    split
    · next hfired =>
      obtain ⟨x, hx, hmessage⟩ := hfired
      exact .expired (hl.expires hrow hx hmessage)
    · rw [hrow]
      exact .kept
  | accepted tx outcome τ result usable spare change =>
    show ArticleFate l ⟨n⟩ article _ (τ.articles.row n)
    obtain ⟨time, signer, message⟩ := tx
    -- A deletion and a cancellation touch an article that is there; a new one has a new number.
    cases change with
    | createUser | createBlog | changeBlogOwner =>
      dsimp only
      rw [hrow]
      exact .kept
    | createArticle | scheduleArticle =>
      dsimp only
      rw [hl.sound.articles_numbered.row_add_of_row (spare .articles trivial) hrow]
      exact .kept
    | deleteArticle id stored valid row signed =>
      dsimp only [Snapshot.without]
      rw [Table.row_drop]
      split
      · next hn =>
        subst hn
        obtain rfl : stored = article := Option.some.inj (row.symm.trans hrow)
        exact .deleted _ (accepts_of_signed result signed)
      · rw [hrow]
        exact .kept
    | cancelDeletion id stored task valid row signed waiting =>
      dsimp only
      rw [Table.row_put]
      split
      · next hn =>
        subst hn
        obtain rfl : stored = article := Option.some.inj (row.symm.trans hrow)
        exact .spared _ (accepts_of_signed result signed)
      · rw [hrow]
        exact .kept

/-- A blog was there or is created by its owner, who is the signer of the message. -/
theorem Effect.blog_origin (h : Effect l σ c τ) {blog : Blog} (hrow : τ.blogs.row n = some blog) :
    (∃ old, σ.blogs.row n = some old) ∨ ∃ title description outcome,
      l.Accepts blog.owner (.createBlog title description) outcome c
        ∧ outcome.id = some ⟨n⟩ := by
  cases h with
  | check | refused | tick => exact .inl ⟨blog, hrow⟩
  | accepted tx outcome τ result usable spare change =>
    change τ.blogs.row n = some blog at hrow
    obtain ⟨time, signer, message⟩ := tx
    cases change with
    | createBlog title description owner valid signed =>
      rcases Table.row_add_eq_some hrow with ⟨rfl, rfl⟩ | hold
      · exact .inr ⟨title, description, _, accepts_of_signed result signed, rfl⟩
      · exact .inl ⟨blog, hold⟩
    | changeBlogOwner id newOwner owner old valid named row signed =>
      dsimp only at hrow
      rw [Table.row_put] at hrow
      split at hrow
      · next hn => exact .inl ⟨old, hn ▸ row⟩
      · exact .inl ⟨blog, hrow⟩
    | _ => exact .inl ⟨blog, hrow⟩

/-- An article was there, and then it had the same blog and the same owner, or it is created now.
That blog and owner stay is what the statement on the whole run is made of. -/
theorem Effect.article_origin (h : Effect l σ c τ) (hl : l.Shows σ) {article : Article}
    (hrow : τ.articles.row n = some article) :
    (∃ old, σ.articles.row n = some old ∧ article.blog = old.blog ∧ article.owner = old.owner)
      ∨ σ.articles.last < n ∧ l.Posts ⟨n⟩ article.blog article.owner c := by
  cases h with
  | check | refused => exact .inl ⟨article, hrow, rfl, rfl⟩
  | tick now limit usable =>
    dsimp only [Snapshot.afterFiring] at hrow
    split at hrow
    · cases hrow
    · exact .inl ⟨article, hrow, rfl, rfl⟩
  | accepted tx outcome τ result usable spare change =>
    change τ.articles.row n = some article at hrow
    obtain ⟨time, signer, message⟩ := tx
    cases change with
    | createUser | createBlog | changeBlogOwner => exact .inl ⟨article, hrow, rfl, rfl⟩
    | createArticle id title content blog valid row signed
    | scheduleArticle id title content deleteAt blog valid row signed set later =>
      rcases Table.row_add_eq_some hrow with ⟨rfl, rfl⟩ | hold
      · exact .inr ⟨Table.last_lt_next (spare .articles trivial),
          ⟨title, content, _, _, accepts_of_signed result signed, rfl⟩, blog,
          hl.get_blog_iff.2 row, rfl⟩
      · exact .inl ⟨article, hold, rfl, rfl⟩
    | deleteArticle id stored valid row signed =>
      dsimp only [Snapshot.without] at hrow
      rw [Table.row_drop] at hrow
      split at hrow
      · cases hrow
      · exact .inl ⟨article, hrow, rfl, rfl⟩
    | cancelDeletion id stored task valid row signed waiting =>
      dsimp only at hrow
      rw [Table.row_put] at hrow
      split at hrow
      · next hn =>
        cases hrow
        exact .inl ⟨stored, hn ▸ row, rfl, rfl⟩
      · exact .inl ⟨article, hrow, rfl, rfl⟩

/-- An article that is created gets the next number, the blog that is named and the owner who has
signed.  The number is needed to tell this article from those that come later. -/
theorem Effect.posts (h : Effect l σ c τ) {blog : RecordId} {owner : Address}
    (hposts : l.Posts ⟨n⟩ blog owner c) :
    n = τ.articles.last ∧ ∃ article, τ.articles.row n = some article
      ∧ article.blog = blog ∧ article.owner = owner := by
  obtain ⟨⟨title, content, deleteAt, outcome, haccepted, hid⟩, -⟩ := hposts
  cases haccepted with
  | deliver time hresult =>
    cases h with
    | refused tx f result => cases hresult.symm.trans result
    | accepted tx outcome' τ result usable spare change =>
      obtain rfl : outcome = outcome' := Except.ok.inj (hresult.symm.trans result)
      show n = τ.articles.last ∧ ∃ article, τ.articles.row n = _ ∧ _
      cases change with
      | createArticle id title content stored valid row signed
      | scheduleArticle id title content deleteAt stored valid row signed set later =>
        obtain rfl : σ.articles.next = n := congrArg RecordId.number (Option.some.inj hid)
        exact ⟨rfl, _, Table.row_add_next _ _, rfl, (Option.some.inj signed).symm⟩

/-! ### Calls and runs -/

/-- An effect is one that somebody may ask for, and has asked for.  It translates what is known of
rows back into what the reads of the ledger say. -/
theorem Effect.permitted (h : Effect l σ c τ) (hl : l.Shows σ) (hτ : (c.run l).Shows τ) :
    l.Permitted c where
  users_kept id user hget := hτ.get_user_iff.2 (h.user hl.sound (hl.get_user_iff.1 hget))
  blogs_kept id blog hget := ⟨_, hτ.stored.getBlog id, h.blog hl.sound (hl.get_blog_iff.1 hget)⟩
  articles_kept id article hget :=
    ⟨_, hτ.stored.getArticle id, h.article hl (hl.get_article_iff.1 hget)⟩
  blogs_new := by
    intro id blog hget
    simp only [hl.get_blog_iff]
    exact h.blog_origin (hτ.get_blog_iff.1 hget)
  articles_new := by
    intro id article hget
    simp only [hl.get_article_iff]
    rcases h.article_origin hl (hτ.get_article_iff.1 hget) with ⟨old, hold, -, -⟩ | ⟨-, hposts⟩
    · exact .inl ⟨old, hold⟩
    · exact .inr hposts

/-- Every article that is left was created by the owner of its blog, who owns it still.  The
induction over the run carries the moment at which the article was posted. -/
theorem Run.exists_posts (h : start.Run calls) {article : Article}
    (hrow : (start.after calls).snapshot.articles.row n = some article) :
    ∃ l c, start.Made calls l c ∧ l.Posts ⟨n⟩ article.blog article.owner c := by
  have hinvariant := h.induct
    (motive := fun calls l σ => l = start.after calls
      ∧ ∀ n article, σ.articles.row n = some article →
        ∃ l c, start.Made calls l c ∧ l.Posts ⟨n⟩ article.blog article.owner c)
    ⟨rfl, nofun⟩ ?_
  · exact hinvariant.1.2 n article hrow
  · rintro calls l σ c τ ⟨rfl, hposted⟩ hl heffect
    refine ⟨(after_concat calls c start).symm, fun n article hrow => ?_⟩
    rcases heffect.article_origin hl hrow with ⟨old, hold, hblog, howner⟩ | ⟨-, hposts⟩
    · obtain ⟨l', d, hmade, hposts⟩ := hposted n old hold
      rw [hblog, howner]
      exact ⟨l', d, made_concat.2 (.inl hmade), hposts⟩
    · exact ⟨_, c, made_concat.2 (.inr ⟨rfl, rfl⟩), hposts⟩

/-- An article that was created once is under the same number the same blog's and owner's for ever,
since the number is never given out again. -/
theorem Run.owner_eq_of_posts (h : start.Run calls) {blog : RecordId} {owner : Address}
    (hmade : start.Made calls l c) (hposts : l.Posts ⟨n⟩ blog owner c) {article : Article}
    (hrow : (start.after calls).snapshot.articles.row n = some article) :
    article.blog = blog ∧ article.owner = owner := by
  have hinvariant := h.induct
    (motive := fun calls last σ => last = start.after calls
      ∧ ∀ l c n blog owner, start.Made calls l c → l.Posts ⟨n⟩ blog owner c →
        n ≤ σ.articles.last ∧ ∀ article, σ.articles.row n = some article →
          article.blog = blog ∧ article.owner = owner)
    ⟨rfl, fun _ _ _ _ _ hmade => absurd hmade made_nil⟩ ?_
  · exact (hinvariant.1.2 l c n blog owner hmade hposts).2 article hrow
  · rintro calls l σ c τ ⟨rfl, hposted⟩ hl heffect
    refine ⟨(after_concat calls c start).symm, fun l' d n blog owner hmade hposts => ?_⟩
    rcases made_concat.1 hmade with hmade | ⟨rfl, rfl⟩
    · obtain ⟨hle, hkept⟩ := hposted l' d n blog owner hmade hposts
      refine ⟨UInt64.le_trans hle (heffect.last_le .articles), fun article hrow => ?_⟩
      rcases heffect.article_origin hl hrow with ⟨old, hold, hblog, howner⟩ | ⟨hlast, -⟩
      · rw [hblog, howner]
        exact hkept old hold
      · exact absurd hle (UInt64.not_le.2 hlast)
    · obtain ⟨hlast, article, hrow, hblog, howner⟩ := heffect.posts hposts
      refine ⟨UInt64.le_of_eq hlast, fun article' hrow' => ?_⟩
      obtain rfl : article = article' := Option.some.inj (hrow.symm.trans hrow')
      exact ⟨hblog, howner⟩

/-- Nothing changes in a run unless its owner has asked for it. -/
theorem changes_authorized (h : start.Run calls) : start.Authorized calls where
  permitted l c hmade := by
    obtain ⟨hl, heffect, hτ⟩ := h.effect hmade
    exact heffect.permitted hl hτ
  posted id article hget := h.exists_posts (h.shows.get_article_iff.1 hget)
  owner_eq l c id blog owner article hmade hposts hget :=
    h.owner_eq_of_posts hmade hposts (h.shows.get_article_iff.1 hget)

theorem changes_authorized_sample :
    volatile.Run sampleCalls ∧ sample.Reachable ∧ volatile.Authorized sampleCalls :=
  ⟨sample_run, sample_reachable, changes_authorized sample_run⟩

end Ledger

end BlogLedger

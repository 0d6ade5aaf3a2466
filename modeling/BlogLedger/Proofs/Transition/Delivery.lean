import BlogLedger.Proofs.Snapshot.Change

/-!
# Deliveries

A message that its check accepts is delivered: every part of the delivery succeeds, and the store
then holds the snapshot that the message asks for.  A message that its check refuses is refused by
its delivery with the same failure.

A check and a delivery begin with the same steps and differ in what comes after.  What the steps
make of a message is therefore shown once, from the check, and the delivery is followed from there.
On a sound snapshot nothing can fail after the check: every record without flaws is taken by its
bucket, and every task that an article names is there.

## Main Results

* `Routes.submitted_route`, `Routes.fired_route` — which handler answers a message.
* `Handler.deliver_yields` — what is accepted is delivered.
* `Handler.deliver_error` — what is refused is refused in the same words.
-/

namespace BlogLedger

/-! ### Routes -/

theorem Routes.lookup_submitted (k : Message.Kind) :
    Routes.submitted.lookup k.path = some (.submitted k) := by
  cases k <;> decide

/-- Every message of an account is answered by the handler of its kind.  The paths are told apart by
the kind, so the kinds are gone through. -/
theorem Routes.submitted_route (m : Message) :
    Routes.submitted.route m = .ok (.submitted m.kind) := by
  unfold Routes.route Message.path
  rw [Routes.lookup_submitted]

/-- A deletion that the scheduler fires is answered by the handler for it.  This is the only message
that is ever scheduled. -/
theorem Routes.fired_route (id : RecordId) :
    Routes.fired.route (.deleteArticle id) = .ok .firedDeletion := by
  have hlookup : Routes.fired.lookup (Message.deleteArticle id).path = some .firedDeletion := by
    show Routes.fired.lookup Message.Kind.deleteArticle.path = _
    decide
  unfold Routes.route
  rw [hlookup]

namespace Handler

variable {ctx : Context} {m : Message} {σ : Snapshot} {s : KeySpace}

/-! ### What an accepted message says -/

theorem newUser_ok {user : User} (h : newUser ctx m = .ok user) :
    ∃ username bio, m = .createUser username bio ∧ m.flaws = []
      ∧ user = ⟨username, Message.givenBio bio, ctx.time⟩ := by
  cases m with
  | createUser username bio =>
    obtain ⟨_, hvalid, huser⟩ := Except.bind_eq_ok.1 h
    cases huser
    exact ⟨username, bio, rfl, Message.validate_eq_ok.1 hvalid, rfl⟩
  | _ => cases h

theorem newBlog_ok {blog : Blog} (h : newBlog ctx m = .ok blog) :
    ∃ title description owner, m = .createBlog title description ∧ m.flaws = []
      ∧ ctx.caller.signer? = some owner ∧ blog = ⟨owner, title, description, ctx.time⟩ := by
  cases m with
  | createBlog title description =>
    obtain ⟨_, hvalid, h⟩ := Except.bind_eq_ok.1 h
    obtain ⟨owner, howner, hblog⟩ := Except.bind_eq_ok.1 h
    cases hblog
    exact ⟨title, description, owner, rfl, Message.validate_eq_ok.1 hvalid,
      Caller.requireSigner_eq_ok.1 howner, rfl⟩
  | _ => cases h

theorem handedBlog_ok (hs : σ.Stored s) {id : RecordId} {blog : Blog}
    (h : handedBlog ctx m s = .ok (id, blog)) :
    ∃ newOwner owner old, m = .changeBlogOwner id newOwner ∧ m.flaws = []
      ∧ Address.read newOwner = .ok owner ∧ σ.blogs.row id.number = some old
      ∧ ctx.caller.signer? = some old.owner ∧ blog = old.withOwner owner := by
  cases m with
  | changeBlogOwner named newOwner =>
    obtain ⟨_, hvalid, h⟩ := Except.bind_eq_ok.1 h
    obtain ⟨owner, howner, h⟩ := Except.bind_eq_ok.1 h
    obtain ⟨old, hold, h⟩ := Except.bind_eq_ok.1 h
    obtain ⟨_, hsigned, h⟩ := Except.bind_eq_ok.1 h
    cases h
    exact ⟨newOwner, owner, old, rfl, Message.validate_eq_ok.1 hvalid,
      Message.newOwner_eq_ok.1 howner, hs.mustGetBlog (within_eq_ok.1 hold),
      Caller.requireOwner_eq_ok.1 hsigned, rfl⟩
  | _ => cases h

theorem checkDeadline_ok {now deadline : Timestamp}
    (h : checkDeadline now (some deadline) = .ok ()) : now < deadline := by
  change (if deadline ≤ now then fail (.deadlinePassed deadline now) else .ok ()) = _ at h
  by_cases hle : deadline ≤ now
  · rw [if_pos hle] at h
    cases h
  · rw [Timestamp.le_iff] at hle
    rw [Timestamp.lt_iff]
    omega

theorem newArticle_ok (hs : σ.Stored s) {article : Article}
    (h : newArticle ctx m s = .ok article) :
    ∃ id title content deleteAt blog, m = .createArticle id title content deleteAt ∧ m.flaws = []
      ∧ σ.blogs.row id.number = some blog ∧ ctx.caller.signer? = some blog.owner
      ∧ checkDeadline ctx.time (Message.deadline deleteAt) = .ok ()
      ∧ article
        = ⟨id, blog.owner, title, content, ctx.time, Message.deadline deleteAt, none⟩ := by
  cases m with
  | createArticle id title content deleteAt =>
    obtain ⟨_, hvalid, h⟩ := Except.bind_eq_ok.1 h
    obtain ⟨blog, hblog, h⟩ := Except.bind_eq_ok.1 h
    obtain ⟨_, hsigned, h⟩ := Except.bind_eq_ok.1 h
    obtain ⟨_, hdeadline, h⟩ := Except.bind_eq_ok.1 h
    cases h
    exact ⟨id, title, content, deleteAt, blog, rfl, Message.validate_eq_ok.1 hvalid,
      hs.mustGetBlog (within_eq_ok.1 hblog), Caller.requireOwner_eq_ok.1 hsigned, hdeadline, rfl⟩
  | _ => cases h

theorem doomedArticle_ok (hs : σ.Stored s) {id : RecordId} {article : Article}
    (h : doomedArticle ctx m s = .ok (id, article)) :
    m = .deleteArticle id ∧ m.flaws = [] ∧ σ.articles.row id.number = some article
      ∧ ctx.caller.signer? = some article.owner := by
  cases m with
  | deleteArticle named =>
    obtain ⟨_, hvalid, h⟩ := Except.bind_eq_ok.1 h
    obtain ⟨found, hfound, h⟩ := Except.bind_eq_ok.1 h
    obtain ⟨_, hsigned, h⟩ := Except.bind_eq_ok.1 h
    cases h
    exact ⟨rfl, Message.validate_eq_ok.1 hvalid, hs.mustGetArticle (within_eq_ok.1 hfound),
      Caller.requireOwner_eq_ok.1 hsigned⟩
  | _ => cases h

theorem sparedArticle_ok (hs : σ.Stored s) {id : RecordId} {article : Article}
    (h : sparedArticle ctx m s = .ok (id, article)) :
    m = .cancelDeletion id ∧ m.flaws = [] ∧ σ.articles.row id.number = some article
      ∧ ctx.caller.signer? = some article.owner ∧ ∃ task, article.deletion = some task := by
  cases m with
  | cancelDeletion named =>
    obtain ⟨_, hvalid, h⟩ := Except.bind_eq_ok.1 h
    obtain ⟨found, hfound, h⟩ := Except.bind_eq_ok.1 h
    obtain ⟨_, hsigned, h⟩ := Except.bind_eq_ok.1 h
    by_cases hwaits : found.hasScheduledDeletion = true
    · rw [if_pos hwaits] at h
      cases h
      exact ⟨rfl, Message.validate_eq_ok.1 hvalid, hs.mustGetArticle (within_eq_ok.1 hfound),
        Caller.requireOwner_eq_ok.1 hsigned, Option.isSome_iff_exists.1 hwaits⟩
    · rw [if_neg hwaits] at h
      cases h
  | _ => cases h

/-! ### Deliveries that go through -/

theorem createUser_yields (hs : σ.Stored s) (hspare : σ.Spare m) (htime : ctx.time.Usable)
    {user : User} (hok : newUser ctx m = .ok user) :
    ∃ outcome τ, Snapshot.Change ctx σ m outcome τ ∧ (createUser ctx m).Yields s outcome τ := by
  obtain ⟨username, bio, rfl, hvalid, rfl⟩ := newUser_ok hok
  refine ⟨_, _, .createUser username bio hvalid, ?_⟩
  unfold createUser
  refine .ofExcept_bind hok ?_
  have hflaws : User.flaws ⟨username, Message.givenBio bio, ctx.time⟩ = [] :=
    User.flaws_of_message hvalid htime
  refine (hs.createUser (hspare .users trivial) hflaws).bind fun u hu => ?_
  exact .pure hu _

theorem createBlog_yields (hs : σ.Stored s) (hspare : σ.Spare m) (htime : ctx.time.Usable)
    {blog : Blog} (hok : newBlog ctx m = .ok blog) :
    ∃ outcome τ, Snapshot.Change ctx σ m outcome τ ∧ (createBlog ctx m).Yields s outcome τ := by
  obtain ⟨title, description, owner, rfl, hvalid, hsigned, rfl⟩ := newBlog_ok hok
  refine ⟨_, _, .createBlog title description owner hvalid hsigned, ?_⟩
  unfold createBlog
  refine .ofExcept_bind hok ?_
  have hflaws : Blog.flaws ⟨owner, title, description, ctx.time⟩ = [] :=
    Blog.flaws_of_message hvalid htime
  refine (hs.createBlog (hspare .blogs trivial) hflaws).bind fun u hu => ?_
  exact .pure hu _

theorem changeBlogOwner_yields (hs : σ.Stored s) (h : σ.Sound) {id : RecordId} {blog : Blog}
    (hok : handedBlog ctx m s = .ok (id, blog)) :
    ∃ outcome τ, Snapshot.Change ctx σ m outcome τ
      ∧ (changeBlogOwner ctx m).Yields s outcome τ := by
  obtain ⟨newOwner, owner, old, rfl, hvalid, hnamed, hrow, hsigned, rfl⟩ := handedBlog_ok hs hok
  have hflaws : (old.withOwner owner).flaws = [] := by
    show old.flaws = []
    exact h.blogs_flawless _ _ hrow
  refine ⟨_, _, .changeBlogOwner id newOwner owner old hvalid hnamed hrow hsigned, ?_⟩
  unfold changeBlogOwner
  refine .look_bind hok ?_
  refine (hs.saveBlog id hflaws).bind fun u hu => ?_
  exact .pure hu _

/-- An article that is accepted is created, with its task if it has a deadline.  With a deadline the
article is put twice: without its task, and, once the task has its number, with it. -/
theorem createArticle_yields (hs : σ.Stored s) (h : σ.Sound) (hspare : σ.Spare m)
    (htime : ctx.time.Usable) {article : Article} (hok : newArticle ctx m s = .ok article) :
    ∃ outcome τ, Snapshot.Change ctx σ m outcome τ
      ∧ (createArticle ctx m).Yields s outcome τ := by
  obtain ⟨id, title, content, deleteAt, blog, rfl, hvalid, hrow, hsigned, hdeadline, rfl⟩ :=
    newArticle_ok hs hok
  have hflaws : ∀ deletion, Article.flaws
      ⟨id, blog.owner, title, content, ctx.time, Message.deadline deleteAt, deletion⟩ = [] :=
    fun deletion => Article.flaws_of_message blog.owner deletion hvalid htime
  by_cases hset : deleteAt = .unset
  · -- Without a deadline the article is all there is to write.
    subst hset
    refine ⟨_, _, .createArticle id title content blog hvalid hrow hsigned, ?_⟩
    unfold createArticle
    refine .look_bind hok ?_
    have hcreate := hs.createArticle (hspare .articles trivial) (hflaws none) htime.not_lt_unset
    refine hcreate.bind fun u hu => ?_
    exact .pure hu _
  · have hsome : Message.deadline deleteAt = some deleteAt := if_neg hset
    rw [hsome] at hdeadline hok hflaws
    have hlater := checkDeadline_ok hdeadline
    refine ⟨_, _,
      .scheduleArticle id title content deleteAt blog hvalid hrow hsigned hset hlater, ?_⟩
    unfold createArticle
    refine .look_bind hok ?_
    have hcreate := hs.createArticle (hspare .articles trivial) (hflaws none) htime.not_lt_unset
    refine hcreate.bind fun u hu => ?_
    refine ((hu.addTask h.tasks_numbered (hspare .tasks hset)
      (Timestamp.not_lt_unset_of_lt htime.not_lt_unset hlater) _).within _).bind fun v hv => ?_
    have hsave := hv.saveArticle ⟨σ.articles.next⟩ (hflaws (some ⟨σ.tasks.next⟩))
      htime.not_lt_unset
    refine hsave.bind fun w hw => ?_
    -- The second article takes the place of the first one, as if it alone had been added.
    rw [Table.put_add] at hw
    exact .pure hw _

/-- The task of a stored article can be cancelled.  The task is there, since the link is kept on
both sides. -/
theorem cancelTask_yields (hs : σ.Stored s) (h : σ.Sound) {id : RecordId} {article : Article}
    (hrow : σ.articles.row id.number = some article) :
    (cancelTask id article.deletion).Yields s ()
      { σ with tasks := σ.tasksWithout article.deletion } := by
  cases hdeletion : article.deletion with
  | none => exact .pure hs ()
  | some task =>
    obtain ⟨deadline, -, htask⟩ := h.scheduled _ _ _ hrow hdeletion
    exact (hs.cancelTask htask).within _

theorem deleteArticle_yields (hs : σ.Stored s) (h : σ.Sound) {id : RecordId} {article : Article}
    (hok : doomedArticle ctx m s = .ok (id, article)) :
    ∃ outcome τ, Snapshot.Change ctx σ m outcome τ
      ∧ (deleteArticle ctx m).Yields s outcome τ := by
  obtain ⟨rfl, hvalid, hrow, hsigned⟩ := doomedArticle_ok hs hok
  refine ⟨_, _, .deleteArticle id article hvalid hrow hsigned, ?_⟩
  unfold deleteArticle
  refine .look_bind hok ?_
  refine (cancelTask_yields hs h hrow).bind fun u hu => ?_
  refine (hu.deleteArticle hrow).bind fun v hv => ?_
  exact .pure hv _

theorem cancelDeletion_yields (hs : σ.Stored s) (h : σ.Sound) {id : RecordId} {article : Article}
    (hok : sparedArticle ctx m s = .ok (id, article)) :
    ∃ outcome τ, Snapshot.Change ctx σ m outcome τ
      ∧ (cancelDeletion ctx m).Yields s outcome τ := by
  obtain ⟨rfl, hvalid, hrow, hsigned, task, hwaits⟩ := sparedArticle_ok hs hok
  have hflaws : Article.flaws { article with deletion := none } = [] := by
    show article.flaws = []
    exact h.articles_flawless _ _ hrow
  have hcreated : ¬ article.createdAt < .unset := hs.created hrow
  have hcancel := cancelTask_yields hs h hrow
  refine ⟨_, _, .cancelDeletion id article task hvalid hrow hsigned hwaits, ?_⟩
  unfold cancelDeletion
  refine .look_bind hok ?_
  rw [hwaits] at hcancel
  dsimp only
  rw [hwaits]
  refine hcancel.bind fun u hu => ?_
  refine (hu.saveArticle id hflaws hcreated).bind fun v hv => ?_
  exact .pure hv _

/-- What the check of a message accepts is delivered, with the change that the message asks for.
The cases are the kinds of messages, and each is one of the deliveries above. -/
theorem deliver_yields (hs : σ.Stored s) (h : σ.Sound) (hspare : σ.Spare m)
    (htime : ctx.time.Usable) {k : Message.Kind} {cost : Nat}
    (hcheck : (submitted k).check ctx m s = .ok cost) :
    ∃ outcome τ, Snapshot.Change ctx σ m outcome τ
      ∧ ((submitted k).deliver ctx m).Yields s outcome τ := by
  cases k with
  | createUser =>
    obtain ⟨user, hok, -⟩ := Except.map_eq_ok.1 hcheck
    exact createUser_yields hs hspare htime hok
  | createBlog =>
    obtain ⟨blog, hok, -⟩ := Except.map_eq_ok.1 hcheck
    exact createBlog_yields hs hspare htime hok
  | changeBlogOwner =>
    obtain ⟨⟨id, blog⟩, hok, -⟩ := Except.map_eq_ok.1 hcheck
    exact changeBlogOwner_yields hs h hok
  | createArticle =>
    obtain ⟨article, hok, -⟩ := Except.map_eq_ok.1 hcheck
    exact createArticle_yields hs h hspare htime hok
  | deleteArticle =>
    obtain ⟨⟨id, article⟩, hok, -⟩ := Except.map_eq_ok.1 hcheck
    exact deleteArticle_yields hs h hok
  | cancelDeletion =>
    obtain ⟨⟨id, article⟩, hok, -⟩ := Except.map_eq_ok.1 hcheck
    exact cancelDeletion_yields hs h hok

/-! ### Deliveries that are refused -/

/-- A check on a fresh layer says what it says on the store below.  A delivery runs on a layer and
its check does not, so they have to be compared. -/
theorem check_cover (h : Handler) (ctx : Context) (m : Message) (s : KeySpace) :
    h.check ctx m s.cover = h.check ctx m s := by
  cases h with
  | firedDeletion => rfl
  | submitted k => cases k <;> rfl

/-- What the check of a message refuses is refused by its delivery, in the same words and before
anything is written.  So a caller who asks first is told the same. -/
theorem deliver_error {h : Handler} {f : Failure} (hcheck : h.check ctx m s = .error f) :
    (h.deliver ctx m).run s = (.error f, s) := by
  cases h with
  | firedDeletion => exact Edit.run_bind_error (congrArg (·, s) (Except.map_eq_error.1 hcheck)) _
  | submitted k =>
    cases k <;>
      exact Edit.run_bind_error (congrArg (·, s) (Except.map_eq_error.1 hcheck)) _

/-! ### Fired deletions -/

/-- A deletion that the scheduler fires for the task that the article names removes the article.
The task has been taken out of the schedule before, so only the article is left to remove. -/
theorem fireDeletion_yields (now : Timestamp) (hs : σ.Stored s) {id : RecordId} {article : Article}
    {task : TaskId} (hid : id.isAssigned) (hrow : σ.articles.row id.number = some article)
    (hwaits : article.deletion = some task) :
    (Handler.firedDeletion.deliver ⟨now, .scheduler task⟩ (.deleteArticle id)).Yields s
      (.on .deleted id) { σ with articles := σ.articles.drop id.number } := by
  have hvalid : (Message.deleteArticle id).validate = .ok () := by
    rw [Message.validate_eq_ok]
    show Flaws.check id.isAssigned _ _ = []
    exact Flaws.check_eq_nil.2 hid
  have hfired : firedArticle ⟨now, .scheduler task⟩ (.deleteArticle id) = .ok (id, task) := by
    show ((Message.deleteArticle id).validate >>= fun _ => pure (id, task)) = _
    rw [hvalid]
    rfl
  have hget : Articles.get id s = .ok (some article) := by rw [hs.getArticle, hrow]
  show (fireDeletion _ _).Yields s _ _
  unfold fireDeletion
  refine .ofExcept_bind hfired ?_
  refine .look_bind hget ?_
  simp only [hwaits, ne_eq, not_true, if_false]
  refine (hs.deleteArticle hrow).bind fun u hu => ?_
  exact .pure hu _

end Handler

end BlogLedger

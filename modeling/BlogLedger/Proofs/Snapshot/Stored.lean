import BlogLedger.Ledger
import BlogLedger.Proofs.Bucket.Holds
import BlogLedger.Proofs.KeySpace.Layers
import BlogLedger.Proofs.Schedule.Holds

/-!
# Snapshots

A snapshot is everything that the ledger keeps, without bytes: the tables of users, blogs, articles
and tasks, and the time of the last transition.  A key space stores a snapshot when it holds each of
its parts and nothing else.

The ledger keeps its parts under different starts of keys, and an edit of one part must leave the
others alone.  That is shown once for all pairs of parts, from the starts: no start of one part is a
start of a key of another.  Then a part that was edited is put in the place of the old one, and the
rest is taken over.

## Main Definitions

* `Snapshot` — the tables and the time.
* `Part` — the parts of the store, each with keys of its own.
* `Sequence`, `Message.Takes` — the sequences from which numbers are given out, and for what.
* `Snapshot.Stored` — a key space holds exactly a snapshot.
* `Edit.Yields` — an edit goes through and leaves a snapshot stored.

## Main Results

* `Snapshot.Stored.getUser`, `Snapshot.Stored.getBlog` and the like — reads show the snapshot.
* `Snapshot.Stored.createUser`, `Snapshot.Stored.saveBlog` and the like — writes change it.
-/

namespace BlogLedger

open KeySpace (Confined)

/-- Everything that the ledger keeps.  The time is unset when there was no transition. -/
@[ext]
structure Snapshot where
  users : Table User
  blogs : Table Blog
  articles : Table Article
  tasks : Table Task
  time : Timestamp

/-- The parts of the store.  Every key that is ever written belongs to one of them. -/
inductive Part where
  | users
  | blogs
  | articles
  | schedule
  | time
  deriving DecidableEq

/-- The sequences from which numbers are given out.  Each table has its own, so a number is new for
its table only. -/
inductive Sequence where
  | users
  | blogs
  | articles
  | tasks
  deriving DecidableEq

/-- The key of the last number of a sequence. -/
def Sequence.key : Sequence → Bytes
  | .users => Bucket.users.sequenceKey
  | .blogs => Bucket.blogs.sequenceKey
  | .articles => Bucket.articles.sequenceKey
  | .tasks => Schedule.sequenceKey

/-- The last number given out from a sequence; it is zero when none was. -/
def Snapshot.last (σ : Snapshot) : Sequence → UInt64
  | .users => σ.users.last
  | .blogs => σ.blogs.last
  | .articles => σ.articles.last
  | .tasks => σ.tasks.last

/-- A message asks for a number of a sequence.  An article that is to be deleted asks for two, one
for itself and one for its task. -/
def Message.Takes : Message → Sequence → Prop
  | .createUser .., .users | .createBlog .., .blogs | .createArticle .., .articles => True
  | .createArticle _ _ _ deleteAt, .tasks => deleteAt ≠ .unset
  | _, _ => False

namespace Part

/-- The starts of the keys of a part.  A part writes under these only. -/
def starts : Part → List Bytes
  | .users => Bucket.users.starts
  | .blogs => Bucket.blogs.starts
  | .articles => Bucket.articles.starts
  | .schedule => Schedule.starts
  | .time => [Ledger.timeKey]

/-- All parts.  They are listed so that what holds for every pair can be decided. -/
def all : List Part := [.users, .blogs, .articles, .schedule, .time]

/-- No key belongs to two parts.  There are finitely many starts, and they are compared with each
other. -/
theorem apart : ∀ p ∈ all, ∀ q ∈ all, p ≠ q →
    ∀ x ∈ p.starts, ∀ y ∈ q.starts, Bytes.Apart x y := by
  decide

theorem mem_all (p : Part) : p ∈ all := by
  cases p <;> simp [all]

end Part

/-- A record without flaws passes its check.  The invariant speaks of flaws, and the check is what a
save asks. -/
theorem Record.validate_of_flaws {r : Record} (h : r.flaws = []) : r.validate = .ok () := by
  unfold validate
  rw [h]
  rfl

namespace Bucket

theorem users_separated : users.Separated := by decide

theorem blogs_separated : blogs.Separated := by decide

theorem articles_separated : articles.Separated := by decide

/-- Every user suits its bucket.  There are no indexes to compute. -/
theorem suits_user (u : User) : users.Suits (.user u) :=
  ⟨rfl, fun _ hindex => absurd hindex List.not_mem_nil⟩

/-- Every blog suits its bucket.  The only index is by owner, which every blog has. -/
theorem suits_blog (b : Blog) : blogs.Suits (.blog b) := by
  refine ⟨rfl, fun index hindex => ?_⟩
  obtain rfl : index = .owner := List.mem_singleton.1 hindex
  rfl

/-- An article suits its bucket unless it was created before 1970.  The index by time has no value
for such an article, as it would sort after all others. -/
theorem suits_article {a : Article} (h : ¬ a.createdAt < .unset) :
    articles.Suits (.article a) := by
  refine ⟨rfl, fun index hindex => ?_⟩
  have hcases : index = .blog ∨ index = .timedBlog := by simpa [articles] using hindex
  rcases hcases with rfl | rfl
  · rfl
  · have hvalue : a.timedValue = .ok (timedValue a.blog a.createdAt) := if_neg h
    show a.timedValue.map some = .ok ((a.timedValue.map some).toOption.join)
    rw [hvalue]
    rfl

end Bucket

namespace Snapshot

/-- The snapshot of a ledger on which nothing has happened.  A store starts from it, also the one
that a journal is replayed into. -/
def empty : Snapshot := ⟨.empty, .empty, .empty, .empty, .unset⟩

/-- The bytes of the time of the last transition, if there was one.  The unset time is never
written. -/
def timeBytes (σ : Snapshot) : Option Bytes :=
  if σ.time = .unset then none else some σ.time.key

/-- A key space holds exactly a snapshot.  The last part says that there is nothing else, so the key
space is determined by what it shows for the parts. -/
structure Stored (σ : Snapshot) (s : KeySpace) : Prop where
  users : Bucket.users.Holds (σ.users.map .user) s
  blogs : Bucket.blogs.Holds (σ.blogs.map .blog) s
  articles : Bucket.articles.Holds (σ.articles.map .article) s
  schedule : Schedule.Holds σ.tasks s
  time : s.Single Ledger.timeKey σ.timeBytes
  nothing : ∀ key, (∀ p : Part, ¬ Bytes.Under p.starts key) → s.get key = none

variable {σ : Snapshot} {s u : KeySpace}

namespace Stored

/-- Only what a key space shows matters, not the layers that it is made of.  So a transition can be
followed on a layer of its own and taken over afterwards. -/
theorem congr (h : σ.Stored s) (hget : ∀ key, u.get key = s.get key) : σ.Stored u where
  users := h.users.congr fun key _ => hget key
  blogs := h.blogs.congr fun key _ => hget key
  articles := h.articles.congr fun key _ => hget key
  schedule := h.schedule.congr fun key _ => hget key
  time := h.time.congr fun key _ => hget key
  nothing key hkey := (hget key).trans (h.nothing key hkey)

theorem cover (h : σ.Stored s) : σ.Stored s.cover := h.congr fun _ => rfl

/-! ### One part at a time -/

section Parts

variable {p : Part}

theorem nothing_of_confined (h : σ.Stored s) (hsu : Confined p.starts s u) :
    ∀ key, (∀ q : Part, ¬ Bytes.Under q.starts key) → u.get key = none :=
  fun key hkey => (hsu.get key (hkey p)).trans (h.nothing key hkey)

theorem apart_of_ne {q : Part} (hne : q ≠ p) :
    ∀ x ∈ q.starts, ∀ y ∈ p.starts, Bytes.Apart x y :=
  Part.apart q q.mem_all p p.mem_all hne

theorem users_of_confined (h : σ.Stored s) (hsu : Confined p.starts s u) (hne : .users ≠ p) :
    Bucket.users.Holds (σ.users.map .user) u :=
  h.users.of_confined hsu (apart_of_ne hne)

theorem blogs_of_confined (h : σ.Stored s) (hsu : Confined p.starts s u) (hne : .blogs ≠ p) :
    Bucket.blogs.Holds (σ.blogs.map .blog) u :=
  h.blogs.of_confined hsu (apart_of_ne hne)

theorem articles_of_confined (h : σ.Stored s) (hsu : Confined p.starts s u)
    (hne : .articles ≠ p) : Bucket.articles.Holds (σ.articles.map .article) u :=
  h.articles.of_confined hsu (apart_of_ne hne)

theorem schedule_of_confined (h : σ.Stored s) (hsu : Confined p.starts s u)
    (hne : .schedule ≠ p) : Schedule.Holds σ.tasks u :=
  h.schedule.of_confined hsu (apart_of_ne hne)

theorem time_of_confined (h : σ.Stored s) (hsu : Confined p.starts s u) (hne : .time ≠ p) :
    u.Single Ledger.timeKey σ.timeBytes :=
  h.time.of_confined hsu (apart_of_ne hne _ (List.mem_singleton_self _))

/-- The table of users was exchanged.  An edit of a bucket is known to keep to its keys, and this is
used for each of the other parts. -/
theorem withUsers (h : σ.Stored s) (hsu : Confined Bucket.users.starts s u) {t : Table User}
    (ht : Bucket.users.Holds (t.map .user) u) : { σ with users := t }.Stored u :=
  have hpart : Confined Part.users.starts s u := hsu
  ⟨ht, h.blogs_of_confined hpart nofun, h.articles_of_confined hpart nofun,
    h.schedule_of_confined hpart nofun, h.time_of_confined hpart nofun,
    h.nothing_of_confined hpart⟩

/-- The table of blogs was exchanged. -/
theorem withBlogs (h : σ.Stored s) (hsu : Confined Bucket.blogs.starts s u) {t : Table Blog}
    (ht : Bucket.blogs.Holds (t.map .blog) u) : { σ with blogs := t }.Stored u :=
  have hpart : Confined Part.blogs.starts s u := hsu
  ⟨h.users_of_confined hpart nofun, ht, h.articles_of_confined hpart nofun,
    h.schedule_of_confined hpart nofun, h.time_of_confined hpart nofun,
    h.nothing_of_confined hpart⟩

/-- The table of articles was exchanged. -/
theorem withArticles (h : σ.Stored s) (hsu : Confined Bucket.articles.starts s u)
    {t : Table Article} (ht : Bucket.articles.Holds (t.map .article) u) :
    { σ with articles := t }.Stored u :=
  have hpart : Confined Part.articles.starts s u := hsu
  ⟨h.users_of_confined hpart nofun, h.blogs_of_confined hpart nofun, ht,
    h.schedule_of_confined hpart nofun, h.time_of_confined hpart nofun,
    h.nothing_of_confined hpart⟩

/-- The table of tasks was exchanged. -/
theorem withTasks (h : σ.Stored s) (hsu : Confined Schedule.starts s u) {t : Table Task}
    (ht : Schedule.Holds t u) : { σ with tasks := t }.Stored u :=
  have hpart : Confined Part.schedule.starts s u := hsu
  ⟨h.users_of_confined hpart nofun, h.blogs_of_confined hpart nofun,
    h.articles_of_confined hpart nofun, ht, h.time_of_confined hpart nofun,
    h.nothing_of_confined hpart⟩

/-- The time of a transition was noted.  It must be a time that was set, as nothing is kept for the
unset time. -/
theorem writeTime (h : σ.Stored s) {time : Timestamp} (hset : time ≠ .unset) :
    { σ with time }.Stored (Ledger.writeTime time s) :=
  have hpart : Confined Part.time.starts s (Ledger.writeTime time s) :=
    Confined.set ⟨_, List.mem_singleton_self _, List.prefix_rfl⟩ _ s
  have htime : { σ with time }.timeBytes = some time.key := if_neg hset
  ⟨h.users_of_confined hpart nofun, h.blogs_of_confined hpart nofun,
    h.articles_of_confined hpart nofun, h.schedule_of_confined hpart nofun,
    htime ▸ h.time.set time.key, h.nothing_of_confined hpart⟩

end Parts

/-! ### Reading -/

section Reading

variable (h : σ.Stored s)

include h

theorem getUser (id : RecordId) : Users.get id s = .ok (σ.users.row id.number) := by
  unfold Users.get
  rw [h.users.get, Table.row_map]
  cases σ.users.row id.number <;> rfl

theorem getBlog (id : RecordId) : Blogs.get id s = .ok (σ.blogs.row id.number) := by
  unfold Blogs.get
  rw [h.blogs.get, Table.row_map]
  cases σ.blogs.row id.number <;> rfl

theorem getArticle (id : RecordId) : Articles.get id s = .ok (σ.articles.row id.number) := by
  unfold Articles.get
  rw [h.articles.get, Table.row_map]
  cases σ.articles.row id.number <;> rfl

theorem mustGetBlog {id : RecordId} {b : Blog} (hok : Blogs.mustGet id s = .ok b) :
    σ.blogs.row id.number = some b := by
  unfold Blogs.mustGet at hok
  cases hrow : σ.blogs.row id.number with
  | none =>
    rw [h.blogs.mustGet_none (by rw [Table.row_map, hrow]; rfl)] at hok
    cases hok
  | some c =>
    rw [h.blogs.mustGet_some (by rw [Table.row_map, hrow]; rfl)] at hok
    cases hok
    rfl

theorem mustGetArticle {id : RecordId} {a : Article} (hok : Articles.mustGet id s = .ok a) :
    σ.articles.row id.number = some a := by
  unfold Articles.mustGet at hok
  cases hrow : σ.articles.row id.number with
  | none =>
    rw [h.articles.mustGet_none (by rw [Table.row_map, hrow]; rfl)] at hok
    cases hok
  | some b =>
    rw [h.articles.mustGet_some (by rw [Table.row_map, hrow]; rfl)] at hok
    cases hok
    rfl

/-- No stored article was created before 1970, since the index by time took it.  So a listing by
time leaves none out. -/
theorem created {n : UInt64} {a : Article} (hrow : σ.articles.row n = some a) :
    ¬ a.createdAt < .unset := by
  intro hearly
  have hrecord : (σ.articles.map Record.article).row n = some (.article a) := by
    rw [Table.row_map, hrow]
    rfl
  have hvalue := (h.articles.suits n _ hrecord).values .timedBlog (by simp [Bucket.articles])
  have hrefused : a.timedValue = .error (.negativeTime a.createdAt) := if_pos hearly
  change a.timedValue.map some = _ at hvalue
  rw [hrefused] at hvalue
  cases hvalue

/-- The key of a sequence holds its last number, if one was given out.  With it the last numbers can
be compared as bytes. -/
theorem get_sequence (q : Sequence) :
    s.get q.key = if σ.last q = 0 then none else some (Bytes.big64 (σ.last q)) := by
  cases q with
  | users => exact h.users.sequence.get
  | blogs => exact h.blogs.sequence.get
  | articles => exact h.articles.sequence.get
  | tasks => exact h.schedule.sequence.get

theorem getTask (id : TaskId) : Schedule.task? id s = .ok (σ.tasks.row id.number) :=
  h.schedule.task? id

end Reading

end Stored

end Snapshot

/-- An empty key space stores the snapshot of a ledger on which nothing has happened. -/
theorem Snapshot.stored_empty : Snapshot.empty.Stored .empty := by
  refine ⟨.empty _, .empty _, .empty _, .empty, .empty _, ?_⟩
  intro key _
  exact KeySpace.get_empty key

/-! ### Edits -/

/-- An edit goes through with a result and leaves a snapshot stored, on the same layer.  The layer
is named because a refused message is undone by dropping it. -/
def Edit.Yields {α : Type} (e : Edit α) (s : KeySpace) (a : α) (σ : Snapshot) : Prop :=
  ∃ u, e.run s = (.ok a, u) ∧ u.parent? = s.parent? ∧ σ.Stored u

namespace Edit.Yields

variable {α β : Type} {e : Edit α} {next : α → Edit β} {s : KeySpace} {a : α} {b : β}
  {σ τ : Snapshot}

theorem pure (h : σ.Stored s) (a : α) : (Pure.pure a : Edit α).Yields s a σ :=
  ⟨s, rfl, rfl, h⟩

/-- One edit after the other.  A handler is put together from edits, and with this its proof is put
together from theirs. -/
theorem bind (h : e.Yields s a σ) (hnext : ∀ u, σ.Stored u → (next a).Yields u b τ) :
    (e >>= next).Yields s b τ := by
  obtain ⟨u, hrun, hparent, hu⟩ := h
  obtain ⟨v, hrun', hparent', hv⟩ := hnext u hu
  exact ⟨v, (run_bind_ok hrun next).trans hrun', hparent'.trans hparent, hv⟩

theorem look_bind {f : KeySpace → Except Failure α} (h : f s = .ok a)
    (hnext : (next a).Yields s b σ) : (look f >>= next).Yields s b σ := by
  obtain ⟨u, hrun, hu⟩ := hnext
  exact ⟨u, (run_look_bind h next).trans hrun, hu⟩

theorem ofExcept_bind {r : Except Failure α} (h : r = .ok a)
    (hnext : (next a).Yields s b σ) : (ofExcept r >>= next).Yields s b σ := by
  obtain ⟨u, hrun, hu⟩ := hnext
  exact ⟨u, (run_ofExcept_bind h next).trans hrun, hu⟩

theorem within (h : e.Yields s a σ) (activity : String) :
    (Edit.within activity e).Yields s a σ := by
  obtain ⟨u, hrun, hu⟩ := h
  exact ⟨u, run_within_ok hrun activity, hu⟩

end Edit.Yields

namespace Snapshot.Stored

variable {σ : Snapshot} {s : KeySpace} (h : σ.Stored s)

include h

/-- A new user, who is given the next number. -/
theorem createUser (hnext : σ.users.HasNext) {user : User} (hflaws : user.flaws = []) :
    (Bucket.users.create (.user user)).Yields s ⟨σ.users.next⟩
      { σ with users := σ.users.add user } := by
  have hvalid : (Record.user user).validate = .ok () := Record.validate_of_flaws hflaws
  obtain ⟨u, hrun, hconf, hu⟩ :=
    h.users.run_create Bucket.users_separated hnext (Bucket.suits_user user) hvalid
  rw [← Table.map_add] at hu
  exact ⟨u, hrun, hconf.parent, h.withUsers hconf hu⟩

/-- A new blog, which is given the next number. -/
theorem createBlog (hnext : σ.blogs.HasNext) {blog : Blog} (hflaws : blog.flaws = []) :
    (Bucket.blogs.create (.blog blog)).Yields s ⟨σ.blogs.next⟩
      { σ with blogs := σ.blogs.add blog } := by
  have hvalid : (Record.blog blog).validate = .ok () := Record.validate_of_flaws hflaws
  obtain ⟨u, hrun, hconf, hu⟩ :=
    h.blogs.run_create Bucket.blogs_separated hnext (Bucket.suits_blog blog) hvalid
  rw [← Table.map_add] at hu
  exact ⟨u, hrun, hconf.parent, h.withBlogs hconf hu⟩

/-- A blog in place of another.  The bucket takes its entry for the old owner out of the index and
puts one for the new owner in. -/
theorem saveBlog (id : RecordId) {blog : Blog} (hflaws : blog.flaws = []) :
    (Bucket.blogs.save id (.blog blog)).Yields s ()
      { σ with blogs := σ.blogs.put id.number blog } := by
  have hvalid : (Record.blog blog).validate = .ok () := Record.validate_of_flaws hflaws
  obtain ⟨u, hrun, hconf, hu⟩ :=
    h.blogs.run_save Bucket.blogs_separated (Bucket.suits_blog blog) hvalid id
  rw [← Table.map_put] at hu
  exact ⟨u, hrun, hconf.parent, h.withBlogs hconf hu⟩

/-- A new article, which is given the next number.  It must not be created before 1970, for the
index by time would refuse it. -/
theorem createArticle (hnext : σ.articles.HasNext) {article : Article}
    (hflaws : article.flaws = []) (hcreated : ¬ article.createdAt < .unset) :
    (Bucket.articles.create (.article article)).Yields s ⟨σ.articles.next⟩
      { σ with articles := σ.articles.add article } := by
  have hvalid : (Record.article article).validate = .ok () := Record.validate_of_flaws hflaws
  obtain ⟨u, hrun, hconf, hu⟩ := h.articles.run_create Bucket.articles_separated hnext
    (Bucket.suits_article hcreated) hvalid
  rw [← Table.map_add] at hu
  exact ⟨u, hrun, hconf.parent, h.withArticles hconf hu⟩

/-- An article in place of another, in the same way as for blogs. -/
theorem saveArticle (id : RecordId) {article : Article} (hflaws : article.flaws = [])
    (hcreated : ¬ article.createdAt < .unset) :
    (Bucket.articles.save id (.article article)).Yields s ()
      { σ with articles := σ.articles.put id.number article } := by
  have hvalid : (Record.article article).validate = .ok () := Record.validate_of_flaws hflaws
  obtain ⟨u, hrun, hconf, hu⟩ := h.articles.run_save Bucket.articles_separated
    (Bucket.suits_article hcreated) hvalid id
  rw [← Table.map_put] at hu
  exact ⟨u, hrun, hconf.parent, h.withArticles hconf hu⟩

/-- An article that goes.  Its entries in both indexes go with it, and the number stays used up. -/
theorem deleteArticle {id : RecordId} {article : Article}
    (hrow : σ.articles.row id.number = some article) :
    (Bucket.articles.delete id).Yields s ()
      { σ with articles := σ.articles.drop id.number } := by
  have hrecord : (σ.articles.map Record.article).row id.number = some (.article article) := by
    rw [Table.row_map, hrow]
    rfl
  obtain ⟨u, hrun, hconf, hu⟩ := h.articles.run_delete Bucket.articles_separated hrecord
  rw [← Table.map_drop] at hu
  exact ⟨u, hrun, hconf.parent, h.withArticles hconf hu⟩

/-- A new task, which is given the next number.  A time before 1970 is excluded, as the schedule
refuses it. -/
theorem addTask (hnumbered : σ.tasks.Numbered) (hnext : σ.tasks.HasNext) {runAt : Timestamp}
    (htime : ¬ runAt < .unset) (message : Message) :
    (Schedule.add runAt message).Yields s ⟨σ.tasks.next⟩
      { σ with tasks := σ.tasks.add ⟨runAt, message⟩ } := by
  obtain ⟨u, hrun, hconf, hu⟩ := h.schedule.run_add hnumbered hnext htime message
  exact ⟨u, hrun, hconf.parent, h.withTasks hconf hu⟩

/-- A task that is taken out when it fires.  It is returned, for its message is to be delivered. -/
theorem takeTask {id : TaskId} {task : Task} (hrow : σ.tasks.row id.number = some task) :
    (Schedule.take id).Yields s (some task) { σ with tasks := σ.tasks.drop id.number } := by
  obtain ⟨u, hrun, hconf, hu⟩ := h.schedule.run_take hrow
  exact ⟨u, hrun, hconf.parent, h.withTasks hconf hu⟩

/-- A task that is cancelled.  It must be there, so the schedule does not refuse. -/
theorem cancelTask {id : TaskId} {task : Task} (hrow : σ.tasks.row id.number = some task) :
    (Schedule.cancel id).Yields s () { σ with tasks := σ.tasks.drop id.number } := by
  obtain ⟨u, hrun, hconf, hu⟩ := h.schedule.run_cancel hrow
  exact ⟨u, hrun, hconf.parent, h.withTasks hconf hu⟩

end Snapshot.Stored

end BlogLedger

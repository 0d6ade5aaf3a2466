import BlogLedger.Proofs.Ledger.History
import BlogLedger.Proofs.Query

/-!
# Queries to a ledger

Whatever has happened to a ledger, its queries are sound and complete: each of the six paths answers
with exactly the stored records that are asked for, and every other path is not found.

For buckets in general it is shown elsewhere what a query to a bucket answers, as long as the bucket
shows a table with its indexes.  It remains to be said here that all three buckets do so after every
run, and that the six paths are all that there are.  The paths are computed from the buckets and
their indexes and not written down, so the list of them is checked once.

## Main Definitions

* `Ledger.AnswersQueries` — every query has the answer that its path, its data and its mode ask for.

## Main Results

* `Ledger.queries_answered` — so it is on every ledger that a run leads to.
-/

namespace BlogLedger

theorem QueryTable.standard_wellNamed : standard.WellNamed :=
  ⟨by decide, by decide⟩

theorem Snapshot.Stored.holds_standard {σ : Snapshot} {s : KeySpace} (h : σ.Stored s)
    {name : String} {b : Bucket} (hmem : (name, b) ∈ QueryTable.standardBuckets) :
    ∃ t, b.Holds t s := by
  simp only [QueryTable.standardBuckets, List.mem_cons, List.not_mem_nil, or_false,
    Prod.mk.injEq] at hmem
  rcases hmem with ⟨-, rfl⟩ | ⟨-, rfl⟩ | ⟨-, rfl⟩
  · exact ⟨_, h.users⟩
  · exact ⟨_, h.blogs⟩
  · exact ⟨_, h.articles⟩

theorem QueryTable.mem_standard {t : String × Bucket} (h : t ∈ standardBuckets) :
    t ∈ standard := by
  have hsorted : standard = [("articles", .articles), ("blogs", .blogs), ("users", .users)] := rfl
  simp only [standardBuckets, List.mem_cons, List.not_mem_nil, or_false] at h
  rw [hsorted]
  rcases h with rfl | rfl | rfl <;> simp

namespace Ledger

open QueryTable (standard standardBuckets)

/-- Every query has the answer that its path, its data and its mode ask for.  Paths by number and by
value are told apart, since the data means a number for the one and a value of the index for the
other. -/
structure AnswersQueries (l : Ledger) : Prop where
  paths : standard.paths
    = ["articles", "articles/blog", "articles/timed_blog", "blogs", "blogs/owner", "users"]
  by_number : ∀ name b, (name, b) ∈ standardBuckets → standard.AnswersByNumber name b l.store
  by_value : ∀ name b, (name, b) ∈ standardBuckets → ∀ index ∈ b.indexes,
    standard.AnswersByValue (name ++ "/" ++ index.name) b index l.store
  unknown : ∀ path data mode, path ∉ standard.paths →
    QueryTable.Refuses .notFound (standard.query path data mode l.store)

variable {l : Ledger}

/-- Whatever has happened, every query has the answer that it asks for.  A query reads the store
alone, so it is enough that the store shows a snapshot; which one it is does not matter. -/
theorem queries_answered (h : l.Reachable) : l.AnswersQueries where
  paths := by decide
  by_number := by
    intro name b hmem
    obtain ⟨t, hholds⟩ := h.shows.stored.holds_standard hmem
    exact hholds.answersByNumber QueryTable.standard_wellNamed (QueryTable.mem_standard hmem)
  by_value := by
    intro name b hmem index hindex
    obtain ⟨t, hholds⟩ := h.shows.stored.holds_standard hmem
    exact hholds.answersByValue QueryTable.standard_wellNamed (QueryTable.mem_standard hmem) hindex
  unknown := by
    intro path data mode hpath
    rw [QueryTable.query_eq_unknown hpath]
    exact ⟨_, rfl, rfl⟩

theorem queries_answered_sample :
    sample.Reachable
      ∧ (standard.query "articles/blog" (RecordId.key ⟨1⟩) .exact sample.store).toOption.map
          List.length = some 2
      ∧ sample.AnswersQueries :=
  ⟨sample_reachable, by decide +kernel, queries_answered sample_reachable⟩

end Ledger

end BlogLedger

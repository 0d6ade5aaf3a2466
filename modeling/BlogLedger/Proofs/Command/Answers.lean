import BlogLedger.Command.Run
import BlogLedger.Proofs.Ledger.History
import BlogLedger.Proofs.Ledger.Recorded
import BlogLedger.Proofs.Ledger.Refusals

/-!
# Answers

A command reads lines and answers the transactions on them one by one, until the lines end or one of
them stops it.  Which answers it gives depends on the store alone, and so do the records that it
writes.  On a sound snapshot nothing stops it but a line that cannot be read and a record that is too
long.

The loop of a command carries an output and a log along and ends in one of three ways, which makes
it awkward to split.  So its course is described a second time, by two relations: lines that are
answered, and the place where the command halts.  Every course is one of each, in this order.  Two
commands can then be compared by comparing the lines that they answer, and where they halt is looked
at once.

## Main Definitions

* `Command.isBlank`, `Command.Readable` — what a line can hold.
* `Command.joinLines` — the input that consists of lines.
* `Command.response?` — the answer to a transaction that does not stop the command.
* `Command.Answered` — lines are answered, and the command goes on.
* `Command.Halts` — where a command ends.
* `Ledger.OnRecord` — the journal of a ledger says what it holds, and that is sound.

## Main Results

* `Command.exists_answered` — a command answers some of its lines, and halts at the next one.
* `Command.Answered.session` — what is left of a command.
* `Ledger.Alike.answered` — ledgers with one store give the same answers and write the same records.
* `Ledger.OnRecord.answered` — lines that are answered keep a ledger on record.
* `Ledger.OnRecord.oversized` — what can stop a command at a transaction.

## Design Notes

The log is left out of the relations, and the result about the loop says only that there is one.
Nothing that is proved of commands depends on it.
-/

namespace BlogLedger

open JournalRecord (Fits IsReplay inRow inRow_append inRow_nil)

namespace Command

/-! ### Definitions -/

/-- Whether a line holds nothing but blanks.  A line that is not a text is not blank. -/
def isBlank (line : Bytes) : Bool :=
  match Bytes.toText? line with
  | some text => Blank.isAllBlank text
  | none => false

/-- A line is blank or holds a transaction.  Any other line stops a command. -/
def Readable (line : Bytes) : Prop := ∃ found, transactionOn line = .ok found

/-- The input that consists of lines.  Each of them is ended by a line feed, also the last one. -/
def joinLines (lines : List Bytes) : Bytes := lines.flatMap fun line => line ++ [10]

/-- The answer to a transaction, unless it stops the command.  A failure that is not fatal is an
answer like any other. -/
def response? : Except Failure Json → Option Json
  | .ok data => some (Session.okResponse data)
  | .error f => if f.isFatal then none else some (Session.errorResponse f.code.name f.display)

/-- Lines are answered one by one, none of them stops the command, and the last ledger is left.  A
blank line is passed over and gets no answer. -/
inductive Answered (checkOnly : Bool) : Ledger → List Bytes → List Json → Ledger → Prop
  | nil (l : Ledger) : Answered checkOnly l [] [] l
  | blank {l m : Ledger} {line : Bytes} {rest : List Bytes} {answers : List Json}
    (read : transactionOn line = .ok none) (others : Answered checkOnly l rest answers m) :
    Answered checkOnly l (line :: rest) answers m
  | answer {l m : Ledger} {line : Bytes} {rest : List Bytes} {answers : List Json}
    {tx : Transaction} {answer : Json} (read : transactionOn line = .ok (some tx))
    (given : response? (apply checkOnly tx l).result = some answer)
    (others : Answered checkOnly (apply checkOnly tx l).ledger rest answers m) :
    Answered checkOnly l (line :: rest) (answer :: answers) m

/-- A command that has come to a ledger, with these lines still to be read, ends there: it stops at
the first of them or there is none.  A transaction that stops it may have been counted, so the
ledger is not always the one that it came to. -/
inductive Halts (checkOnly : Bool) (l : Ledger) :
    List Bytes → Except CommandFault Unit → Ledger → Prop
  | done : Halts checkOnly l [] (.ok ()) l
  | malformed {line : Bytes} {later : List Bytes} {fault : CommandFault}
    (read : transactionOn line = .error fault) :
    Halts checkOnly l (line :: later) (.error fault) l
  | fatal {line : Bytes} {later : List Bytes} {tx : Transaction} {f : Failure}
    (read : transactionOn line = .ok (some tx))
    (result : (apply checkOnly tx l).result = .error f) (stops : f.isFatal = true) :
    Halts checkOnly l (line :: later) (.error (.ledger f)) (apply checkOnly tx l).ledger

variable {checkOnly : Bool} {l m n : Ledger} {lines rest first second : List Bytes} {line : Bytes}
  {answers : List Json} {answer : Json} {result : Except CommandFault Unit} {tx : Transaction}
  {r : Except Failure Json}

/-! ### Lines and answers -/

theorem isBlank_of_read (h : transactionOn line = .ok none) : isBlank line = true := by
  unfold transactionOn at h
  unfold isBlank
  cases htext : Bytes.toText? line with
  | none =>
    rw [htext] at h
    cases h
  | some text =>
    rw [htext] at h
    dsimp only at h ⊢
    split at h
    · assumption
    · split at h <;> cases h

theorem not_isBlank_of_read (h : transactionOn line = .ok (some tx)) : isBlank line = false := by
  unfold transactionOn at h
  unfold isBlank
  cases htext : Bytes.toText? line with
  | none => rfl
  | some text =>
    rw [htext] at h
    dsimp only at h ⊢
    split at h
    · cases h
    · rwa [Bool.not_eq_true] at *

/-- A line feed ends a line.  The line is what comes before, without the line feed. -/
theorem splitLines_append (hline : (10 : UInt8) ∉ line) (more : Bytes) :
    splitLines (line ++ 10 :: more) = line :: splitLines more := by
  induction line with
  | nil => exact if_pos rfl
  | cons b rest ih =>
    rw [List.mem_cons, not_or] at hline
    rw [List.cons_append, splitLines, if_neg (Ne.symm hline.1), ih hline.2]

/-- Every list of lines is the lines of an input.  It is used to build inputs for samples, and the
lines must be free of line feeds. -/
theorem splitLines_joinLines (h : ∀ line ∈ lines, (10 : UInt8) ∉ line) :
    splitLines (joinLines lines) = lines := by
  induction lines with
  | nil => rfl
  | cons line rest ih =>
    obtain ⟨hline, hrest⟩ := List.forall_mem_cons.1 h
    rw [joinLines, List.flatMap_cons, List.append_assoc, List.singleton_append,
      splitLines_append hline, ← joinLines, ih hrest]

theorem response?_eq_none (h : response? r = none) : ∃ f, r = .error f ∧ f.isFatal = true := by
  cases r with
  | ok data => cases h
  | error f =>
    refine ⟨f, rfl, ?_⟩
    by_contra hmild
    simp [response?, hmild] at h

/-- An answer that says that something failed is given to a transaction that was rejected.  The two
kinds of answer have different members, so one cannot be taken for the other. -/
theorem response?_eq_error {code message : String}
    (h : response? r = some (Session.errorResponse code message)) : ∃ f, r = .error f := by
  cases r with
  | ok data => simp [response?, Session.okResponse, Session.errorResponse, Json.ofMembers] at h
  | error f => exact ⟨f, rfl⟩

/-- A transaction is checked, and unless that is all or the check refuses it, it is delivered then.
The ledger that delivers it has counted the check, and is the same otherwise. -/
theorem apply_cases (checkOnly : Bool) (tx : Transaction) (l : Ledger) :
    ((apply checkOnly tx l).ledger = (l.check tx).ledger
        ∧ ∀ f, (apply checkOnly tx l).result = .error f → l.price tx = .error f)
      ∨ ∃ cost, l.price tx = .ok cost
        ∧ (apply checkOnly tx l).ledger = ((l.check tx).ledger.deliver tx).ledger
        ∧ ∀ f, (apply checkOnly tx l).result = .error f →
          ((l.check tx).ledger.deliver tx).result = .error f := by
  unfold apply
  dsimp only
  rw [Ledger.check_result]
  cases l.price tx with
  | error g =>
    refine .inl ⟨rfl, fun f herror => ?_⟩
    cases herror
    rfl
  | ok cost =>
    cases checkOnly with
    | true => exact .inl ⟨rfl, nofun⟩
    | false => exact .inr ⟨cost, rfl, rfl, fun f herror => Except.map_eq_error.1 herror⟩

/-- A transaction that is answered does not stop the command.  It is one turn of the loop, with the
output and the log written out. -/
theorem applyLines_of_response (hread : transactionOn line = .ok (some tx))
    (hanswer : response? (apply checkOnly tx l).result = some answer) (d : Disk)
    (rest : List Bytes) (output : List Json) (log : List LogEntry) :
    applyLines checkOnly d (line :: rest) l output log
      = applyLines checkOnly d rest (apply checkOnly tx l).ledger (output ++ [answer])
        (log ++ (apply checkOnly tx l).log) := by
  rw [applyLines, hread]
  dsimp only
  cases hresult : (apply checkOnly tx l).result with
  | ok data =>
    rw [hresult] at hanswer
    cases hanswer
    rfl
  | error f =>
    rw [hresult] at hanswer
    unfold response? at hanswer
    dsimp only at hanswer ⊢
    split at hanswer
    · cases hanswer
    · cases hanswer
      exact if_neg ‹_›

/-! ### A command in two parts -/

/-- A command answers lines and halts at the next one.  The induction is over the lines, and the
halt is at the first one that gives no answer. -/
theorem exists_answered (checkOnly : Bool) (lines : List Bytes) (l : Ledger) :
    ∃ before rest answers m result n, lines = before ++ rest
      ∧ Answered checkOnly l before answers m ∧ Halts checkOnly m rest result n := by
  induction lines generalizing l with
  | nil => exact ⟨[], [], [], l, .ok (), l, rfl, .nil l, .done⟩
  | cons line rest ih =>
    cases hread : transactionOn line with
    | error fault => exact ⟨[], line :: rest, [], l, _, l, rfl, .nil l, .malformed hread⟩
    | ok found =>
      cases found with
      | none =>
        obtain ⟨before, later, answers, m, result, n, rfl, hanswered, hhalts⟩ := ih l
        exact ⟨line :: before, later, answers, m, result, n, rfl, .blank hread hanswered, hhalts⟩
      | some tx =>
        cases hanswer : response? (apply checkOnly tx l).result with
        | none =>
          obtain ⟨f, hresult, hfatal⟩ := response?_eq_none hanswer
          exact ⟨[], line :: rest, [], l, _, _, rfl, .nil l, .fatal hread hresult hfatal⟩
        | some answer =>
          obtain ⟨before, later, answers, m, result, n, rfl, hanswered, hhalts⟩ :=
            ih (apply checkOnly tx l).ledger
          exact ⟨line :: before, later, answer :: answers, m, result, n, rfl,
            .answer hread hanswer hanswered, hhalts⟩

/-- What is left of a command that halts at once.  The disk is written to in every case, also when
the command was stopped. -/
theorem Halts.session (h : Halts checkOnly l rest result n) (d : Disk) (output : List Json)
    (log : List LogEntry) :
    ∃ log', applyLines checkOnly d rest l output log = ⟨result, output, log', d.keep n⟩ := by
  cases h with
  | done => exact ⟨log, rfl⟩
  | malformed hread => exact ⟨log, by rw [applyLines, hread]⟩
  | @fatal line later tx f hread hresult hfatal =>
    refine ⟨log ++ (apply checkOnly tx l).log, ?_⟩
    rw [applyLines, hread]
    dsimp only
    rw [hresult]
    exact if_pos hfatal

namespace Answered

/-- What is left of a command that answers lines and halts at the next one.  The induction is over
the answers, with the output and the log so far general. -/
theorem session (h : Answered checkOnly l first answers m)
    (hhalts : Halts checkOnly m rest result n) (d : Disk) (output : List Json)
    (log : List LogEntry) :
    ∃ log', applyLines checkOnly d (first ++ rest) l output log
      = ⟨result, output ++ answers, log', d.keep n⟩ := by
  induction h generalizing output log with
  | nil l =>
    rw [List.append_nil]
    exact hhalts.session d output log
  | blank hread others ih =>
    obtain ⟨log', hsession⟩ := ih hhalts output log
    refine ⟨log', ?_⟩
    rw [List.cons_append, applyLines, hread]
    exact hsession
  | answer hread hanswer others ih =>
    rw [List.cons_append, applyLines_of_response hread hanswer]
    obtain ⟨log', hsession⟩ := ih hhalts (output ++ [_]) (log ++ _)
    rw [List.append_assoc, List.singleton_append] at hsession
    exact ⟨log', hsession⟩

/-- Lines in two parts are answered part by part.  The second part starts on the ledger that the
first one has left. -/
theorem split (h : Answered checkOnly l (first ++ second) answers n) :
    ∃ before after m, answers = before ++ after ∧ Answered checkOnly l first before m
      ∧ Answered checkOnly m second after n := by
  induction first generalizing l answers with
  | nil => exact ⟨[], answers, l, rfl, .nil l, h⟩
  | cons line rest ih =>
    cases h with
    | blank hread others =>
      obtain ⟨before, after, m, rfl, hbefore, hafter⟩ := ih others
      exact ⟨before, after, m, rfl, .blank hread hbefore, hafter⟩
    | answer hread hanswer others =>
      obtain ⟨before, after, m, rfl, hbefore, hafter⟩ := ih others
      exact ⟨_ :: before, after, m, rfl, .answer hread hanswer hbefore, hafter⟩

/-- Every line that is not blank is answered once.  So an answer can be matched with its line by
counting. -/
theorem length (h : Answered checkOnly l lines answers m) :
    answers.length = lines.countP fun line => !isBlank line := by
  induction h with
  | nil l => rfl
  | blank hread others ih =>
    rw [List.countP_cons_of_neg (by simp [isBlank_of_read hread]), ih]
  | answer hread hanswer others ih =>
    rw [List.countP_cons_of_pos (by simp [not_isBlank_of_read hread]), List.length_cons, ih]

end Answered

end Command

namespace Ledger

open Command (Answered Halts Readable response?)

variable {checkOnly : Bool} {l m n : Ledger} {lines rest : List Bytes} {answers : List Json}
  {result : Except CommandFault Unit} {tx : Transaction} {f : Failure} {path : String} {syncs : Bool}
  {bytes : Bytes} {batches : List Batch} {given : Nat} {σ : Snapshot}

/-! ### Ledgers with one store -/

/-- A check writes nothing.  It is an empty sequence of records, so checks need no case of their
own. -/
theorem wrote_check (tx : Transaction) (l : Ledger) : l.Wrote (l.check tx).ledger [] := by
  unfold Ledger.check
  cases l.price tx <;> exact .nothing rfl rfl

namespace Alike

theorem apply (h : l.Alike m) (checkOnly : Bool) (tx : Transaction) :
    (Command.apply checkOnly tx l).result = (Command.apply checkOnly tx m).result
      ∧ ∃ batches, l.Wrote (Command.apply checkOnly tx l).ledger batches
        ∧ m.Wrote (Command.apply checkOnly tx m).ledger batches := by
  obtain ⟨hcheck, halike⟩ := h.check tx
  have hl := wrote_check tx l
  have hm := wrote_check tx m
  unfold Command.apply
  dsimp only
  rw [hcheck]
  cases (m.check tx).result with
  | error f => exact ⟨rfl, [], hl, hm⟩
  | ok cost =>
    cases checkOnly with
    | true => exact ⟨rfl, [], hl, hm⟩
    | false =>
      obtain ⟨hdeliver, batches, hwrote, hwrote'⟩ := halike.deliver tx
      exact ⟨congrArg (Except.map _) hdeliver, batches, hl.trans hwrote, hm.trans hwrote'⟩

/-- Lines get the same answers and write the same records, if two ledgers differ in nothing but
their counters and their past.  It is what makes opening the ledger again between two lines
invisible. -/
theorem answered {l' : Ledger} (h : l.Alike l') (hanswered : Answered checkOnly l lines answers m) :
    ∃ batches m', Answered checkOnly l' lines answers m' ∧ l.Wrote m batches
      ∧ l'.Wrote m' batches := by
  induction hanswered generalizing l' with
  | nil l => exact ⟨[], l', .nil l', .nothing rfl rfl, .nothing rfl rfl⟩
  | blank hread others ih =>
    obtain ⟨batches, m', hanswered', hwrote, hwrote'⟩ := ih h
    exact ⟨batches, m', .blank hread hanswered', hwrote, hwrote'⟩
  | answer hread hanswer others ih =>
    obtain ⟨hresult, first, hfirst, hfirst'⟩ := h.apply checkOnly _
    obtain ⟨batches, m', hanswered', hwrote, hwrote'⟩ := ih (h.wrote hfirst hfirst')
    rw [hresult] at hanswer
    exact ⟨first ++ batches, m', .answer hread hanswer hanswered', hfirst.trans hwrote,
      hfirst'.trans hwrote'⟩

end Alike

/-- A transaction that is answered with a failure writes nothing, be it refused by its check or by
its delivery. -/
theorem Writes.wrote_of_error (h : l.Writes path syncs bytes)
    (herror : (Command.apply checkOnly tx l).result = .error f) :
    l.Wrote (Command.apply checkOnly tx l).ledger [] := by
  have hcheck := wrote_check tx l
  obtain ⟨hledger, -⟩ | ⟨cost, -, hledger, hfailed⟩ := Command.apply_cases checkOnly tx l
  · rw [hledger]
    exact hcheck
  · rw [hledger]
    -- The answer to a transaction that is made is no failure, so this one was refused.
    rcases (hcheck.journal _ _ _ h).deliver tx with ⟨outcome, -, hok, -⟩ | ⟨g, -, hwrote⟩
    · cases (hfailed f herror).symm.trans hok
    · exact hcheck.trans hwrote

/-! ### Ledgers on record -/

/-- The journal of a ledger lies at a path, takes every record that is not too long, and holds bytes
that say what the ledger holds.  That is sound, and no sequence has given out more than so many
numbers.  The bound grows with every line, so that a hypothesis on the number of lines is enough. -/
structure OnRecord (l : Ledger) (path : String) (syncs : Bool) (bytes : Bytes) (given : Nat) :
    Prop where
  writes : l.Writes path syncs bytes
  replays : ∃ count, IsReplay bytes count .empty l.store
  sound : ∃ σ, l.Shows σ ∧ ∀ q, (σ.last q).toNat ≤ given

namespace OnRecord

variable {later : Nat} (h : l.OnRecord path syncs bytes given)
include h

theorem mono (hle : given ≤ later) : l.OnRecord path syncs bytes later := by
  obtain ⟨σ, hσ, hlast⟩ := h.sound
  exact ⟨h.writes, h.replays, σ, hσ, fun q => (hlast q).trans hle⟩

/-- Batches that are written are put on record.  The store and the bytes move together, and what is
left to show is that the store is sound. -/
theorem wrote (hwrote : l.Wrote m batches)
    (hsound : ∃ σ, m.Shows σ ∧ ∀ q, (σ.last q).toNat ≤ later) :
    m.OnRecord path syncs (bytes ++ inRow batches) later where
  writes := hwrote.journal _ _ _ h.writes
  replays := by
    obtain ⟨count, hreplays⟩ := h.replays
    rw [hwrote.store]
    exact ⟨_, hreplays.append hwrote.fits⟩
  sound := hsound

theorem check (tx : Transaction) : (l.check tx).ledger.OnRecord path syncs bytes given := by
  obtain ⟨σ, hσ, hlast⟩ := h.sound
  have hwrote := wrote_check tx l
  have hrecord := h.wrote hwrote ⟨σ, hσ.of_store_eq hwrote.store, hlast⟩
  rwa [inRow_nil, List.append_nil] at hrecord

/-- A transaction takes at most one number of a sequence.  It may take numbers from two sequences,
when it schedules the deletion of an article. -/
theorem deliver (hspare : given + 1 < UInt64.size) (tx : Transaction) :
    ∃ batches, l.Wrote (l.deliver tx).ledger batches
      ∧ (l.deliver tx).ledger.OnRecord path syncs (bytes ++ inRow batches) (given + 1) := by
  obtain ⟨σ, hσ, hlast⟩ := h.sound
  have hnext : ∀ q, l.HasNext q := fun q => hσ.hasNext_of_lt (by have := hlast q; omega)
  obtain ⟨τ, heffect, hτ⟩ := hσ.run (.deliver tx) fun q _ => hnext q
  obtain ⟨batches, -, hwrote⟩ := h.writes.run (.deliver tx)
  refine ⟨batches, hwrote, h.wrote hwrote ⟨τ, hτ, fun q => ?_⟩⟩
  have hle := hlast q
  rcases heffect.last q with ⟨-, hgiven⟩ | ⟨-, hgiven⟩
  · omega
  · rw [hgiven]
    omega

/-- A tick takes no number of a sequence.  It may be stopped by its journal, and the ledger is on
record then as well. -/
theorem tick (now : Timestamp) :
    ∃ bytes', (l.tick now).ledger.OnRecord path syncs bytes' given := by
  obtain ⟨σ, hσ, hlast⟩ := h.sound
  obtain ⟨τ, heffect, hτ⟩ := hσ.run (.tick now l.maxTasks) fun _ => nofun
  obtain ⟨batches, -, hwrote⟩ := h.writes.tick now
  refine ⟨_, h.wrote hwrote ⟨τ, hτ, fun q => ?_⟩⟩
  rcases heffect.last q with ⟨htakes, -⟩ | ⟨-, hsame⟩
  · exact htakes.elim
  · rw [hsame]
    exact hlast q

theorem apply (hspare : given + 1 < UInt64.size) (checkOnly : Bool) (tx : Transaction) :
    ∃ batches, l.Wrote (Command.apply checkOnly tx l).ledger batches
      ∧ (Command.apply checkOnly tx l).ledger.OnRecord path syncs (bytes ++ inRow batches)
        (given + 1) := by
  have hcheck := wrote_check tx l
  obtain ⟨hledger, -⟩ | ⟨cost, -, hledger, -⟩ := Command.apply_cases checkOnly tx l
  · rw [hledger]
    refine ⟨[], hcheck, ?_⟩
    rw [inRow_nil, List.append_nil]
    exact (h.check tx).mono (Nat.le_succ given)
  · rw [hledger]
    obtain ⟨batches, hwrote, hrecord⟩ := (h.check tx).deliver hspare tx
    exact ⟨batches, hcheck.trans hwrote, hrecord⟩

/-- A transaction takes at most one number of a sequence, so do lines.  The induction is over the
lines that are answered. -/
theorem answered (hspare : given + lines.length < UInt64.size)
    (hanswered : Answered checkOnly l lines answers m) :
    ∃ batches, l.Wrote m batches
      ∧ m.OnRecord path syncs (bytes ++ inRow batches) (given + lines.length) := by
  induction hanswered generalizing bytes given with
  | nil l =>
    refine ⟨[], .nothing rfl rfl, ?_⟩
    rw [inRow_nil, List.append_nil]
    exact h
  | blank hread others ih =>
    rw [List.length_cons] at hspare ⊢
    obtain ⟨batches, hwrote, hrecord⟩ := ih h (by omega)
    exact ⟨batches, hwrote, hrecord.mono (by omega)⟩
  | answer hread hanswer others ih =>
    rw [List.length_cons] at hspare ⊢
    obtain ⟨first, hfirst, hrecord⟩ := h.apply (by omega) checkOnly _
    obtain ⟨batches, hwrote, hlater⟩ := ih hrecord (by omega)
    rw [List.append_assoc, ← inRow_append] at hlater
    exact ⟨first ++ batches, hfirst.trans hwrote, hlater.mono (by omega)⟩

/-- Where a command ends, the ledger is on record.  A transaction that has stopped the command has
written nothing, or its record is in the journal. -/
theorem halts (hspare : given + rest.length < UInt64.size)
    (hhalts : Halts checkOnly l rest result n) :
    ∃ bytes', n.OnRecord path syncs bytes' (given + rest.length) := by
  cases hhalts with
  | done => exact ⟨bytes, h⟩
  | malformed hread => exact ⟨bytes, h.mono (Nat.le_add_right _ _)⟩
  | fatal hread hresult hfatal =>
    rw [List.length_cons] at hspare ⊢
    obtain ⟨batches, -, hrecord⟩ := h.apply (by omega) checkOnly _
    exact ⟨_, hrecord.mono (by omega)⟩

/-- A transaction that its check accepts is refused only if its record is too long.  Everything else
that could go wrong after the check is excluded by soundness or by the condition of the journal. -/
theorem deliver_error (hspare : given + 1 < UInt64.size) {cost : Nat} (hprice : l.price tx = .ok cost)
    (herror : (l.deliver tx).result = .error f) : f = .of (.storage .oversized) := by
  obtain ⟨σ, hσ, hlast⟩ := h.sound
  have hnext : σ.Spare tx.message := fun q _ =>
    (hσ.hasNext_iff q).1 (hσ.hasNext_of_lt (by have := hlast q; omega))
  obtain ⟨-, outcome, -, s, -, hprepare, -, -⟩ := prepare_of_price hσ hnext hprice
  rcases h.writes.commit (ne_nil_of_prepare hprepare) with ⟨-, hcommit, -⟩ | ⟨-, hcommit, -⟩
  · cases herror.symm.trans (deliver_of_prepare_ok hprepare hcommit)
  · cases herror.symm.trans (deliver_of_commit_error hprepare hcommit)
    rfl

/-- A transaction stops a command only if its record is too long.  A check refuses nothing with a
fatal failure on a sound snapshot. -/
theorem oversized (hspare : given + 1 < UInt64.size)
    (hresult : (Command.apply checkOnly tx l).result = .error f) (hfatal : f.isFatal = true) :
    f = .of (.storage .oversized) := by
  obtain ⟨-, hrefused⟩ | ⟨cost, hprice, -, hfailed⟩ := Command.apply_cases checkOnly tx l
  · -- What the check refuses is not fatal.
    obtain ⟨σ, hσ, -⟩ := h.sound
    cases (hσ.mild_price tx f (hrefused f hresult)).symm.trans hfatal
  · have hsame := price_congr (wrote_check tx l).store tx
    exact (h.check tx).deliver_error hspare (hsame.trans hprice) (hfailed f hresult)

/-- All lines are answered, if they can be read and no record is too long.  It is stated with the
two possibilities, since whether a record is too long can be seen only when it is written. -/
theorem exists_answers (hspare : given + lines.length < UInt64.size)
    (hread : ∀ line ∈ lines, Readable line) (checkOnly : Bool) :
    (∃ answers m, Answered checkOnly l lines answers m)
      ∨ ∀ d output log, (Command.applyLines checkOnly d lines l output log).result
        = .error (.ledger (.of (.storage .oversized))) := by
  obtain ⟨before, rest, answers, m, result, n, rfl, hanswered, hhalts⟩ :=
    Command.exists_answered checkOnly lines l
  cases hhalts with
  | done =>
    rw [List.append_nil]
    exact .inl ⟨answers, m, hanswered⟩
  | @malformed line later fault hfault =>
    obtain ⟨found, hfound⟩ := hread line (List.mem_append_right _ List.mem_cons_self)
    cases hfault.symm.trans hfound
  | fatal hfound hresult hfatal =>
    rw [List.length_append, List.length_cons] at hspare
    obtain ⟨_, -, hrecord⟩ := h.answered (by omega) hanswered
    obtain rfl := hrecord.oversized (by omega) hresult hfatal
    refine .inr fun d output log => ?_
    obtain ⟨log', hsession⟩ := hanswered.session (.fatal hfound hresult hfatal) d output log
    rw [hsession]

end OnRecord

end Ledger

end BlogLedger

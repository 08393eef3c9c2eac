import CodexRemote.Verified.AsyncQuestion.Moves

/-! # Observations and their promotion

An observation is pinned to the only active job of its thread.  It becomes a question while that
job, in the same attempt, runs its turn, and then it leaves the inbox, unless its row is kept for
an archived room.
-/

namespace CodexRemote.Verified.AsyncQuestion

open Foundations Store Store.AsyncQuestion

variable {ρ : Type}

/-- No waiting observation is a question already, but for the rows kept for archived rooms. -/
def Apart (db : AsyncDb ρ) : Prop :=
  ∀ id i, db.inbox.find id = some i → i.state = .waiting → (db.questions.find id).isSome →
    db.queue.archive.recordRetired .asyncQuestionInbox id = true

/-- The jobs stay, and the records of archived rooms only accumulate. -/
structure QueueKept (db next : AsyncDb ρ) : Prop where
  jobs : next.queue.jobs = db.queue.jobs
  records : db.queue.archive.Extends next.queue.archive

theorem QueueKept.refl (db : AsyncDb ρ) : QueueKept db db := ⟨rfl, .refl _⟩

theorem QueueKept.trans {a b c : AsyncDb ρ} (left : QueueKept a b) (right : QueueKept b c) :
    QueueKept a c :=
  ⟨right.jobs.trans left.jobs, left.records.trans right.records⟩

theorem QuestionsOnly.kept {db next : AsyncDb ρ} (only : QuestionsOnly db next) :
    QueueKept db next := by
  refine ⟨only.jobs, ?_⟩
  rw [only.archive]
  exact .refl _

/-! ## Rows of the inbox -/

/-- What an observation was pinned to stays, and an expired one is not revived. -/
structure SameObservation (i later : InboxRow) : Prop where
  pin : later = { i with state := later.state, body := later.body }
  waiting : later.state = .waiting → i.state = .waiting

theorem SameObservation.refl (i : InboxRow) : SameObservation i i := ⟨rfl, fun waiting => waiting⟩

/-- The observation is pinned to the only job of its thread that is not pending. -/
structure Observed (db : AsyncDb ρ) (i : InboxRow) (job : QueueRow) : Prop where
  sole : nonpending db.queue i.threadId = [job]
  candidate : i.candidateJobId = job.jobId
  channel : i.candidateChannelId = job.channelId
  owner : job.ownerUserId = some i.candidateOwnerId
  generation : i.candidateGeneration = some job.appServerGeneration
  execution : i.candidateExecutionGeneration = job.executionGeneration
  attempt : i.candidateAttemptCount = some job.attemptCount

/-- An observation was there before, or it is a new one of a question that was not known. -/
def InboxMoves (db next : AsyncDb ρ) : Prop :=
  ∀ id later, next.inbox.find id = some later →
    (∃ i, db.inbox.find id = some i ∧ SameObservation i later) ∨
      (db.inbox.find id = none ∧ db.questions.find id = none ∧ ∃ job, Observed db later job)

theorem InboxMoves.of_same {db next : AsyncDb ρ} (same : next.inbox = db.inbox) :
    InboxMoves db next := fun _ later found => Or.inl ⟨later, same ▸ found, .refl later⟩

theorem InboxMoves.of_update {db : AsyncDb ρ} {condition : InboxRow → Bool}
    {assign : InboxRow → InboxRow} {keeps : ∀ r, (assign r).id = r.id}
    (each : ∀ i, condition i = true → SameObservation i (assign i)) :
    InboxMoves db (updateInbox db condition assign keeps) := by
  intro id later found
  simp only [updateInbox, Table.find_update, Option.map_eq_some_iff] at found
  obtain ⟨i, there, rfl⟩ := found
  refine Or.inl ⟨i, there, ?_⟩
  split
  · next selected =>
    simp only [Bool.and_eq_true] at selected
    exact each i selected.1
  · exact .refl i

variable {db : AsyncDb ρ}

/-- Steps that insert no question keep the two tables apart. -/
theorem Apart.of_moves {next : AsyncDb ρ} (apart : Apart db) (moves : InboxMoves db next)
    (records : db.queue.archive.Extends next.queue.archive)
    (absent : ∀ id, db.questions.find id = none → next.questions.find id = none) : Apart next := by
  intro id later found waiting asked
  have known : (db.questions.find id).isSome := by
    cases before : db.questions.find id with
    | some row => rfl
    | none =>
      rw [absent id before] at asked
      cases asked
  obtain ⟨i, there, same⟩ | ⟨_, unknown, _⟩ := moves id later found
  · exact records.recordRetired (apart id i there (same.waiting waiting) known)
  · rw [unknown] at known
    cases known

/-! ## Recording -/

theorem mem_nonpending {db : QueueDb ρ} {thread : String} {row : QueueRow} :
    row ∈ nonpending db thread ↔
      row ∈ db.jobs.rows ∧ row.targetThreadId = thread ∧ row.state ≠ .pending := by
  simp [nonpending, Table.select]

theorem sole_nonpending {db : QueueDb ρ} {thread : String} {row : QueueRow}
    (sole : nonpending db thread = [row]) :
    (row ∈ db.jobs.rows ∧ row.targetThreadId = thread ∧ row.state ≠ .pending) ∧
      ∀ other ∈ db.jobs.rows, other.targetThreadId = thread → other.state ≠ .pending →
        other = row := by
  refine ⟨mem_nonpending.1 (by rw [sole]; simp), fun other there target active => ?_⟩
  have member := mem_nonpending.2 ⟨there, target, active⟩
  rw [sole] at member
  exact List.mem_singleton.1 member

theorem insertObservation_ok {row : InboxRow}
    (absent : db.inbox.find row.id = none) (unasked : db.questions.find row.id = none)
    {job : QueueRow} (observed : Observed db row job) :
    InboxMoves db (insertObservation db row) ∧ QueueKept db (insertObservation db row) ∧
      (insertObservation db row).questions = db.questions := by
  unfold insertObservation
  split
  · exact ⟨.of_same rfl, .refl db, rfl⟩
  · refine ⟨fun id later found => ?_, ⟨rfl, Archive.capture_extends _ _ _ _⟩, rfl⟩
    replace found : (db.inbox.insertOrIgnore row).find id = some later := found
    rw [Table.find_insertOrIgnore] at found
    split at found
    · next here =>
      subst here
      rw [absent] at found
      cases found
      exact Or.inr ⟨absent, unasked, job, observed⟩
    · exact Or.inl ⟨later, found, .refl later⟩

theorem recordObservationIn_ok {hooks : QuestionHooks ρ} {n : NewQuestion} {next : AsyncDb ρ}
    {answer : Unit} (result : recordObservationIn hooks n db = .ok (answer, next)) :
    InboxMoves db next ∧ QueueKept db next ∧ next.questions = db.questions := by
  unfold recordObservationIn at result
  obtain ⟨⟨body, now⟩, _, result⟩ := bind_ok.1 result
  dsimp only at result
  split at result
  · split at result
    · cases result
    · obtain ⟨_, result⟩ := guard_ok.1 result
      cases result
      exact ⟨.of_same rfl, .refl db, rfl⟩
  · next unknown =>
    split at result
    · next job sole =>
      split at result
      · next owner owned =>
        cases result
        rw [Option.or_eq_none_iff, Option.map_eq_none_iff, Option.map_eq_none_iff] at unknown
        exact insertObservation_ok unknown.2 unknown.1
          ⟨sole, rfl, rfl, owned, rfl, rfl, rfl⟩
      · cases result
    · cases result

/-! ## Promotion -/

/-- What a list of inserted questions does -/
structure Inserted (db : AsyncDb ρ) (rows : List QuestionRow) (next : AsyncDb ρ) : Prop where
  kept : ∀ id row, db.questions.find id = some row → next.questions.find id = some row
  fresh : ∀ id row, db.questions.find id = none → next.questions.find id = some row → row ∈ rows
  queue : QueueKept db next
  inbox : next.inbox = db.inbox

theorem insertQuestion_ok (inserted : Nat) (db : AsyncDb ρ) (row : QuestionRow) :
    Inserted db [row] (insertQuestion (inserted, db) row).2 := by
  unfold insertQuestion
  dsimp only
  split
  · refine ⟨fun _ _ found => found, fun id row absent found => ?_, .refl db, rfl⟩
    replace found : db.questions.find id = some row := found
    rw [absent] at found
    cases found
  · next free =>
    simp only [Bool.or_eq_true, not_or, Bool.not_eq_true, Option.isSome_eq_false_iff,
      Option.isNone_iff_eq_none] at free
    refine ⟨fun id other found => ?_, fun id other absent found => ?_,
      ⟨rfl, Archive.capture_extends _ _ _ _⟩, rfl⟩
    · show (db.questions.insertOrIgnore row).find id = some other
      rw [Table.find_insertOrIgnore, found]
      split <;> rfl
    · replace found : (db.questions.insertOrIgnore row).find id = some other := found
      rw [Table.find_insertOrIgnore, absent] at found
      split at found
      · cases found
        exact List.mem_singleton_self _
      · cases found

theorem insertQuestions_ok (rows : List QuestionRow) (inserted : Nat) (db : AsyncDb ρ) :
    Inserted db rows (rows.foldl insertQuestion (inserted, db)).2 := by
  induction rows generalizing inserted db with
  | nil =>
    refine ⟨fun _ _ found => found, fun id row absent found => ?_, .refl db, rfl⟩
    replace found : db.questions.find id = some row := found
    rw [absent] at found
    cases found
  | cons row rows ih =>
    have first := insertQuestion_ok inserted db row
    rw [List.foldl_cons]
    generalize insertQuestion (inserted, db) row = middle at first ⊢
    obtain ⟨count, middle⟩ := middle
    have rest := ih count middle
    refine ⟨fun id other found => rest.kept id other (first.kept id other found), ?_,
      first.queue.trans rest.queue, rest.inbox.trans first.inbox⟩
    intro id other absent found
    cases between : middle.questions.find id with
    | none => exact List.mem_cons_of_mem _ (rest.fresh id other between found)
    | some present =>
      have same := rest.kept id present between
      rw [found] at same
      cases same
      rw [List.mem_singleton.1 (first.fresh id other absent between)]
      exact List.mem_cons_self ..

/-- The pinned job is the only active one of its thread and runs the turn of the observation. -/
structure RunsAlone (db : AsyncDb ρ) (i : InboxRow) (job : QueueRow) : Prop where
  there : job ∈ db.queue.jobs.rows
  runs : runsPinned i job = true
  sole : ∀ other ∈ db.queue.jobs.rows, other.targetThreadId = i.threadId →
    other.state ≠ .pending → other = job

theorem promotable_ok {scope : Scope} {i : InboxRow}
    (promoted : promotable db.queue scope i = true) :
    scope.covers i = true ∧ ∃ job, RunsAlone db i job := by
  simp only [promotable, Bool.and_eq_true, beq_iff_eq, Table.contains, List.any_eq_true] at promoted
  obtain ⟨⟨covered, job, there, runs⟩, count⟩ := promoted
  refine ⟨covered, job, there, runs, fun other present target active => ?_⟩
  obtain ⟨row, sole⟩ := List.length_eq_one_iff.1 count
  have pinned := runs
  simp only [runsPinned, Bool.and_eq_true, beq_iff_eq] at pinned
  have here : job = row := (sole_nonpending sole).2 job there pinned.1.1.1.1.1.1.1.2
    (by rw [pinned.1.1.1.1.1.2]; simp)
  rw [here]
  exact (sole_nonpending sole).2 other present target active

/-- What a promotion does to the store -/
structure Reconciled (db next : AsyncDb ρ) : Prop where
  kept : ∀ id row, db.questions.find id = some row → next.questions.find id = some row
  fresh : ∀ id row, db.questions.find id = none → next.questions.find id = some row →
    ∃ i job, db.inbox.find id = some i ∧ i.state = .waiting ∧ RunsAlone db i job ∧ row = i.question
  inbox : InboxMoves db next
  queue : QueueKept db next

theorem reconcileIn_ok (scope : Scope) (db : AsyncDb ρ) : Reconciled db (reconcileIn scope db).2 := by
  have inserted := insertQuestions_ok
    ((db.inbox.select (promotable db.queue scope)).map InboxRow.question) 0 db
  unfold reconcileIn
  dsimp only
  generalize List.foldl insertQuestion (0, db) _ = middle at inserted ⊢
  obtain ⟨count, middle⟩ := middle
  refine ⟨inserted.kept, fun id row absent found => ?_, fun id later found => ?_,
    ⟨inserted.queue.jobs, inserted.queue.records⟩⟩
  · obtain ⟨i, chosen, rfl⟩ := List.mem_map.1 (inserted.fresh id row absent found)
    obtain ⟨there, promoted⟩ := List.mem_filter.1 chosen
    obtain ⟨covered, job, alone⟩ := promotable_ok promoted
    have named : i.question.id = id := Table.find_key found
    simp only [Scope.covers, Bool.and_eq_true, beq_iff_eq] at covered
    exact ⟨i, job, named ▸ Table.find_of_mem there, covered.2, alone, rfl⟩
  · have before : middle.inbox.find id = some later := by
      simp only [deleteObservations, Table.find_delete, Option.filter_eq_some_iff] at found
      exact found.1
    exact Or.inl ⟨later, inserted.inbox ▸ before, .refl later⟩

/-- A promoted observation leaves the inbox. -/
theorem reconcileIn_apart (scope : Scope) (apart : Apart db) :
    Apart (reconcileIn scope db).2 := by
  have inserted := insertQuestions_ok
    ((db.inbox.select (promotable db.queue scope)).map InboxRow.question) 0 db
  unfold reconcileIn
  dsimp only
  generalize List.foldl insertQuestion (0, db) _ = middle at inserted ⊢
  obtain ⟨count, middle⟩ := middle
  intro id i found waiting asked
  simp only [deleteObservations, Table.find_delete, Option.filter_eq_some_iff] at found
  obtain ⟨present, left⟩ := found
  rw [inserted.inbox] at present
  cases before : db.questions.find id with
  | some row =>
    exact inserted.queue.records.recordRetired (apart id i present waiting (by rw [before]; rfl))
  | none =>
    obtain ⟨q, now⟩ := Option.isSome_iff_exists.1 asked
    obtain ⟨j, chosen, same⟩ := List.mem_map.1 (inserted.fresh id q before now)
    obtain ⟨there, promoted⟩ := List.mem_filter.1 chosen
    have named : j.id = id := (congrArg QuestionRow.id same).trans (Table.find_key now)
    have own : i = j := Option.some.inj (present.symm.trans (named ▸ Table.find_of_mem there))
    subst own same
    have preserved : preserves i i.question = true := by simp [preserves, InboxRow.question]
    have taken : middle.questions.contains (preserves i) = true :=
      List.any_eq_true.2 ⟨_, Table.mem_of_find now, preserved⟩
    rw [(promotable_ok promoted).1, taken] at left
    rw [← named]
    show middle.queue.archive.recordRetired .asyncQuestionInbox i.id = true
    simpa using left

end CodexRemote.Verified.AsyncQuestion

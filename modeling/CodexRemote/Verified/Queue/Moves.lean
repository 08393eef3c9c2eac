import CodexRemote.Foundations.Runs
import CodexRemote.Store.Queue.StartingHold

/-! # What the claim operations do to a job

The inversion theorem at the end says everything one operation can do to one row of the
queue.  The claims about runs only use that.
-/

namespace CodexRemote.Verified.Queue

open Foundations Store

variable {ρ : Type}

/-! ## Update statements -/

variable {db next : QueueDb ρ} {hooks : QueueHooks ρ} {jobId : String}
  {answer : Option StoredQueueJob} {claimed : StoredQueueJob} {row : QueueRow} {generation : Int}
  {now : Rat} {event : QueueEvent}

theorem updateJobs_ok {condition : QueueRow → Bool}
    {assign : QueueRow → QueueRow} {keeps : ∀ r, (assign r).jobId = r.jobId} {changed : Nat}
    (result : updateJobs hooks db condition assign keeps = .ok (changed, next)) :
    changed = db.jobs.count (fun r => condition r && !db.archive.frozen .turnQueue r.jobId) ∧
      next = { db with
        jobs := db.jobs.update (fun r => condition r && !db.archive.frozen .turnQueue r.jobId)
          assign keeps } ∧
      ∀ r ∈ db.jobs.rows, (condition r && !db.archive.frozen .turnQueue r.jobId) = true →
        updateFence hooks db r (assign r) = none := by
  unfold updateJobs at result
  simp only at result
  split at result
  · cases result
  · next fences =>
    simp only [Except.ok.injEq, Prod.mk.injEq] at result
    refine ⟨result.1.symm, result.2.symm, ?_⟩
    intro r member selected
    exact List.findSome?_eq_none_iff.1 fences r (List.mem_filter.2 ⟨member, selected⟩)

/-- An update of one job changes nothing, or the row of that job and no other. -/
theorem updateJob_ok {condition : QueueRow → Bool} {assign : QueueRow → QueueRow}
    {keeps : ∀ r, (assign r).jobId = r.jobId} {updated : Bool}
    (result : updateJob hooks db jobId condition assign keeps = .ok (updated, next)) :
    (updated = false ∧ next = db) ∨
      (updated = true ∧ next = { db with jobs := next.jobs } ∧ ∃ row,
        db.jobs.find jobId = some row ∧ condition row = true ∧
        next.jobs.find jobId = some (assign row) ∧
        (∀ other, other ≠ jobId → next.jobs.find other = db.jobs.find other) ∧
        updateFence hooks db row (assign row) = none) := by
  unfold updateJob at result
  obtain ⟨⟨changed, middle⟩, statement, same⟩ := map_ok.1 result
  obtain ⟨count, final, fences⟩ := updateJobs_ok statement
  simp only [Prod.mk.injEq] at same
  obtain ⟨answer, rfl⟩ := same
  have named : ∀ r : QueueRow, ((r.jobId == jobId && condition r) &&
      !db.archive.frozen .turnQueue r.jobId) = true → r.jobId = jobId := by
    intro r selected
    simp only [Bool.and_eq_true, beq_iff_eq] at selected
    exact selected.1.1
  rcases Table.update_keyed named with ⟨zero, same⟩ | ⟨one, row, found, selected, after, others⟩
  · left
    refine ⟨by rw [← answer, count, zero]; rfl, ?_⟩
    rw [final, same]
  · right
    have fence := fences row (Table.mem_of_find found) selected
    simp only [Bool.and_eq_true] at selected
    refine ⟨by rw [← answer, count, one]; rfl, by rw [final], row, found, selected.1.2, ?_, ?_, fence⟩
    · rw [final]
      exact after
    · rw [final]
      exact others

/-- What follows an update writes the tables of other modules only. -/
theorem claimedResult_ok {updated : Bool}
    (result : claimedResult hooks db jobId updated = .ok (answer, next)) :
    (updated = false ∧ answer = none ∧ next = db) ∨
      (updated = true ∧ (∃ rest, next = { db with rest := rest }) ∧
        ∃ job, answer = some job ∧ selectJob db jobId = .ok job) := by
  unfold claimedResult at result
  cases updated with
  | false =>
    simp only [Bool.not_false, if_true, Except.ok.injEq, Prod.mk.injEq] at result
    exact Or.inl ⟨rfl, result.1.symm, result.2.symm⟩
  | true =>
    simp only [Bool.not_true, Bool.false_eq_true, if_false] at result
    obtain ⟨job, selected, result⟩ := bind_ok.1 result
    obtain ⟨_, _, result⟩ := bind_ok.1 result
    obtain ⟨_, _, result⟩ := bind_ok.1 result
    simp only [Except.ok.injEq, Prod.mk.injEq] at result
    obtain ⟨rfl, rfl⟩ := result
    exact Or.inr ⟨rfl, ⟨_, rfl⟩, job, rfl, selected⟩

/-! ## Claims -/

/-- The row is the attempt that the claim describes. -/
structure HeldBy (claimed : StoredQueueJob) (row : QueueRow) : Prop where
  target : row.targetThreadId = claimed.targetThreadId
  generation : row.appServerGeneration = claimed.appServerGeneration
  attempt : row.attemptCount = claimed.attemptCount
  updatedAt : row.updatedAt = claimed.updatedAt
  baseline : row.baselineTurnIds = .turns claimed.baselineTurnIds
  state : row.state = .starting
  turnId : row.turnId = none

/-- No row of the queue is the attempt that the claim describes. -/
def Stale (db : QueueDb ρ) (claimed : StoredQueueJob) : Prop :=
  ∀ row, db.jobs.find claimed.jobId = some row → ¬HeldBy claimed row

theorem matchingBaseline_true
    (found : db.jobs.find claimed.jobId = some row) (result : matchingBaseline db claimed = .ok true) :
    row.baselineTurnIds = .turns claimed.baselineTurnIds := by
  unfold matchingBaseline at result
  rw [found, Option.map_some] at result
  cases column : row.baselineTurnIds with
  | turns ids =>
    simp only [column, Except.ok.injEq, beq_iff_eq] at result
    rw [result]
  | other decoded => simp [column] at result
  | malformed => simp [column] at result

theorem HeldBy.of_claimHolds (holds : claimHolds db claimed row = true)
    (baseline : row.baselineTurnIds = .turns claimed.baselineTurnIds) : HeldBy claimed row := by
  simp only [claimHolds, Bool.and_eq_true, beq_iff_eq, Option.isNone_iff_eq_none] at holds
  obtain ⟨⟨⟨⟨⟨⟨target, generation⟩, attempt⟩, updatedAt⟩, state⟩, turnId⟩, _⟩ := holds
  exact ⟨target, generation, attempt, updatedAt, baseline, state, turnId⟩

theorem decode_fields {job : StoredQueueJob} (decoded : row.decode = .ok job) :
    ∃ baseline, row.baselineTurnIds.decode = .ok baseline ∧ job.baselineTurnIds = baseline ∧
      job.jobId = row.jobId ∧ job.targetThreadId = row.targetThreadId ∧
      job.appServerGeneration = row.appServerGeneration ∧ job.attemptCount = row.attemptCount ∧
      job.updatedAt = row.updatedAt := by
  obtain ⟨baseline, ok, rfl⟩ := map_ok.1 decoded
  exact ⟨baseline, ok, rfl, rfl, rfl, rfl, rfl, rfl⟩

theorem selectJob_ok {job : StoredQueueJob}
    (selected : selectJob db jobId = .ok job) (found : db.jobs.find jobId = some row) :
    row.decode = .ok job := by
  unfold selectJob at selected
  rw [found] at selected
  exact selected

/-- A claim describes the row it was returned for. -/
theorem begin_heldBy {baseline : List String}
    {claim : StoredQueueJob} (decoded : (row.begin baseline generation now).decode = .ok claim) :
    HeldBy claim (row.begin baseline generation now) ∧ claim.jobId = row.jobId := by
  obtain ⟨ids, column, ids_eq, jobId, target, gen, attempt, updatedAt⟩ := decode_fields decoded
  have same : baseline = ids := Except.ok.inj column
  refine ⟨⟨target.symm, gen.symm, attempt.symm, updatedAt.symm, ?_, rfl, rfl⟩, jobId⟩
  rw [ids_eq, ← same]
  rfl

/-! ## Events -/

inductive QueueEvent where
  | began (jobId : String) (baseline : List String) (generation : Int)
      (answer : Except StoreError (Option StoredQueueJob))
  | marked (claimed : StoredQueueJob) (turnId : String) (resident : Option String)
      (answer : Except StoreError (Option StoredQueueJob))
  | startFailed (claimed : StoredQueueJob) (error : String) (ambiguous : Bool)
      (answer : Except StoreError (Option StoredQueueJob))
  | preflightFailed (jobId : String) (generation : Int) (error : String)
      (answer : Except StoreError (Option StoredQueueJob))
  | adopted (generation : Int) (answer : Except StoreError QueueGenerationAdoption)
  | held (claimed : StoredQueueJob) (candidates : List String)
      (answer : Except StoreError (Option StoredQueueJob))
  | surrounded

/-- The claim an operation is given. -/
def QueueEvent.claim? : QueueEvent → Option StoredQueueJob
  | .marked claimed _ _ _ | .startFailed claimed _ _ _ | .held claimed _ _ => some claimed
  | _ => none

/-- The job whose row a successful operation may have changed. -/
def QueueEvent.moved? : QueueEvent → Option String
  | .began jobId _ _ (.ok (some _)) => some jobId
  | .marked claimed _ _ (.ok (some _)) => some claimed.jobId
  | .startFailed claimed _ _ (.ok (some _)) => some claimed.jobId
  | .preflightFailed jobId _ _ (.ok (some _)) => some jobId
  | .held claimed _ (.ok (some _)) => some claimed.jobId
  | _ => none

def QueueEvent.failed : QueueEvent → Prop
  | .began _ _ _ (.error _) | .marked _ _ _ (.error _) | .startFailed _ _ _ (.error _)
  | .preflightFailed _ _ _ (.error _) | .adopted _ (.error _) | .held _ _ (.error _) => True
  | _ => False

/-- One operation with whatever checks and hooks it meets, or a failure in SQLite.  The rest of
the program may change every table but the jobs in between. -/
inductive QueueStep : QueueDb ρ → QueueEvent → QueueDb ρ → Prop where
  | began {db next : QueueDb ρ} (hooks : QueueHooks ρ) (jobId : String) (baseline : List String)
      (generation : Int) (now : Rat) {answer : Except StoreError (Option StoredQueueJob)}
      (call : tryBeginAttempt hooks jobId baseline generation now db = (answer, next)) :
      QueueStep db (.began jobId baseline generation answer) next
  | marked {db next : QueueDb ρ} (hooks : QueueHooks ρ) (claimed : StoredQueueJob)
      (turnId : String) (resident : Option String) (now : Rat)
      {answer : Except StoreError (Option StoredQueueJob)}
      (call : markRunningWithResidentIfClaimed hooks claimed turnId resident now db = (answer, next)) :
      QueueStep db (.marked claimed turnId resident answer) next
  | startFailed {db next : QueueDb ρ} (hooks : QueueHooks ρ) (claimed : StoredQueueJob)
      (error : String) (ambiguous : Bool) (now : Rat)
      {answer : Except StoreError (Option StoredQueueJob)}
      (call : recordStartFailureIfClaimed hooks claimed error ambiguous now db = (answer, next)) :
      QueueStep db (.startFailed claimed error ambiguous answer) next
  | preflightFailed {db next : QueueDb ρ} (hooks : QueueHooks ρ) (jobId : String)
      (generation : Int) (error : String) (now : Rat)
      {answer : Except StoreError (Option StoredQueueJob)}
      (call : recordPreflightFailure hooks jobId generation error now db = (answer, next)) :
      QueueStep db (.preflightFailed jobId generation error answer) next
  | adopted {db next : QueueDb ρ} (hooks : QueueHooks ρ) (generation : Int)
      {answer : Except StoreError QueueGenerationAdoption}
      (call : adoptGeneration hooks generation db = (answer, next)) :
      QueueStep db (.adopted generation answer) next
  | held {db next : QueueDb ρ} (hooks : QueueHooks ρ) (claimed : StoredQueueJob)
      (candidates : List String) (now : Rat) {answer : Except StoreError (Option StoredQueueJob)}
      (call : holdStartingForAmbiguousCandidatesIfClaimed hooks claimed candidates now db =
        (answer, next)) :
      QueueStep db (.held claimed candidates answer) next
  | failed (db : QueueDb ρ) (event : QueueEvent) (error : event.failed) : QueueStep db event db
  | surrounded {db next : QueueDb ρ} (jobs : next.jobs = db.jobs) : QueueStep db .surrounded next

abbrev QueueRun (db : QueueDb ρ) (events : List QueueEvent) (next : QueueDb ρ) : Prop :=
  Run QueueStep db events next

/-- The moves of one row of the queue. -/
inductive JobMove : QueueRow → QueueEvent → QueueRow → Prop where
  | still {row : QueueRow} {event : QueueEvent} (elsewhere : event.moved? ≠ some row.jobId) :
      JobMove row event row
  | begin {row : QueueRow} {baseline : List String} {generation : Int} {now : Rat}
      {claim : StoredQueueJob} (pending : row.state = .pending)
      (current : row.appServerGeneration = generation)
      (claimed : (row.begin baseline generation now).decode = .ok claim) :
      JobMove row (.began row.jobId baseline generation (.ok (some claim)))
        (row.begin baseline generation now)
  | run {row : QueueRow} {claimed running : StoredQueueJob} {turnId : String}
      {resident : Option String} {now : Rat} (own : claimed.jobId = row.jobId)
      (holds : HeldBy claimed row) :
      JobMove row (.marked claimed turnId resident (.ok (some running))) (row.run turnId now)
  | failStart {row : QueueRow} {claimed failed : StoredQueueJob} {error text : String}
      {ambiguous : Bool} {now : Rat} (own : claimed.jobId = row.jobId)
      (holds : HeldBy claimed row) :
      JobMove row (.startFailed claimed error ambiguous (.ok (some failed)))
        (row.failStart ambiguous text now)
  | failPreflight {row : QueueRow} {failed : StoredQueueJob} {generation : Int}
      {error text : String} {now : Rat} (pending : row.state = .pending) :
      JobMove row (.preflightFailed row.jobId generation error (.ok (some failed)))
        (row.failPreflight text now)
  | adopt {row : QueueRow} {generation : Int} {answer : Except StoreError QueueGenerationAdoption}
      (pending : row.state = .pending) : JobMove row (.adopted generation answer) (row.adopt generation)
  | mark {row : QueueRow} {claimed held : StoredQueueJob} {candidates : List String}
      {marker : String} {now : Rat} (own : claimed.jobId = row.jobId) (holds : HeldBy claimed row) :
      JobMove row (.held claimed candidates (.ok (some held))) (row.mark marker now)
  | refresh {row : QueueRow} {claimed held : StoredQueueJob} {candidates : List String}
      (own : claimed.jobId = row.jobId) (holds : HeldBy claimed row) :
      JobMove row (.held claimed candidates (.ok (some held))) row

/-- What a step does to the queue: the same jobs, each moved as above. -/
structure JobsMove (db : QueueDb ρ) (event : QueueEvent) (next : QueueDb ρ) : Prop where
  moved : ∀ id row, db.jobs.find id = some row →
    ∃ later, next.jobs.find id = some later ∧ JobMove row event later
  absent : ∀ id, db.jobs.find id = none → next.jobs.find id = none

theorem JobsMove.of_same {db next : QueueDb ρ} {event : QueueEvent} (same : next.jobs = db.jobs)
    (unmoved : event.moved? = none) : JobsMove db event next where
  moved id row found := ⟨row, same ▸ found, .still (by rw [unmoved]; simp)⟩
  absent _ gone := same ▸ gone

/-- A step that changes the row of the job it names. -/
theorem JobsMove.of_one {later : QueueRow} (named : event.moved? = some jobId)
    (found : db.jobs.find jobId = some row) (changed : next.jobs.find jobId = some later)
    (others : ∀ other, other ≠ jobId → next.jobs.find other = db.jobs.find other)
    (move : JobMove row event later) : JobsMove db event next where
  moved id r present := by
    by_cases same : id = jobId
    · subst same
      rw [found, Option.some.injEq] at present
      exact ⟨later, changed, present ▸ move⟩
    · refine ⟨r, (others id same).trans present, .still ?_⟩
      rw [named, Table.find_key present]
      exact fun equal => same (Option.some.inj equal).symm
  absent id gone := by
    by_cases same : id = jobId
    · subst same
      rw [found] at gone
      cases gone
    · exact (others id same).trans gone

/-! ## Each operation -/

/-- Only the queue and the tables of other modules differ. -/
def RowsOnly (db next : QueueDb ρ) : Prop :=
  ∃ rest, next = { db with jobs := next.jobs, rest := rest }

theorem RowsOnly.of_update {db middle : QueueDb ρ} (frame : middle = { db with jobs := middle.jobs })
    (rest : ρ) : RowsOnly db { middle with rest := rest } := by
  refine ⟨rest, ?_⟩
  conv_lhs => rw [frame]

theorem RowsOnly.intakes (only : RowsOnly db next) :
    next.intakes = db.intakes := by
  obtain ⟨_, frame⟩ := only
  rw [frame]

theorem RowsOnly.cancellations (only : RowsOnly db next) :
    next.cancellations = db.cancellations := by
  obtain ⟨_, frame⟩ := only
  rw [frame]

theorem not_cancelled {old new : QueueRow} (fence : updateFence hooks db old new = none) :
    cancelled db new.jobId new.discordMessageId = false := by
  unfold updateFence at fence
  split at fence
  · cases fence
  · next free => simpa using free

theorem refused_ok
    (result : (.ok (none, db) : Except StoreError (Option StoredQueueJob × QueueDb ρ)) =
      .ok (answer, next)) : answer = none ∧ next = db := by
  simp only [Except.ok.injEq, Prod.mk.injEq] at result
  exact ⟨result.1.symm, result.2.symm⟩

theorem tryBeginAttempt_spec {baseline : List String}
    (call : tryBeginAttempt hooks jobId baseline generation now db = (.ok answer, next)) :
    (answer = none ∧ next = db) ∨ ∃ claim row, answer = some claim ∧
      db.jobs.find jobId = some row ∧ claimable db generation row = true ∧
      holdReason db jobId = none ∧
      next.jobs.find jobId = some (row.begin baseline generation now) ∧
      (row.begin baseline generation now).decode = .ok claim ∧
      (∀ other, other ≠ jobId → next.jobs.find other = db.jobs.find other) ∧
      RowsOnly db next ∧ cancelled db row.jobId row.discordMessageId = false := by
  have result := commit_ok call
  unfold tryBeginAttemptIn at result
  split at result
  · exact Or.inl (refused_ok result)
  · next row found =>
    obtain ⟨candidate, _, result⟩ := bind_ok.1 result
    rcases ite_ok.1 result with ⟨_, result⟩ | ⟨_, result⟩
    · exact Or.inl (refused_ok result)
    · obtain ⟨_, _, result⟩ := bind_ok.1 result
      rcases ite_ok.1 result with ⟨_, result⟩ | ⟨open_, result⟩
      · exact Or.inl (refused_ok result)
      · obtain ⟨⟨updated, middle⟩, update, result⟩ := bind_ok.1 result
        simp only [Bool.or_eq_true, not_or, Bool.not_eq_true, Option.isSome_eq_false_iff,
          Option.isNone_iff_eq_none] at open_
        simp only at result
        rcases updateJob_ok update with ⟨unchanged, same⟩ |
          ⟨updatedTrue, frame, changed, present, holds, after, others, fence⟩
        · rw [unchanged, same] at result
          rcases claimedResult_ok result with ⟨_, refused, kept⟩ | ⟨impossible, _⟩
          · exact Or.inl ⟨refused, kept⟩
          · cases impossible
        · rcases claimedResult_ok result with
            ⟨impossible, _⟩ | ⟨_, ⟨rest, rfl⟩, claim, claimed, selected⟩
          · rw [updatedTrue] at impossible
            cases impossible
          · have free := not_cancelled fence
            exact Or.inr ⟨claim, changed, claimed, present, holds, open_.1.2, after,
              selectJob_ok selected after, others, .of_update frame rest, free⟩

theorem claimable_fields (holds : claimable db generation row = true) :
    row.state = .pending ∧ row.appServerGeneration = generation := by
  simp only [claimable, Bool.and_eq_true, beq_iff_eq] at holds
  exact ⟨holds.1.2, holds.1.1⟩

theorem recordPreflightFailure_spec {error : String}
    (call : recordPreflightFailure hooks jobId generation error now db = (.ok answer, next)) :
    (answer = none ∧ next = db) ∨ ∃ failed row, answer = some failed ∧
      db.jobs.find jobId = some row ∧ row.state = .pending ∧
      next.jobs.find jobId = some (row.failPreflight (boundedError error) now) ∧
      ∀ other, other ≠ jobId → next.jobs.find other = db.jobs.find other := by
  have result := commit_ok call
  unfold recordPreflightFailureIn at result
  obtain ⟨⟨updated, middle⟩, update, result⟩ := bind_ok.1 result
  simp only at result
  rcases updateJob_ok update with ⟨unchanged, same⟩ |
    ⟨updatedTrue, _, row, present, holds, after, others, _⟩
  · rw [unchanged, same] at result
    simp only [Bool.not_false, if_true, Except.ok.injEq, Prod.mk.injEq] at result
    exact Or.inl ⟨result.1.symm, result.2.symm⟩
  · rw [updatedTrue] at result
    simp only [Bool.not_true, Bool.false_eq_true, if_false] at result
    obtain ⟨failed, _, result⟩ := bind_ok.1 result
    simp only [Except.ok.injEq, Prod.mk.injEq] at result
    obtain ⟨answered, same⟩ := result
    simp only [Bool.and_eq_true, beq_iff_eq] at holds
    rw [← same]
    exact Or.inr ⟨failed, row, answered.symm, present, holds.2, after, others⟩

/-- A claimed update in its transaction: refused, or made on the very attempt of the claim. -/
structure ClaimedUpdate (db next : QueueDb ρ) (claimed : StoredQueueJob)
    (later : QueueRow → QueueRow) : Prop where
  held : ∃ row, db.jobs.find claimed.jobId = some row ∧ HeldBy claimed row ∧
    next.jobs.find claimed.jobId = some (later row)
  others : ∀ other, other ≠ claimed.jobId → next.jobs.find other = db.jobs.find other

theorem markRunning_spec {turnId : String} {resident : Option String}
    (call : markRunningWithResidentIfClaimed hooks claimed turnId resident now db =
      (.ok answer, next)) :
    (answer = none ∧ next = db) ∨ (answer.isSome ∧
      ClaimedUpdate db next claimed (fun r => r.run turnId now) ∧ RowsOnly db next) := by
  have result := commit_ok call
  unfold markRunningIn at result
  rcases ite_ok.1 result with ⟨_, result⟩ | ⟨_, result⟩
  · exact Or.inl (refused_ok result)
  · obtain ⟨matching, stored, result⟩ := bind_ok.1 result
    rcases ite_ok.1 result with ⟨_, result⟩ | ⟨matches_, result⟩
    · exact Or.inl (refused_ok result)
    · obtain ⟨⟨updated, middle⟩, update, result⟩ := bind_ok.1 result
      obtain ⟨rest, bound, result⟩ := bind_ok.1 result
      simp only [Bool.not_eq_true, Bool.not_eq_false'] at matches_
      rcases updateJob_ok update with ⟨unchanged, same⟩ |
        ⟨updatedTrue, frame, row, present, holds, after, others, _⟩
      · rw [unchanged, same] at bound
        simp only [Bool.not_false, if_true, Except.ok.injEq] at bound
        rw [unchanged, same, ← bound] at result
        rcases claimedResult_ok result with ⟨_, refused, kept⟩ | ⟨impossible, _⟩
        · exact Or.inl ⟨refused, kept⟩
        · cases impossible
      · rcases claimedResult_ok result with ⟨impossible, _⟩ | ⟨_, ⟨rest', rfl⟩, running, answered, _⟩
        · rw [updatedTrue] at impossible
          cases impossible
        · have baseline := matchingBaseline_true present (matches_ ▸ stored)
          exact Or.inr ⟨by rw [answered]; rfl,
            ⟨⟨row, present, .of_claimHolds holds baseline, after⟩, others⟩, .of_update frame rest'⟩

theorem recordStartFailure_spec {error : String} {ambiguous : Bool}
    (call : recordStartFailureIfClaimed hooks claimed error ambiguous now db = (.ok answer, next)) :
    (answer = none ∧ next = db) ∨ (answer.isSome ∧
      ClaimedUpdate db next claimed (fun r => r.failStart ambiguous (boundedError error) now)) := by
  have result := commit_ok call
  unfold recordStartFailureIn at result
  rcases ite_ok.1 result with ⟨_, result⟩ | ⟨_, result⟩
  · exact Or.inl (refused_ok result)
  · obtain ⟨matching, stored, result⟩ := bind_ok.1 result
    rcases ite_ok.1 result with ⟨_, result⟩ | ⟨matches_, result⟩
    · exact Or.inl (refused_ok result)
    · obtain ⟨⟨updated, middle⟩, update, result⟩ := bind_ok.1 result
      simp only [Bool.not_eq_true, Bool.not_eq_false'] at matches_
      simp only at result
      rcases updateJob_ok update with ⟨unchanged, same⟩ |
        ⟨updatedTrue, _, row, present, holds, after, others, _⟩
      · rw [unchanged, same] at result
        simp only [Bool.false_and, Bool.false_eq_true, if_false] at result
        rcases claimedResult_ok result with ⟨_, refused, kept⟩ | ⟨impossible, _⟩
        · exact Or.inl ⟨refused, kept⟩
        · cases impossible
      · have baseline := matchingBaseline_true present (matches_ ▸ stored)
        have claimedUpdate : ∀ (rest : ρ) (holds' : Table ExecutionHold.jobId),
            claimedResult hooks { middle with rest := rest, holds := holds' } claimed.jobId updated =
              .ok (answer, next) →
            answer.isSome ∧ ClaimedUpdate db next claimed
              (fun r => r.failStart ambiguous (boundedError error) now) := by
          intro rest holds' result
          rcases claimedResult_ok result with
            ⟨impossible, _⟩ | ⟨_, ⟨rest', rfl⟩, failed, answered, _⟩
          · rw [updatedTrue] at impossible
            cases impossible
          · exact ⟨by rw [answered]; rfl, ⟨row, present, .of_claimHolds holds baseline, after⟩, others⟩
        rcases ite_ok.1 result with ⟨_, result⟩ | ⟨_, result⟩
        · obtain ⟨rest, _, result⟩ := bind_ok.1 result
          exact Or.inr (claimedUpdate rest _ result)
        · exact Or.inr (claimedUpdate middle.rest middle.holds result)

theorem insertNotice_jobs {notice : OutboxNotice}
    (result : insertNotice hooks db notice = .ok next) : next.jobs = db.jobs := by
  unfold insertNotice at result
  split at result
  · cases result
  · rcases ite_ok.1 result with ⟨_, result⟩ | ⟨_, result⟩
    · exact congrArg QueueDb.jobs (Except.ok.inj result).symm
    · rcases ite_ok.1 result with ⟨_, result⟩ | ⟨_, result⟩
      · cases result
      · rw [← Except.ok.inj result]

theorem refreshNotice_jobs {held : StoredQueueJob} {content : String}
    (result : refreshNoticeIfPending hooks db held content now = .ok next) :
    next.jobs = db.jobs := by
  unfold refreshNoticeIfPending at result
  simp only at result
  split at result
  · cases result
  · rw [← Except.ok.inj result]

theorem exactStarting_holds
    (exact : exactStarting db claimed row = true) : claimHolds db claimed row = true := by
  simp only [exactStarting, Bool.and_eq_true] at exact
  exact exact.1.1.1.1.1.1.1.1.1

theorem holdStarting_spec {candidates : List String}
    (call : holdStartingForAmbiguousCandidatesIfClaimed hooks claimed candidates now db =
      (.ok answer, next)) :
    (answer = none ∧ next = db) ∨ (answer.isSome ∧
      (ClaimedUpdate db next claimed id ∨
        ∃ marker, ClaimedUpdate db next claimed (fun r => r.mark marker now))) := by
  have result := commit_ok call
  unfold holdStartingIn at result
  simp only at result
  rcases ite_ok.1 result with ⟨_, result⟩ | ⟨_, result⟩
  · obtain ⟨exact, snapshot, result⟩ := bind_ok.1 result
    rcases ite_ok.1 result with ⟨_, result⟩ | ⟨same, result⟩
    · exact Or.inl (refused_ok result)
    · obtain ⟨middle, refreshed, result⟩ := bind_ok.1 result
      obtain ⟨current, _, result⟩ := bind_ok.1 result
      simp only [Except.ok.injEq, Prod.mk.injEq] at result
      obtain ⟨answered, rfl⟩ := result
      have jobs := refreshNotice_jobs refreshed
      simp only [Bool.not_eq_true, Bool.not_eq_false'] at same
      subst same
      unfold exactStartingSnapshotMatches at snapshot
      rcases ite_ok.1 snapshot with ⟨_, snapshot⟩ | ⟨_, snapshot⟩
      · cases snapshot
      · obtain ⟨matching, stored, snapshot⟩ := bind_ok.1 snapshot
        simp only [Except.ok.injEq, Bool.and_eq_true, Option.any_eq_true] at snapshot
        obtain ⟨matches_, row, present, holds⟩ := snapshot
        have baseline := matchingBaseline_true present (matches_ ▸ stored)
        refine Or.inr ⟨by rw [← answered]; rfl, Or.inl ⟨⟨row, present, ?_, ?_⟩, ?_⟩⟩
        · exact .of_claimHolds (exactStarting_holds holds) baseline
        · rw [jobs]
          exact present
        · intro other _
          rw [jobs]
  · obtain ⟨matching, stored, result⟩ := bind_ok.1 result
    rcases ite_ok.1 result with ⟨_, result⟩ | ⟨matches_, result⟩
    · exact Or.inl (refused_ok result)
    · obtain ⟨⟨updated, middle⟩, update, result⟩ := bind_ok.1 result
      simp only [Bool.not_eq_true, Bool.not_eq_false'] at matches_
      simp only at result
      rcases updateJob_ok update with ⟨unchanged, same⟩ |
        ⟨updatedTrue, _, row, present, holds, after, others, _⟩
      · rw [unchanged, same] at result
        simp only [Bool.not_false, if_true] at result
        exact Or.inl (refused_ok result)
      · rw [updatedTrue] at result
        simp only [Bool.not_true, Bool.false_eq_true, if_false] at result
        obtain ⟨held, _, result⟩ := bind_ok.1 result
        obtain ⟨noticed, inserted, result⟩ := bind_ok.1 result
        simp only [Except.ok.injEq, Prod.mk.injEq] at result
        obtain ⟨answered, rfl⟩ := result
        have jobs := insertNotice_jobs inserted
        have baseline := matchingBaseline_true present (matches_ ▸ stored)
        refine Or.inr ⟨by rw [← answered]; rfl, Or.inr
          ⟨candidateMarker claimed (candidateSummary candidates), ⟨row, present, .of_claimHolds (exactStarting_holds holds) baseline, ?_⟩, ?_⟩⟩
        · rw [jobs]
          exact after
        · intro other different
          rw [jobs]
          exact others other different

theorem adoptGeneration_spec {answer : QueueGenerationAdoption}
    (call : adoptGeneration hooks generation db = (.ok answer, next)) :
    ∀ id, next.jobs.find id = db.jobs.find id ∨ ∃ row, db.jobs.find id = some row ∧
      row.state = .pending ∧ next.jobs.find id = some (row.adopt generation) := by
  have result := commit_ok call
  unfold adoptGenerationIn at result
  obtain ⟨⟨count, middle⟩, update, result⟩ := bind_ok.1 result
  obtain ⟨jobs, _, result⟩ := bind_ok.1 result
  simp only [Except.ok.injEq, Prod.mk.injEq] at result
  obtain ⟨_, rfl⟩ := result
  obtain ⟨_, final, _⟩ := updateJobs_ok update
  intro id
  have after : middle.jobs.find id = (db.jobs.find id).map fun r =>
      if adoptable db generation r && !db.archive.frozen .turnQueue r.jobId then r.adopt generation
      else r := by
    rw [final]
    simp only
    rw [Table.find_update]
  rw [after]
  cases found : db.jobs.find id with
  | none => exact Or.inl rfl
  | some row =>
    by_cases selected : (adoptable db generation row &&
        !db.archive.frozen .turnQueue row.jobId) = true
    · right
      refine ⟨row, rfl, ?_, by rw [Option.map_some, if_pos selected]⟩
      simp only [adoptable, Bool.and_eq_true, beq_iff_eq] at selected
      exact selected.1.1.1
    · exact Or.inl (by rw [Option.map_some, if_neg selected])

/-! ## Each step -/

theorem ClaimedUpdate.moves
    {later : QueueRow → QueueRow} (update : ClaimedUpdate db next claimed later)
    (named : event.moved? = some claimed.jobId)
    (move : ∀ row, claimed.jobId = row.jobId → HeldBy claimed row → JobMove row event (later row)) :
    JobsMove db event next := by
  obtain ⟨row, found, holds, changed⟩ := update.held
  exact .of_one named found changed update.others (move row (Table.find_key found).symm holds)

/-- An operation moves each row of the queue as `JobMove` says. -/
theorem queueStep_moves (step : QueueStep db event next) : JobsMove db event next := by
  cases step with
  | began hooks jobId baseline generation now call =>
    rename_i answer
    cases answer with
    | error e => exact .of_same (congrArg QueueDb.jobs (commit_error call)) rfl
    | ok answer =>
      rcases tryBeginAttempt_spec call with
        ⟨rfl, rfl⟩ | ⟨claim, row, rfl, found, holds, _, changed, decoded, others, _, _⟩
      · exact .of_same rfl rfl
      · obtain ⟨pending, current⟩ := claimable_fields holds
        have key := Table.find_key found
        refine .of_one rfl found changed others ?_
        rw [← key]
        exact .begin pending current decoded
  | marked hooks claimed turnId resident now call =>
    rename_i answer
    cases answer with
    | error e => exact .of_same (congrArg QueueDb.jobs (commit_error call)) rfl
    | ok answer =>
      rcases markRunning_spec call with ⟨rfl, rfl⟩ | ⟨some_, update, _⟩
      · exact .of_same rfl rfl
      · obtain ⟨running, rfl⟩ := Option.isSome_iff_exists.1 some_
        exact update.moves rfl fun row own holds => .run own holds
  | startFailed hooks claimed error ambiguous now call =>
    rename_i answer
    cases answer with
    | error e => exact .of_same (congrArg QueueDb.jobs (commit_error call)) rfl
    | ok answer =>
      rcases recordStartFailure_spec call with ⟨rfl, rfl⟩ | ⟨some_, update⟩
      · exact .of_same rfl rfl
      · obtain ⟨failed, rfl⟩ := Option.isSome_iff_exists.1 some_
        exact update.moves rfl fun row own holds => .failStart own holds
  | preflightFailed hooks jobId generation error now call =>
    rename_i answer
    cases answer with
    | error e => exact .of_same (congrArg QueueDb.jobs (commit_error call)) rfl
    | ok answer =>
      rcases recordPreflightFailure_spec call with
        ⟨rfl, rfl⟩ | ⟨failed, row, rfl, found, pending, changed, others⟩
      · exact .of_same rfl rfl
      · have key := Table.find_key found
        refine .of_one rfl found changed others ?_
        rw [← key]
        exact .failPreflight pending
  | adopted hooks generation call =>
    rename_i answer
    cases answer with
    | error e => exact .of_same (congrArg QueueDb.jobs (commit_error call)) rfl
    | ok answer =>
      have each := adoptGeneration_spec call
      constructor
      · intro id row found
        rcases each id with same | ⟨old, present, pending, changed⟩
        · exact ⟨row, same.trans found, .still (by simp [QueueEvent.moved?])⟩
        · rw [found, Option.some.injEq] at present
          subst present
          exact ⟨_, changed, .adopt pending⟩
      · intro id gone
        rcases each id with same | ⟨old, present, _⟩
        · exact same.trans gone
        · rw [gone] at present
          cases present
  | held hooks claimed candidates now call =>
    rename_i answer
    cases answer with
    | error e => exact .of_same (congrArg QueueDb.jobs (commit_error call)) rfl
    | ok answer =>
      rcases holdStarting_spec call with ⟨rfl, rfl⟩ | ⟨some_, update⟩
      · exact .of_same rfl rfl
      · obtain ⟨held, rfl⟩ := Option.isSome_iff_exists.1 some_
        rcases update with update | ⟨marker, update⟩
        · exact update.moves rfl fun row own holds => .refresh own holds
        · exact update.moves rfl fun row own holds => .mark own holds
  | failed _ error =>
    refine .of_same rfl ?_
    unfold QueueEvent.failed at error
    split at error <;> first | rfl | exact error.elim
  | surrounded jobs => exact .of_same jobs rfl

/-- An operation that is given a stale claim leaves the whole store as it is. -/
theorem queueStep_stale (step : QueueStep db event next) (given : event.claim? = some claimed)
    (stale : Stale db claimed) : next = db := by
  have impossible : ∀ {later : QueueRow → QueueRow}, ClaimedUpdate db next claimed later → False := by
    intro later update
    obtain ⟨row, found, holds, _⟩ := update.held
    exact stale row found holds
  cases step with
  | began | preflightFailed | adopted | surrounded => cases given
  | failed => rfl
  | marked hooks claimed' turnId resident now call =>
    cases given
    rename_i answer
    cases answer with
    | error e => exact commit_error call
    | ok answer =>
      rcases markRunning_spec call with ⟨_, same⟩ | ⟨_, update, _⟩
      · exact same
      · exact (impossible update).elim
  | startFailed hooks claimed' error ambiguous now call =>
    cases given
    rename_i answer
    cases answer with
    | error e => exact commit_error call
    | ok answer =>
      rcases recordStartFailure_spec call with ⟨_, same⟩ | ⟨_, update⟩
      · exact same
      · exact (impossible update).elim
  | held hooks claimed' candidates now call =>
    cases given
    rename_i answer
    cases answer with
    | error e => exact commit_error call
    | ok answer =>
      rcases holdStarting_spec call with ⟨_, same⟩ | ⟨_, update | ⟨marker, update⟩⟩
      · exact same
      · exact (impossible update).elim
      · exact (impossible update).elim

end CodexRemote.Verified.Queue

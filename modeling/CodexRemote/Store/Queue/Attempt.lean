import CodexRemote.Store.Queue.Jobs

/-! # Claims of queue jobs

A claim is the job as `try_begin_attempt` returned it.  Later operations compare the
claim's columns with the row and change nothing when they differ.
-/

namespace CodexRemote.Store

open Foundations

variable {ρ : Type}

/-- `attempt_count` of the next attempt; it stays at the largest 64-bit integer. -/
def nextAttempt (attemptCount : Int) : Int :=
  if attemptCount < (i64Max : Int) then attemptCount + 1 else attemptCount

/-- `error.trim().chars().take(1_000)` -/
def boundedError (error : String) : String := String.ofList ((Discord.trim error.toList).take 1000)

/-! ## Assignments -/

def QueueRow.begin (row : QueueRow) (baseline : List String) (generation : Int) (now : Rat) :
    QueueRow :=
  { row with
    state := .starting
    executionGeneration := some generation
    turnObservationGeneration := none
    goalWaiting := false
    attemptCount := nextAttempt row.attemptCount
    turnId := none
    baselineTurnIds := .turns baseline
    lastError := ""
    updatedAt := now }

def QueueRow.run (row : QueueRow) (turnId : String) (now : Rat) : QueueRow :=
  { row with
    state := .running
    turnObservationGeneration := some row.appServerGeneration
    goalWaiting := false
    turnId := some turnId
    updatedAt := now }

def QueueRow.failStart (row : QueueRow) (ambiguous : Bool) (error : String) (now : Rat) :
    QueueRow :=
  { row with
    state := if ambiguous then .starting else .pending
    lastError := error
    updatedAt := now }

def QueueRow.failPreflight (row : QueueRow) (error : String) (now : Rat) : QueueRow :=
  { row with
    attemptCount := nextAttempt row.attemptCount
    lastError := error
    updatedAt := now }

def QueueRow.adopt (row : QueueRow) (generation : Int) : QueueRow :=
  { row with appServerGeneration := generation }

theorem QueueRow.begin_jobId (row : QueueRow) (baseline : List String) (generation : Int)
    (now : Rat) : (row.begin baseline generation now).jobId = row.jobId := rfl

theorem QueueRow.run_jobId (row : QueueRow) (turnId : String) (now : Rat) :
    (row.run turnId now).jobId = row.jobId := rfl

theorem QueueRow.failStart_jobId (row : QueueRow) (ambiguous : Bool) (error : String) (now : Rat) :
    (row.failStart ambiguous error now).jobId = row.jobId := rfl

theorem QueueRow.failPreflight_jobId (row : QueueRow) (error : String) (now : Rat) :
    (row.failPreflight error now).jobId = row.jobId := rfl

theorem QueueRow.adopt_jobId (row : QueueRow) (generation : Int) :
    (row.adopt generation).jobId = row.jobId := rfl

/-! ## Operations -/

/-- `claimed_result`: the changed job, once the writes that follow it are in. -/
def claimedResult (hooks : QueueHooks ρ) (db : QueueDb ρ) (jobId : String) (updated : Bool) :
    Except StoreError (Option StoredQueueJob × QueueDb ρ) :=
  if !updated then .ok (none, db)
  else do
    let job ← selectJob db jobId
    let rest ← hooks.bindRunning db job
    let rest ← hooks.recordJobOrigin { db with rest := rest } job
    .ok (some job, { db with rest := rest })

/-- The row that a new attempt may claim. -/
def claimable (db : QueueDb ρ) (generation : Int) (row : QueueRow) : Bool :=
  row.appServerGeneration == generation && row.state == .pending &&
    !unresolvedHandoff db row.targetThreadId

def tryBeginAttemptIn (hooks : QueueHooks ρ) (jobId : String) (baseline : List String)
    (generation : Int) (now : Rat) (db : QueueDb ρ) :
    Except StoreError (Option StoredQueueJob × QueueDb ρ) :=
  match db.jobs.find jobId with
  | none => .ok (none, db)
  | some row => do
      let candidate ← row.decode
      if db.archive.blocked (some candidate.channelId) (some candidate.targetThreadId) ||
          db.archive.recordRetired .turnQueue jobId then .ok (none, db)
      else
        hooks.asyncAdmission db candidate.targetThreadId
        if !jobCanMutate db candidate || (holdReason db jobId).isSome ||
            startsWith candidate.lastError reserveHoldPrefix then .ok (none, db)
        else
          let (updated, db) ← updateJob hooks db jobId (claimable db generation)
            (fun r => r.begin baseline generation now)
            (fun r => r.begin_jobId baseline generation now)
          claimedResult hooks db jobId updated

def tryBeginAttempt (hooks : QueueHooks ρ) (jobId : String) (baseline : List String)
    (generation : Int) (now : Rat) (db : QueueDb ρ) :
    Except StoreError (Option StoredQueueJob) × QueueDb ρ :=
  commit (tryBeginAttemptIn hooks jobId baseline generation now) db

/-- `matching_baseline_json`: the stored baseline is the claim's, as JSON. -/
def matchingBaseline (db : QueueDb ρ) (claimed : StoredQueueJob) : Except StoreError Bool :=
  match (db.jobs.find claimed.jobId).map QueueRow.baselineTurnIds with
  | none => .ok false
  | some (.turns ids) => .ok (ids == claimed.baselineTurnIds)
  | some (.other _) => .ok false
  | some .malformed => .error (.json "baseline_turn_ids")

/-- The columns by which an operation recognises the attempt it was given. -/
def claimHolds (db : QueueDb ρ) (claimed : StoredQueueJob) (row : QueueRow) : Bool :=
  row.targetThreadId == claimed.targetThreadId &&
    row.appServerGeneration == claimed.appServerGeneration &&
    row.attemptCount == claimed.attemptCount && row.updatedAt == claimed.updatedAt &&
    row.state == .starting && row.turnId.isNone && !unresolvedHandoff db row.targetThreadId

def markRunningIn (hooks : QueueHooks ρ) (claimed : StoredQueueJob) (turnId : String)
    (resident : Option String) (now : Rat) (db : QueueDb ρ) :
    Except StoreError (Option StoredQueueJob × QueueDb ρ) :=
  if !jobCanMutate db claimed then .ok (none, db)
  else do
    let matching ← matchingBaseline db claimed
    if !matching then .ok (none, db)
    else
      let (updated, db) ← updateJob hooks db claimed.jobId (claimHolds db claimed)
        (fun r => r.run turnId now) (fun r => r.run_jobId turnId now)
      let rest ← (if !updated then .ok db.rest
        else do
          let running ← selectJob db claimed.jobId
          if running.turnId != some turnId then
            .error (.integrity "queue ACK turn differs from backend response; original Starting preserved")
          else
            match resident with
            | none => .ok db.rest
            | some resident => hooks.bindLateStart db claimed running resident)
      claimedResult hooks { db with rest := rest } claimed.jobId updated

def markRunningWithResidentIfClaimed (hooks : QueueHooks ρ) (claimed : StoredQueueJob)
    (turnId : String) (resident : Option String) (now : Rat) (db : QueueDb ρ) :
    Except StoreError (Option StoredQueueJob) × QueueDb ρ :=
  commit (markRunningIn hooks claimed turnId resident now) db

def markRunningIfClaimed (hooks : QueueHooks ρ) (claimed : StoredQueueJob) (turnId : String)
    (now : Rat) (db : QueueDb ρ) : Except StoreError (Option StoredQueueJob) × QueueDb ρ :=
  markRunningWithResidentIfClaimed hooks claimed turnId none now db

def recordStartFailureIn (hooks : QueueHooks ρ) (claimed : StoredQueueJob) (error : String)
    (ambiguous : Bool) (now : Rat) (db : QueueDb ρ) :
    Except StoreError (Option StoredQueueJob × QueueDb ρ) :=
  if !jobCanMutate db claimed then .ok (none, db)
  else do
    let matching ← matchingBaseline db claimed
    if !matching then .ok (none, db)
    else
      let (updated, db) ← updateJob hooks db claimed.jobId (claimHolds db claimed)
        (fun r => r.failStart ambiguous (boundedError error) now)
        (fun r => r.failStart_jobId ambiguous (boundedError error) now)
      if updated && !ambiguous && legacyOrCurrentError error then
        let db := hold db claimed.jobId claimed.targetThreadId (boundedError error)
          (hooks.jobJson claimed)
        let rest ← hooks.stageStartNotice db claimed (boundedError error)
        claimedResult hooks { db with rest := rest } claimed.jobId updated
      else claimedResult hooks db claimed.jobId updated

def recordStartFailureIfClaimed (hooks : QueueHooks ρ) (claimed : StoredQueueJob) (error : String)
    (ambiguous : Bool) (now : Rat) (db : QueueDb ρ) :
    Except StoreError (Option StoredQueueJob) × QueueDb ρ :=
  commit (recordStartFailureIn hooks claimed error ambiguous now) db

/-- The body of `record_start_failure`, which is given no claim. -/
def recordFailureOfIn (hooks : QueueHooks ρ) (jobId : String) (generation : Int) (error : String)
    (ambiguous : Bool) (now : Rat) (db : QueueDb ρ) :
    Except StoreError (StoredQueueJob × QueueDb ρ) := do
  let original ← selectJob db jobId
  if !jobCanMutate db original then .error (.deadGenerationTargetHeld original.targetThreadId)
  else
    let (updated, db) ← updateJob hooks db jobId (·.appServerGeneration == generation)
      (fun r => r.failStart ambiguous (boundedError error) now)
      (fun r => r.failStart_jobId ambiguous (boundedError error) now)
    if !updated then .error (.queueJobNotFound jobId)
    else do
      let job ← selectJob db jobId
      .ok (job, db)

def recordStartFailure (hooks : QueueHooks ρ) (jobId : String) (generation : Int) (error : String)
    (ambiguous : Bool) (now : Rat) (db : QueueDb ρ) : Except StoreError StoredQueueJob × QueueDb ρ :=
  commit (recordFailureOfIn hooks jobId generation error ambiguous now) db

def recordPreflightFailureIn (hooks : QueueHooks ρ) (jobId : String) (generation : Int)
    (error : String) (now : Rat) (db : QueueDb ρ) :
    Except StoreError (Option StoredQueueJob × QueueDb ρ) := do
  let (updated, db) ← updateJob hooks db jobId
    (fun r => r.appServerGeneration == generation && r.state == .pending)
    (fun r => r.failPreflight (boundedError error) now)
    (fun r => r.failPreflight_jobId (boundedError error) now)
  if !updated then .ok (none, db)
  else do
    let job ← selectJob db jobId
    .ok (some job, db)

def recordPreflightFailure (hooks : QueueHooks ρ) (jobId : String) (generation : Int)
    (error : String) (now : Rat) (db : QueueDb ρ) :
    Except StoreError (Option StoredQueueJob) × QueueDb ρ :=
  commit (recordPreflightFailureIn hooks jobId generation error now) db

structure QueueGenerationAdoption where
  jobs : List StoredQueueJob
  adoptedCount : Nat

/-- Rows that a new generation adopts. -/
def adoptable (db : QueueDb ρ) (generation : Int) (row : QueueRow) : Bool :=
  row.state == .pending && row.appServerGeneration != generation &&
    !targetIsHeld db row.targetThreadId

def adoptGenerationIn (hooks : QueueHooks ρ) (generation : Int) (db : QueueDb ρ) :
    Except StoreError (QueueGenerationAdoption × QueueDb ρ) := do
  let (adoptedCount, db) ← updateJobs hooks db (adoptable db generation)
    (fun r => r.adopt generation) (fun r => r.adopt_jobId generation)
  let jobs ← allJobs db
  .ok (⟨jobs, adoptedCount⟩, db)

def adoptGeneration (hooks : QueueHooks ρ) (generation : Int) (db : QueueDb ρ) :
    Except StoreError QueueGenerationAdoption × QueueDb ρ :=
  commit (adoptGenerationIn hooks generation) db

def adoptTargetGenerationIn (hooks : QueueHooks ρ) (target : String) (generation : Int)
    (db : QueueDb ρ) : Except StoreError (QueueGenerationAdoption × QueueDb ρ) := do
  let (adoptedCount, db) ← updateJobs hooks db
    (fun r => r.targetThreadId == target && adoptable db generation r)
    (fun r => r.adopt generation) (fun r => r.adopt_jobId generation)
  let jobs ← allJobs db
  .ok (⟨jobs.filter (·.targetThreadId == target), adoptedCount⟩, db)

def adoptTargetGeneration (hooks : QueueHooks ρ) (target : String) (generation : Int)
    (db : QueueDb ρ) : Except StoreError QueueGenerationAdoption × QueueDb ρ :=
  commit (adoptTargetGenerationIn hooks target generation) db

end CodexRemote.Store

import CodexRemote.Store.Queue.Attempt
import CodexRemote.Store.Queue.Enqueue

/-! # Prompt intakes

A prompt that waits to be prepared.  A worker claims it for a while with a token of its own,
and hands it over to the queue, or gives it back, while the token is the current one.
-/

namespace CodexRemote.Store

open Foundations

variable {ρ : Type}

structure PromptIntakeClaim where
  intake : PromptIntake
  claimToken : String
deriving DecidableEq

def unresolvedForkErrorPrefix : String := "[cdr-rust:app-server-fork-unresolved:v1] "

/-! ## Errors -/

def intakeClaimLost (jobId : String) : StoreError := .promptIntakeClaimLost jobId

def intakeIdentityConflict (intake : PromptIntake) : StoreError :=
  .promptIntakeIdentityConflict intake.jobId intake.discordMessageId

/-- `validate_lease`: the two times, when both are finite and the lease ends later. -/
def validateLease (now claimExpiresAt : Timestamp) : Except StoreError (Rat × Rat) :=
  match now, claimExpiresAt with
  | some start, some finish =>
    if finish ≤ start then .error (.invalidPromptIntakeLease now claimExpiresAt)
    else .ok (start, finish)
  | _, _ => .error (.invalidPromptIntakeLease now claimExpiresAt)

/-- `bounded_error` of the intakes -/
def intakeBoundedError (error : String) : String :=
  let trimmed := Discord.trim error.toList
  if trimmed.isEmpty then "prompt intake processing failed without an error message"
  else String.ofList (trimmed.take 1000)

/-! ## Updates and deletes of intakes -/

def intakeFence (hooks : QueueHooks ρ) (db : QueueDb ρ) (old new : PromptIntake) :
    Option StoreError :=
  if cancelled db new.jobId new.discordMessageId then some cancelledError
  else hooks.fenceIntakeUpdate db old new

/-- `UPDATE codex_prompt_intakes SET … WHERE condition`, with the number of rows changed. -/
def updateIntakes (hooks : QueueHooks ρ) (db : QueueDb ρ) (condition : PromptIntake → Bool)
    (assign : PromptIntake → PromptIntake) (keeps : ∀ r, (assign r).jobId = r.jobId) :
    Except StoreError (Nat × QueueDb ρ) :=
  let selected := fun r : PromptIntake =>
    condition r && !db.archive.frozen .promptIntakes r.jobId
  match (db.intakes.select selected).findSome? fun r => intakeFence hooks db r (assign r) with
  | some error => .error error
  | none =>
    .ok (db.intakes.count selected, { db with intakes := db.intakes.update selected assign keeps })

/-- `DELETE FROM codex_prompt_intakes WHERE condition`; archived rows are preserved. -/
def deleteIntakes (hooks : QueueHooks ρ) (db : QueueDb ρ) (condition : PromptIntake → Bool) :
    Except StoreError (Nat × QueueDb ρ) :=
  let selected := fun r : PromptIntake =>
    condition r && !db.archive.recordRetired .promptIntakes r.jobId
  match (db.intakes.select selected).findSome? (hooks.fenceIntakeDelete db) with
  | some error => .error error
  | none => .ok (db.intakes.count selected, { db with intakes := db.intakes.delete selected })

/-! ## Leases -/

def PromptIntake.claim (intake : PromptIntake) (token : String) (expires now : Rat) : PromptIntake :=
  { intake with claimToken := some token, claimExpiresAt := expires, updatedAt := now }

def PromptIntake.renew (intake : PromptIntake) (expires now : Rat) : PromptIntake :=
  { intake with claimExpiresAt := expires, updatedAt := now }

def PromptIntake.release (intake : PromptIntake) : PromptIntake :=
  { intake with claimToken := none, claimExpiresAt := 0 }

def PromptIntake.fail (intake : PromptIntake) (error : String) (retryAfter observedAt : Rat) :
    PromptIntake :=
  { intake with
    attemptCount := nextAttempt intake.attemptCount
    lastError := if startsWith intake.lastError unresolvedForkErrorPrefix then intake.lastError
      else error
    retryAfter := retryAfter
    claimToken := none
    claimExpiresAt := 0
    updatedAt := observedAt }

theorem PromptIntake.claim_jobId (intake : PromptIntake) (token : String) (expires now : Rat) :
    (intake.claim token expires now).jobId = intake.jobId := rfl

theorem PromptIntake.renew_jobId (intake : PromptIntake) (expires now : Rat) :
    (intake.renew expires now).jobId = intake.jobId := rfl

theorem PromptIntake.release_jobId (intake : PromptIntake) :
    intake.release.jobId = intake.jobId := rfl

theorem PromptIntake.fail_jobId (intake : PromptIntake) (error : String)
    (retryAfter observedAt : Rat) : (intake.fail error retryAfter observedAt).jobId = intake.jobId :=
  rfl

/-- `by_job`, for a row that was just changed -/
def changedIntake (db : QueueDb ρ) (jobId : String) : Except StoreError PromptIntake :=
  match db.intakes.find jobId with
  | none => .error (.promptIntakeNotFound jobId)
  | some intake => .ok intake

/-- The claim of the row that an update changed, when it changed one. -/
def claimOf (updated : Nat) (db : QueueDb ρ) (jobId token : String) :
    Except StoreError (Option PromptIntakeClaim × QueueDb ρ) :=
  if updated == 1 then do
    let intake ← changedIntake db jobId
    .ok (some ⟨intake, token⟩, db)
  else .ok (none, db)

/-- An intake that may be claimed at this time. -/
def claimableAt (db : QueueDb ρ) (now : Rat) (intake : PromptIntake) : Bool :=
  intake.retryAfter ≤ now && intake.claimExpiresAt ≤ now && !targetIsHeld db intake.targetThreadId

def tryClaimIn (hooks : QueueHooks ρ) (jobId : String) (now claimExpiresAt : Timestamp)
    (claimToken : String) (db : QueueDb ρ) :
    Except StoreError (Option PromptIntakeClaim × QueueDb ρ) := do
  let (start, expires) ← validateLease now claimExpiresAt
  if db.archive.recordRetired .promptIntakes jobId then .ok (none, db)
  else if (holdReason db jobId).isSome then .ok (none, db)
  else
    let (updated, db) ← updateIntakes hooks db (fun r => r.jobId == jobId && claimableAt db start r)
      (fun r => r.claim claimToken expires start) (fun r => r.claim_jobId claimToken expires start)
    claimOf updated db jobId claimToken

/-- The token is a fresh UUID. -/
def tryClaimPromptIntake (hooks : QueueHooks ρ) (jobId : String) (now claimExpiresAt : Timestamp)
    (claimToken : String) (db : QueueDb ρ) :
    Except StoreError (Option PromptIntakeClaim) × QueueDb ρ :=
  commit (tryClaimIn hooks jobId now claimExpiresAt claimToken) db

def renewIn (hooks : QueueHooks ρ) (claim : PromptIntakeClaim) (now newExpiresAt : Timestamp)
    (db : QueueDb ρ) : Except StoreError (Option PromptIntakeClaim × QueueDb ρ) := do
  let (start, expires) ← validateLease now newExpiresAt
  let (updated, db) ← updateIntakes hooks db
    (fun r => r.jobId == claim.intake.jobId && r.claimToken == some claim.claimToken &&
      r.claimExpiresAt > start && r.claimExpiresAt < expires)
    (fun r => r.renew expires start) (fun r => r.renew_jobId expires start)
  claimOf updated db claim.intake.jobId claim.claimToken

def renewPromptIntakeClaimIfCurrent (hooks : QueueHooks ρ) (claim : PromptIntakeClaim)
    (now newExpiresAt : Timestamp) (db : QueueDb ρ) :
    Except StoreError (Option PromptIntakeClaim) × QueueDb ρ :=
  commit (renewIn hooks claim now newExpiresAt) db

def releaseAllPromptIntakeClaims (hooks : QueueHooks ρ) (db : QueueDb ρ) :
    Except StoreError Nat × QueueDb ρ :=
  commit (fun db => updateIntakes hooks db (fun r => r.claimToken.isSome || r.claimExpiresAt != 0)
    PromptIntake.release PromptIntake.release_jobId) db

def recordIntakeFailureIn (hooks : QueueHooks ρ) (claim : PromptIntakeClaim) (error : String)
    (retryAfter : Timestamp) (observedAt : Rat) (db : QueueDb ρ) :
    Except StoreError (Option PromptIntake × QueueDb ρ) :=
  match retryAfter with
  | none => .error (.invalidPromptIntakeRetry retryAfter)
  | some retry => do
      let (updated, db) ← updateIntakes hooks db
        (fun r => r.jobId == claim.intake.jobId && r.claimToken == some claim.claimToken)
        (fun r => r.fail (intakeBoundedError error) retry observedAt)
        (fun r => r.fail_jobId (intakeBoundedError error) retry observedAt)
      .ok (if updated == 1 then db.intakes.find claim.intake.jobId else none, db)

def recordPromptIntakeFailureIfClaimed (hooks : QueueHooks ρ) (claim : PromptIntakeClaim)
    (error : String) (retryAfter : Timestamp) (observedAt : Rat) (db : QueueDb ρ) :
    Except StoreError (Option PromptIntake) × QueueDb ρ :=
  commit (recordIntakeFailureIn hooks claim error retryAfter observedAt) db

/-! ## Promotion -/

def stableIdentityMatches (current claimed : PromptIntake) : Bool :=
  current.jobId == claimed.jobId && current.channelId == claimed.channelId &&
    current.ownerUserId == claimed.ownerUserId &&
    current.discordMessageId == claimed.discordMessageId && current.rawPrompt == claimed.rawPrompt &&
    current.autoQueueWhenBusy == claimed.autoQueueWhenBusy &&
    current.requireCurrentMirror == claimed.requireCurrentMirror

def validateCurrentClaim (current : PromptIntake) (claim : PromptIntakeClaim) (now : Rat) :
    Except StoreError Unit :=
  if current.targetThreadId != claim.intake.targetThreadId then
    .error (.forkHandoffTargetMoved claim.intake.targetThreadId current.targetThreadId)
  else
    let currentToken := current.claimToken == some claim.claimToken &&
      claim.intake.claimToken == some claim.claimToken
    if !stableIdentityMatches current claim.intake || !currentToken ||
        current.claimExpiresAt ≤ now then .error (intakeClaimLost current.jobId)
    else .ok ()

def validateQueueIdentity (intake : PromptIntake) (job : NewQueueJob) : Except StoreError Unit :=
  if !intake.requireCurrentMirror && job.targetThreadId != intake.targetThreadId then
    .error (.forkHandoffTargetMoved job.targetThreadId intake.targetThreadId)
  else if job.jobId != intake.jobId || job.channelId != intake.channelId ||
      job.ownerUserId != intake.ownerUserId || job.discordMessageId != intake.discordMessageId then
    .error (intakeIdentityConflict intake)
  else .ok ()

def validateStoredOccurrence (intake : PromptIntake) (expected : NewQueueJob)
    (stored : StoredQueueJob) : Except StoreError Unit :=
  if stored.jobId != intake.jobId || stored.targetThreadId != expected.targetThreadId ||
      stored.channelId != intake.channelId || stored.ownerUserId != intake.ownerUserId ||
      stored.discordMessageId != intake.discordMessageId || stored.prompt != expected.prompt then
    .error (intakeIdentityConflict intake)
  else .ok ()

/-- A row of the queue as the store decodes it, when there is one. -/
def decodeRow (row : Option QueueRow) : Except StoreError (Option StoredQueueJob) :=
  match row with
  | none => .ok none
  | some row => row.decode.map some

def validateExistingOccurrence (db : QueueDb ρ) (intake : PromptIntake) (job : NewQueueJob) :
    Except StoreError Unit := do
  let byJob ← decodeRow (db.jobs.find job.jobId)
  let byMessage ← decodeRow (job.discordMessageId.bind fun message =>
    db.jobs.rows.find? (·.discordMessageId == some message))
  (byJob.toList ++ byMessage.toList).forM (validateStoredOccurrence intake job)
  match byJob, byMessage with
  | some byJob, some byMessage =>
    if byJob.jobId != byMessage.jobId then .error (intakeIdentityConflict intake) else .ok ()
  | _, _ => .ok ()

def requireUnheld (db : QueueDb ρ) (jobId : String) : Except StoreError Unit :=
  match holdReason db jobId with
  | some reason => .error (.integrity (executionHeldPrefix ++ reason))
  | none => .ok ()

def promoteIn (hooks : QueueHooks ρ) (claim : PromptIntakeClaim) (newJob : NewQueueJob)
    (now : Timestamp) (db : QueueDb ρ) : Except StoreError (QueueEnqueueResult × QueueDb ρ) :=
  match now with
  | none => .error (.invalidPromptIntakeLease now (some claim.intake.claimExpiresAt))
  | some now => do
      requireUnheld db claim.intake.jobId
      match db.intakes.find claim.intake.jobId with
      | none => .error (intakeClaimLost claim.intake.jobId)
      | some current =>
        ensureTargetAvailable db current.targetThreadId
        ensureTargetAvailable db newJob.targetThreadId
        validateCurrentClaim current claim now
        validateQueueIdentity current newJob
        validateExistingOccurrence db current newJob
        (if current.requireCurrentMirror then
          ensureMirrorMatches db newJob ⟨current.channelId, newJob.targetThreadId⟩
        else .ok ())
        let (enqueued, db) ← enqueueIn hooks newJob db
        validateStoredOccurrence current newJob enqueued.job
        let db ← recordNewEvidence hooks db newJob
        let (removed, db) ← deleteIntakes hooks db fun r => r.jobId == current.jobId &&
          r.claimToken == some claim.claimToken && r.claimExpiresAt > now
        if removed != 1 then .error (intakeClaimLost current.jobId) else .ok (enqueued, db)

def promotePromptIntakeToQueue (hooks : QueueHooks ρ) (claim : PromptIntakeClaim)
    (newJob : NewQueueJob) (now : Timestamp) (db : QueueDb ρ) :
    Except StoreError QueueEnqueueResult × QueueDb ρ :=
  commit (promoteIn hooks claim newJob now) db

/-! ## Admission -/

structure NewPromptIntake where
  jobId : String
  targetThreadId : String
  channelId : Int
  ownerUserId : Option Int
  discordMessageId : Option Int
  rawPrompt : String
  autoQueueWhenBusy : Bool
  requireCurrentMirror : Bool
  createdAt : Rat
deriving DecidableEq

structure PromptIntakeAdmission where
  intake : PromptIntake
  created : Bool
deriving DecidableEq

def trimmed (text : String) : Bool := text != "" && Discord.trim text.toList == text.toList

def validateIntakeIdentity (jobId targetThreadId : String) : Except StoreError Unit :=
  if trimmed jobId && trimmed targetThreadId then .ok ()
  else .error (.invalidPromptIntakeIdentity jobId targetThreadId)

def existingIdentity (db : QueueDb ρ) (new : NewPromptIntake) :
    Except StoreError (Option PromptIntake) :=
  let byMessage := new.discordMessageId.bind fun message =>
    db.intakes.rows.find? (·.discordMessageId == some message)
  match db.intakes.find new.jobId, byMessage with
  | some byJob, none =>
    if byJob.discordMessageId == new.discordMessageId then .ok (some byJob)
    else .error (.promptIntakeIdentityConflict new.jobId new.discordMessageId)
  | some byJob, some byMessage =>
    if byJob.jobId == byMessage.jobId then .ok (some byJob)
    else .error (.promptIntakeIdentityConflict new.jobId new.discordMessageId)
  | none, byMessage => .ok byMessage

def NewPromptIntake.row (new : NewPromptIntake) (target : String) : PromptIntake where
  jobId := new.jobId
  targetThreadId := target
  channelId := new.channelId
  ownerUserId := new.ownerUserId
  discordMessageId := new.discordMessageId
  rawPrompt := new.rawPrompt
  autoQueueWhenBusy := new.autoQueueWhenBusy
  requireCurrentMirror := new.requireCurrentMirror
  attemptCount := 0
  lastError := ""
  retryAfter := 0
  claimToken := none
  claimExpiresAt := 0
  createdAt := new.createdAt
  updatedAt := new.createdAt

/-- `INSERT INTO codex_prompt_intakes` -/
def insertIntake (hooks : QueueHooks ρ) (db : QueueDb ρ) (intake : PromptIntake) :
    Except StoreError (QueueDb ρ) :=
  if cancelled db intake.jobId intake.discordMessageId then .error cancelledError
  else
    match hooks.fenceIntakeInsert db intake with
    | some error => .error error
    | none =>
      if db.archive.recordRetired .promptIntakes intake.jobId then .ok db
      else if db.intakes.contains (fun r => sameRequest intake.jobId intake.discordMessageId
          r.jobId r.discordMessageId) then
        .error (.database "UNIQUE constraint failed: codex_prompt_intakes")
      else
        .ok { db with
          intakes := db.intakes.insertOrIgnore intake
          archive := db.archive.capture .promptIntakes intake.jobId
            (·.covers intake.targetThreadId intake.channelId) }

def admitIn (hooks : QueueHooks ρ) (new : NewPromptIntake) (db : QueueDb ρ) :
    Except StoreError (PromptIntakeAdmission × QueueDb ρ) := do
  validateIntakeIdentity new.jobId new.targetThreadId
  match ← existingIdentity db new with
  | some existing =>
    let db ← linkPromptOwner hooks db existing
    .ok (⟨existing, false⟩, db)
  | none =>
    let target ← canonicalCompletedTarget db new.targetThreadId
    let db ← insertIntake hooks db (new.row target)
    let intake ← changedIntake db new.jobId
    let db ← linkPromptOwner hooks db intake
    .ok (⟨intake, true⟩, db)

def admitPromptIntake (hooks : QueueHooks ρ) (new : NewPromptIntake) (db : QueueDb ρ) :
    Except StoreError PromptIntakeAdmission × QueueDb ρ :=
  commit (admitIn hooks new) db

end CodexRemote.Store

import CodexRemote.Store.Ingress.Ownership

/-! # Inserting queue jobs -/

namespace CodexRemote.Store

open Foundations

variable {ρ : Type}

/-! ## Fork handoffs of a source thread -/

/-- `by_source`; the source is unique among the handoffs. -/
def handoffBySource (db : QueueDb ρ) (source : String) : Option ForkHandoff :=
  db.handoffs.rows.find? (·.sourceThreadId == source)

def ensureNoUnresolvedHandoff (db : QueueDb ρ) (target : String) : Except StoreError Unit :=
  match (handoffBySource db target).filter (·.targetThreadId.isNone) with
  | none => .ok ()
  | some handoff =>
    let blank := (Discord.trim handoff.lastForkError.toList).isEmpty
    .error (.forkHandoffUnresolved target (if blank then none else some handoff.lastForkError))

def completedTargetForSource (db : QueueDb ρ) (source : String) : Option String :=
  (handoffBySource db source).bind (·.targetThreadId)

def ensureSourceNotMoved (db : QueueDb ρ) (source : String) : Except StoreError Unit :=
  if db.exactRouting then .ok ()
  else
    match completedTargetForSource db source with
    | none => .ok ()
    | some target => .error (.forkHandoffTargetMoved source target)

def ensureTargetAvailable (db : QueueDb ρ) (target : String) : Except StoreError Unit :=
  if targetIsHeld db target then .error (.deadGenerationTargetHeld target) else .ok ()

/-- The loop of `canonical_completed_target`.  The sources it has visited are distinct, so a
step for each handoff and one more are enough. -/
def followCompleted (db : QueueDb ρ) (source : String) :
    Nat → List String → String → Except StoreError String
  | 0, _, _ => .error (.forkHandoffCycle source)
  | fuel + 1, visited, current =>
    if visited.contains current then .error (.forkHandoffCycle source)
    else do
      ensureTargetAvailable db current
      match completedTargetForSource db current with
      | none => .ok current
      | some target => followCompleted db source fuel (current :: visited) target

def canonicalCompletedTarget (db : QueueDb ρ) (source : String) : Except StoreError String :=
  if db.exactRouting then do
    ensureTargetAvailable db source
    .ok source
  else followCompleted db source (db.handoffs.rows.length + 1) [] source

/-! ## Mirror mappings -/

def strictMirrorTarget (db : QueueDb ρ) (channelId : Int) : Option String :=
  match db.archive.mirrorThreads.filter (·.discordThreadId == channelId) with
  | [thread] => some thread.codexThreadId
  | _ :: _ => none
  | [] =>
    match db.archive.mirrorThreads.filter (·.discordChannelId == channelId) with
    | [thread] => some thread.codexThreadId
    | _ => none

structure ExpectedMirrorMapping where
  discordChannelId : Int
  targetThreadId : String

def ensureMirrorMatches (db : QueueDb ρ) (newJob : NewQueueJob) (expected : ExpectedMirrorMapping) :
    Except StoreError Unit :=
  let actual := strictMirrorTarget db expected.discordChannelId
  if actual != some expected.targetThreadId || newJob.channelId != expected.discordChannelId ||
      newJob.targetThreadId != expected.targetThreadId then
    .error (.mirrorMappingChanged expected.discordChannelId expected.targetThreadId actual)
  else .ok ()

/-! ## Enqueue -/

structure QueueEnqueueResult where
  job : StoredQueueJob
  created : Bool
deriving DecidableEq

def NewQueueJob.row (job : NewQueueJob) : QueueRow where
  jobId := job.jobId
  targetThreadId := job.targetThreadId
  channelId := job.channelId
  ownerUserId := job.ownerUserId
  discordMessageId := job.discordMessageId
  appServerGeneration := job.appServerGeneration
  executionGeneration := none
  prompt := job.prompt
  queued := job.queued
  ackSent := job.ackSent
  state := .pending
  attemptCount := 0
  turnId := none
  baselineTurnIds := .turns []
  lastError := ""
  createdAt := job.createdAt
  updatedAt := job.createdAt
  goalWaiting := false
  turnObservationGeneration := none

/-- A row with this id or this message, which the keys of both tables do not admit twice. -/
def sameRequest (jobId : String) (messageId : Option Int) (otherId : String)
    (otherMessage : Option Int) : Bool :=
  otherId == jobId || (messageId.isSome && otherMessage == messageId)

/-- `INSERT OR IGNORE INTO codex_turn_queue`; true when the row was inserted. -/
def insertJob (hooks : QueueHooks ρ) (db : QueueDb ρ) (row : QueueRow) :
    Except StoreError (Bool × QueueDb ρ) :=
  if cancelled db row.jobId row.discordMessageId then .error cancelledError
  else
    match hooks.fenceInsert db row with
    | some error => .error error
    | none =>
      if db.archive.recordRetired .turnQueue row.jobId ||
          db.jobs.contains (fun r => sameRequest row.jobId row.discordMessageId r.jobId
            r.discordMessageId) then .ok (false, db)
      else
        .ok (true, { db with
          jobs := db.jobs.insertOrIgnore row
          archive := db.archive.capture .turnQueue row.jobId
            (·.covers row.targetThreadId row.channelId) })

def selectByMessage (db : QueueDb ρ) (messageId : Int) : Except StoreError StoredQueueJob :=
  match db.jobs.rows.find? (·.discordMessageId == some messageId) with
  | none => .error (.queueJobNotFound (toString messageId))
  | some row => row.decode

def asyncReplyHeld : StoreError :=
  .integrity "async question reply outcome is unconfirmed; target held without automatic retry"

def enqueueIn (hooks : QueueHooks ρ) (newJob : NewQueueJob) (db : QueueDb ρ) :
    Except StoreError (QueueEnqueueResult × QueueDb ρ) := do
  let rest ← hooks.beforeEnqueue db newJob.targetThreadId
  let db := { db with rest := rest }
  requireUnheldOrigin db newJob.discordMessageId
  if hooks.asyncDispatchHeld db newJob.targetThreadId then .error asyncReplyHeld
  else
    ensureNoUnresolvedHandoff db newJob.targetThreadId
    ensureSourceNotMoved db newJob.targetThreadId
    let (created, db) ← insertJob hooks db newJob.row
    let job ← (match newJob.discordMessageId with
      | none => selectJob db newJob.jobId
      | some messageId =>
        if created then selectJob db newJob.jobId else selectByMessage db messageId)
    .ok (⟨job, created⟩, db)

def enqueue (hooks : QueueHooks ρ) (newJob : NewQueueJob) (db : QueueDb ρ) :
    Except StoreError QueueEnqueueResult × QueueDb ρ :=
  commit (enqueueIn hooks newJob) db

def enqueueIfMirrorMatches (hooks : QueueHooks ρ) (newJob : NewQueueJob)
    (expected : ExpectedMirrorMapping) (db : QueueDb ρ) :
    Except StoreError QueueEnqueueResult × QueueDb ρ :=
  commit (fun db => do
    ensureMirrorMatches db newJob expected
    enqueueIn hooks newJob db) db

end CodexRemote.Store

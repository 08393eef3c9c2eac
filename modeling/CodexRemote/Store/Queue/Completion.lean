import CodexRemote.Store.ObservationGap
import CodexRemote.Store.Queue.StartingHold

/-! # Staging the completion of a job

The final answer of a turn goes to the outbox and its job leaves the queue, in one transaction
with what other modules keep about the turn.
-/

namespace CodexRemote.Store

open Foundations

variable {ρ : Type}

/-- What the transaction writes in the tables of other modules. -/
structure CompletionHooks (ρ : Type) where
  queue : QueueHooks ρ
  /-- `async_question::reconcile_job_in` -/
  reconcileJob : QueueDb ρ → String → Except StoreError ρ
  /-- `async_resolution::settle_owned_in` -/
  settleOwned : QueueDb ρ → StoredQueueJob → Option (String × Int) → Except StoreError ρ
  /-- `INSERT OR IGNORE INTO codex_session_mirror_events`: digest, thread, time -/
  insertMirrorEvent : ρ → String → String → Rat → Except StoreError ρ
  /-- `async_resolution::retain_terminal_journal_in` -/
  retainTerminalJournal : QueueDb ρ → String → String → Except StoreError Bool
  /-- the deletes of `codex_observed_completions` and `codex_observed_final_answers` -/
  deleteObservedCompletion : ρ → String → String → Except StoreError ρ
  deleteObservedAnswer : ρ → String → String → Except StoreError ρ
  /-- `idle_release::stage_candidate` -/
  stageCandidate : QueueDb ρ → StoredQueueJob → String → Except StoreError ρ

structure CompletionCall where
  jobId : String
  content : String
  now : Rat
  /-- the resident that observed the turn, and its generation -/
  owner : Option (String × Int)
  /-- the row the caller saw, when it claims to own the turn -/
  expected : Option StoredQueueJob

/-- `stage_queue_completion_with_release` -/
def stageByJob (jobId content : String) (now : Rat) (owner : Option (String × Int)) :
    CompletionCall := ⟨jobId, content, now, owner, none⟩

/-- `stage_owned_queue_completion_with_release` -/
def stageOwned (expected : StoredQueueJob) (content : String) (now : Rat)
    (owner : Option (String × Int)) : CompletionCall :=
  ⟨expected.jobId, content, now, owner, some expected⟩

/-- The rows that run this turn of the thread; no row runs the turn NULL. -/
def runningRows (db : QueueDb ρ) (expected : StoredQueueJob) : Nat :=
  db.jobs.count fun r => r.targetThreadId == expected.targetThreadId && r.turnId.isSome &&
    r.turnId == expected.turnId && r.state == .running

def ownershipChanged : StoreError := .invalidQueueState "completion ownership changed before commit"

def validateOwnership (db : QueueDb ρ) (job : StoredQueueJob) (expected : Option StoredQueueJob) :
    Except StoreError Unit :=
  match expected with
  | none => .ok ()
  | some expected =>
    if job ≠ expected ∨ job.state ≠ .running ∨ runningRows db expected ≠ 1 then
      .error ownershipChanged
    else .ok ()

/-- `INSERT OR IGNORE INTO codex_delivery_outbox`: a row with the id of either column stays. -/
def insertDelivery (hooks : QueueHooks ρ) (db : QueueDb ρ) (delivery : OutboxNotice) :
    Except StoreError (QueueDb ρ) :=
  match hooks.fenceNotice db delivery with
  | some error => .error error
  | none =>
    if db.outbox.contains fun n =>
        n.deliveryId == delivery.deliveryId || n.jobId == delivery.jobId then .ok db
    else insertNotice hooks db delivery

/-- `delivery::select` -/
def selectDelivery (db : QueueDb ρ) (deliveryId : String) : Except StoreError OutboxNotice :=
  match db.outbox.find deliveryId with
  | none => .error (.deliveryNotFound deliveryId)
  | some delivery => .ok delivery

/-- The delivery of a job whose turn ended. -/
def StoredQueueJob.delivery (job : StoredQueueJob) (turn content : String) (now : Rat) :
    OutboxNotice :=
  ⟨job.jobId, job.jobId, job.targetThreadId, turn, job.channelId, content, now⟩

def QueueDb.withRest (db : QueueDb ρ) (rest : ρ) : QueueDb ρ := { db with rest := rest }

/-- What the observation journal keeps of the turn. -/
def clearJournal (hooks : CompletionHooks ρ) (db : QueueDb ρ) (thread turn : String) :
    Except StoreError (QueueDb ρ) := do
  let retained ← hooks.retainTerminalJournal db thread turn
  let rest ← (if retained then .ok db.rest else hooks.deleteObservedCompletion db.rest thread turn)
  let rest ← hooks.deleteObservedAnswer rest thread turn
  .ok (db.withRest rest)

/-- The part of the transaction that knows the turn. -/
def stageTurn (hooks : CompletionHooks ρ) (call : CompletionCall) (job : StoredQueueJob)
    (turn : String) (db : QueueDb ρ) : Except StoreError (OutboxNotice × QueueDb ρ) := do
  let rest ← hooks.reconcileJob db job.jobId
  let db := db.withRest rest
  let rest ← (match call.expected with
    | none => .ok db.rest
    | some expected => hooks.settleOwned db expected call.owner)
  let db ← insertDelivery hooks.queue (db.withRest rest) (job.delivery turn call.content call.now)
  let marker := ObservationGap.turnOriginMarker job.targetThreadId turn
  let rest ← hooks.insertMirrorEvent db.rest marker job.targetThreadId call.now
  let (_, db) ← deleteJob hooks.queue (db.withRest rest) job.jobId
  let db ← clearJournal hooks db job.targetThreadId turn
  let delivery ← selectDelivery db job.jobId
  match call.owner with
  | none => .ok (delivery, db)
  | some (owner, generation) =>
    if job.appServerGeneration == generation then do
      let rest ← hooks.stageCandidate db job owner
      .ok (delivery, db.withRest rest)
    else .ok (delivery, db)

def stageCompletionIn (hooks : CompletionHooks ρ) (call : CompletionCall) (db : QueueDb ρ) :
    Except StoreError (OutboxNotice × QueueDb ρ) := do
  let job ← selectJob db call.jobId
  validateOwnership db job call.expected
  ensureTargetAvailable db job.targetThreadId
  let rest ← hooks.queue.recordJobOrigin db job
  match job.turnId with
  | none => .error (.queueJobHasNoTurn call.jobId)
  | some turn => stageTurn hooks call job turn (db.withRest rest)

def stageCompletion (hooks : CompletionHooks ρ) (call : CompletionCall) (db : QueueDb ρ) :
    Except StoreError OutboxNotice × QueueDb ρ :=
  commit (stageCompletionIn hooks call) db

end CodexRemote.Store

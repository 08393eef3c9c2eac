import CodexRemote.Foundations.Counters
import CodexRemote.Foundations.Tables
import CodexRemote.Foundations.Transactions
import CodexRemote.Store.ArchivedCleanup
import CodexRemote.Store.Ingress.Journal

/-! # Queue jobs

Rows of `codex_turn_queue`, what the store decodes from them, and the tables that
decide whether a job may move.  Tables of other modules are a parameter; their triggers
and checks are the hooks.
-/

namespace CodexRemote.Store

open Foundations

/-- The `state` column. -/
inductive RawQueueState where
  | pending
  | starting
  | running
deriving DecidableEq, Repr

inductive QueueJobState where
  | pending
  | starting
  | running
  | quarantined
deriving DecidableEq, Repr

/-- The `baseline_turn_ids` column, as `serde_json` reads it. -/
inductive BaselineColumn where
  /-- an array of strings, as the store writes it -/
  | turns (ids : List String)
  /-- any other JSON value, and the texts it decodes to -/
  | other (decoded : List String)
  | malformed
deriving DecidableEq, Repr

structure QueueRow where
  jobId : String
  targetThreadId : String
  channelId : Int
  ownerUserId : Option Int
  discordMessageId : Option Int
  appServerGeneration : Int
  executionGeneration : Option Int
  prompt : String
  queued : Bool
  ackSent : Bool
  state : RawQueueState
  attemptCount : Int
  turnId : Option String
  baselineTurnIds : BaselineColumn
  lastError : String
  createdAt : Rat
  updatedAt : Rat
  goalWaiting : Bool
  turnObservationGeneration : Option Int
deriving DecidableEq

structure StoredQueueJob where
  jobId : String
  targetThreadId : String
  channelId : Int
  ownerUserId : Option Int
  discordMessageId : Option Int
  appServerGeneration : Int
  executionGeneration : Option Int
  turnObservationGeneration : Option Int
  goalWaiting : Bool
  prompt : String
  queued : Bool
  ackSent : Bool
  state : QueueJobState
  attemptCount : Int
  turnId : Option String
  baselineTurnIds : List String
  lastError : String
  createdAt : Rat
  updatedAt : Rat
deriving DecidableEq

def quarantinedTurnPrefix : String := "cdr-quarantined:"
def quarantinedErrorPrefix : String := "[cdr-rust:app-server-fork-quarantine:v1] "
def executionHeldPrefix : String := "[cdr-rust:execution-held:v1] "
def reserveHoldPrefix : String := "[cdr-rust:auto-reserve-hold:v1] "
def startingCandidateHoldPrefix : String := "[cdr-rust:turn-start-candidates-ambiguous:v1] "
def startingCandidateNoticePrefix : String := "turn-start-candidates-ambiguous:"

/-- `str::starts_with` -/
def startsWith (text start : String) : Bool := start.toList.isPrefixOf text.toList

def isQuarantineEncoding (state : RawQueueState) (turnId : Option String) (lastError : String) :
    Bool :=
  state == .running && turnId.any (startsWith · quarantinedTurnPrefix) &&
    startsWith lastError quarantinedErrorPrefix

def QueueRow.decodedState (row : QueueRow) : QueueJobState :=
  match row.state with
  | .pending => .pending
  | .starting => .starting
  | .running =>
    if isQuarantineEncoding row.state row.turnId row.lastError then .quarantined else .running

def BaselineColumn.decode : BaselineColumn → Except StoreError (List String)
  | .turns ids => .ok ids
  | .other decoded => .ok decoded
  | .malformed => .error (.json "baseline_turn_ids")

/-- `RawQueueJob::decode` -/
def QueueRow.decode (row : QueueRow) : Except StoreError StoredQueueJob :=
  row.baselineTurnIds.decode.map fun baseline =>
    { jobId := row.jobId
      targetThreadId := row.targetThreadId
      channelId := row.channelId
      ownerUserId := row.ownerUserId
      discordMessageId := row.discordMessageId
      appServerGeneration := row.appServerGeneration
      executionGeneration := row.executionGeneration
      turnObservationGeneration := row.turnObservationGeneration
      goalWaiting := row.goalWaiting
      prompt := row.prompt
      queued := row.queued
      ackSent := row.ackSent
      state := row.decodedState
      attemptCount := row.attemptCount
      turnId := row.turnId
      baselineTurnIds := baseline
      lastError := row.lastError
      createdAt := row.createdAt
      updatedAt := row.updatedAt }

/-! ## Tables beside the queue -/

/-- `cdr_execution_holds` -/
structure ExecutionHold where
  jobId : String
  targetThreadId : String
  reason : String
  evidence : String
deriving DecidableEq, Repr

/-- `codex_thread_fork_handoffs` -/
structure ForkHandoff where
  handoffId : String
  ambiguousJobId : Option String
  sourceThreadId : String
  expectedGeneration : Int
  discordChannelId : Int
  discordThreadId : Int
  quarantineReason : String
  lastForkError : String
  forkFailureAmbiguous : Bool
  observedTargetThreadId : Option String
  targetThreadId : Option String
  completedGeneration : Option Int
deriving DecidableEq, Repr

/-- `codex_prompt_intakes` -/
structure PromptIntake where
  jobId : String
  targetThreadId : String
  channelId : Int
  ownerUserId : Option Int
  discordMessageId : Option Int
  rawPrompt : String
  autoQueueWhenBusy : Bool
  requireCurrentMirror : Bool
  attemptCount : Int
  lastError : String
  retryAfter : Rat
  claimToken : Option String
  claimExpiresAt : Rat
  createdAt : Rat
  updatedAt : Rat
deriving DecidableEq

/-- `codex_request_cancellations` -/
structure RequestCancellation where
  jobId : String
  targetThreadId : String
  channelId : Int
  ownerUserId : Int
  discordMessageId : Option Int
  cancelledAt : Rat
deriving DecidableEq, Repr

/-- A row of `codex_delivery_outbox`, as the queue writes and reads it. -/
structure OutboxNotice where
  deliveryId : String
  jobId : String
  targetThreadId : String
  turnId : String
  channelId : Int
  content : String
  updatedAt : Rat
deriving DecidableEq

structure QueueDb (ρ : Type) where
  archive : Archive
  jobs : Table QueueRow.jobId
  intakes : Table PromptIntake.jobId
  cancellations : Table RequestCancellation.jobId
  holds : Table ExecutionHold.jobId
  handoffs : Table ForkHandoff.handoffId
  ingress : Table IngressRow.ingressId
  outbox : Table OutboxNotice.deliveryId
  /-- targets of `codex_dead_generation_holds` -/
  deadTargets : List String
  /-- `codex_dead_generation_incidents`: runtime and generation -/
  incidents : List (String × Int)
  runtime : Option String
  /-- fork handoffs are retired: `codex_exact_thread_routing` exists -/
  exactRouting : Bool
  rest : ρ

structure NewQueueJob where
  jobId : String
  targetThreadId : String
  channelId : Int
  ownerUserId : Option Int
  discordMessageId : Option Int
  appServerGeneration : Int
  prompt : String
  queued : Bool
  ackSent : Bool
  createdAt : Rat
deriving DecidableEq

/-- What other modules check and write inside the queue's transactions. -/
structure QueueHooks (ρ : Type) where
  /-- fences of other modules that abort an update, an insert or a delete -/
  fenceUpdate : QueueDb ρ → QueueRow → QueueRow → Option StoreError
  fenceInsert : QueueDb ρ → QueueRow → Option StoreError
  fenceDelete : QueueDb ρ → QueueRow → Option StoreError
  fenceIntakeUpdate : QueueDb ρ → PromptIntake → PromptIntake → Option StoreError
  fenceIntakeInsert : QueueDb ρ → PromptIntake → Option StoreError
  fenceIntakeDelete : QueueDb ρ → PromptIntake → Option StoreError
  fenceIngress : QueueDb ρ → IngressRow → IngressRow → Option StoreError
  fenceNotice : QueueDb ρ → OutboxNotice → Option StoreError
  asyncAdmission : QueueDb ρ → String → Except StoreError Unit
  /-- `async_question::dispatch_held_in` -/
  asyncDispatchHeld : QueueDb ρ → String → Bool
  /-- `idle_release::before_enqueue` -/
  beforeEnqueue : QueueDb ρ → String → Except StoreError ρ
  bindRunning : QueueDb ρ → StoredQueueJob → Except StoreError ρ
  recordJobOrigin : QueueDb ρ → StoredQueueJob → Except StoreError ρ
  bindLateStart : QueueDb ρ → StoredQueueJob → StoredQueueJob → String → Except StoreError ρ
  stageStartNotice : QueueDb ρ → StoredQueueJob → String → Except StoreError ρ
  /-- `ingress::new_execution_prompt`, which compares digests of the attachments -/
  newExecutionPrompt : IngressRow → Except StoreError (Option String)
  /-- `new_reply::promote_in` -/
  promoteNewReply : QueueDb ρ → IngressRow → NewQueueJob → String → Except StoreError ρ
  /-- `ingress::stop::revision::record_recovery_in`: target, channel, owner, jobs, time -/
  recordRecovery : QueueDb ρ → String → Int → Int → List String → Rat → Except StoreError ρ
  sha256Hex : String → String
  jobJson : StoredQueueJob → String
  /-- the evidence texts that a recovery cancellation keeps -/
  requestEvidence : StoredQueueJob ⊕ PromptIntake → Rat → String
  ingressEvidence : IngressRow → String

variable {ρ : Type}

/-! ## Reads -/

def selectJob (db : QueueDb ρ) (jobId : String) : Except StoreError StoredQueueJob :=
  match db.jobs.find jobId with
  | none => .error (.queueJobNotFound jobId)
  | some row => row.decode

/-- The rows of the live view: neither covered by a disposition nor recorded. -/
def liveJob (archive : Archive) (row : QueueRow) : Bool :=
  !archive.recordRetired .turnQueue row.jobId &&
    !archive.dispositions.any (·.covers row.targetThreadId row.channelId)

/-- `ORDER BY created_at, job_id` -/
def listOrder (a b : QueueRow) : Bool :=
  a.createdAt < b.createdAt || (a.createdAt == b.createdAt && a.jobId ≤ b.jobId)

/-- `list_filtered`; `all_jobs` is the list without filters. -/
def listFiltered (db : QueueDb ρ) (target : Option String) (generation : Option Int) :
    Except StoreError (List StoredQueueJob) :=
  let selected := db.jobs.select fun r => liveJob db.archive r &&
    target.all (r.targetThreadId == ·) && generation.all (r.appServerGeneration == ·)
  (selected.mergeSort listOrder).mapM QueueRow.decode

def allJobs (db : QueueDb ρ) : Except StoreError (List StoredQueueJob) := listFiltered db none none

def holdReason (db : QueueDb ρ) (jobId : String) : Option String :=
  (db.holds.find jobId).map (·.reason)

/-- `INSERT OR IGNORE` of a hold; holds are never cleared. -/
def hold (db : QueueDb ρ) (jobId target reason evidence : String) : QueueDb ρ :=
  { db with holds := db.holds.insertOrIgnore ⟨jobId, target, reason, evidence⟩ }

def legacyOrCurrentError (error : String) : Bool :=
  startsWith error executionHeldPrefix || startsWith error reserveHoldPrefix

def targetIsHeld (db : QueueDb ρ) (target : String) : Bool := db.deadTargets.contains target

def generationIsSealed (db : QueueDb ρ) (generation : Int) : Bool :=
  db.runtime.any fun runtime => db.incidents.contains (runtime, generation)

def jobCanMutate (db : QueueDb ρ) (job : StoredQueueJob) : Bool :=
  !targetIsHeld db job.targetThreadId && !generationIsSealed db job.appServerGeneration

/-- A fork of this thread was begun and has no completed target. -/
def unresolvedHandoff (db : QueueDb ρ) (source : String) : Bool :=
  db.handoffs.contains fun h => h.sourceThreadId == source && h.targetThreadId.isNone

/-! ## Updates of one job -/

/-- The `cancelled_*` triggers of the queue and the intakes. -/
def cancelled (db : QueueDb ρ) (jobId : String) (messageId : Option Int) : Bool :=
  db.cancellations.contains fun c =>
    c.jobId == jobId || (messageId.isSome && c.discordMessageId == messageId)

def cancelledError : StoreError :=
  .database "request was cancelled by its original sender; no automatic retry"

/-- What the triggers before an update of a row answer: none lets it pass. -/
def updateFence (hooks : QueueHooks ρ) (db : QueueDb ρ) (old new : QueueRow) : Option StoreError :=
  if cancelled db new.jobId new.discordMessageId then some cancelledError
  else hooks.fenceUpdate db old new

/-- `UPDATE codex_turn_queue SET … WHERE condition`, with the number of rows changed.  Frozen
rows ignore it; a trigger that aborts fails the statement. -/
def updateJobs (hooks : QueueHooks ρ) (db : QueueDb ρ) (condition : QueueRow → Bool)
    (assign : QueueRow → QueueRow) (keeps : ∀ r, (assign r).jobId = r.jobId) :
    Except StoreError (Nat × QueueDb ρ) :=
  let selected := fun r : QueueRow => condition r && !db.archive.frozen .turnQueue r.jobId
  match (db.jobs.select selected).findSome? fun r => updateFence hooks db r (assign r) with
  | some error => .error error
  | none => .ok (db.jobs.count selected, { db with jobs := db.jobs.update selected assign keeps })

/-- An update of the job with one id; true when its row changed. -/
def updateJob (hooks : QueueHooks ρ) (db : QueueDb ρ) (jobId : String) (condition : QueueRow → Bool)
    (assign : QueueRow → QueueRow) (keeps : ∀ r, (assign r).jobId = r.jobId) :
    Except StoreError (Bool × QueueDb ρ) :=
  (updateJobs hooks db (fun r => r.jobId == jobId && condition r) assign keeps).map
    fun (changed, db) => (changed == 1, db)

end CodexRemote.Store

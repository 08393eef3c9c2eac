import CodexRemote.Store.Ingress.StopRevision
import CodexRemote.Store.Queue.Cancel

/-! # Stops of a target

A stop holds every request of its target in one transaction: the queued jobs, the intakes that are
being prepared and the requests for a turn that no job stands for.  Holds are never cleared.
-/

namespace CodexRemote.Store

open Foundations

/-! ## Tables beside the requests -/

/-- The record of a stop that names a running turn; `record_json` is its text. -/
structure StopControl where
  operationId : String
  target : String
  channel : Int
  owner : Int
  resident : String
  generation : Int
  turn : String
  binding : Json
  /-- the texts of the jobs that were held -/
  jobs : List String
  canSettle : Bool
deriving DecidableEq

inductive ControlPhase where
  | accepted
  | dispatching
  | acknowledged
  | unknown
  | settled
deriving DecidableEq, Repr

/-- `cdr_stop_controls`; the columns that repeat fields of the record are read from it. -/
structure ControlRow where
  control : StopControl
  phase : ControlPhase
  claimToken : Option String
  wireAttempt : Option String
  wireId : Option String
  lastError : String
  terminal : Option String
deriving DecidableEq

def ControlRow.operationId (row : ControlRow) : String := row.control.operationId

/-- `codex_observed_completions` -/
structure CompletionRow where
  threadId : String
  turnId : String
  generation : Int
  payload : String
  residentOwner : Option String
deriving DecidableEq, Repr

def CompletionRow.turn (completion : CompletionRow) : String × String :=
  (completion.threadId, completion.turnId)

/-- A record of `cdr_archived_room_records` that names a stop control: the disposition that
captured it, and the operation -/
structure ArchivedControl where
  dispositionId : String
  operationId : String
deriving DecidableEq, Repr

structure StopTables (σ : Type) where
  revisions : StopRevision.StopRevisions
  controls : Table ControlRow.operationId
  archivedControls : List ArchivedControl
  completions : Table CompletionRow.turn
  /-- targets of `codex_archive_fences` -/
  archiveFences : List String
  /-- targets of the prepared `codex_mutation_attempts` -/
  preparedMutations : List String
  others : σ

abbrev StopDb (σ : Type) := QueueDb (StopTables σ)

def QueueJobState.name : QueueJobState → String
  | .pending => "Pending"
  | .starting => "Starting"
  | .running => "Running"
  | .quarantined => "Quarantined"

/-- A job as `serde_json` writes it -/
def StoredQueueJob.value (job : StoredQueueJob) : Json :=
  .object
    [("ack_sent", .bool job.ackSent), ("app_server_generation", .integer job.appServerGeneration),
      ("attempt_count", .integer job.attemptCount),
      ("baseline_turn_ids", StopRevision.strings job.baselineTurnIds),
      ("channel_id", .integer job.channelId), ("created_at", .real job.createdAt),
      ("discord_message_id", .ofInteger job.discordMessageId),
      ("execution_generation", .ofInteger job.executionGeneration),
      ("goal_waiting", .bool job.goalWaiting), ("job_id", .text job.jobId),
      ("last_error", .text job.lastError), ("owner_user_id", .ofInteger job.ownerUserId),
      ("prompt", .text job.prompt), ("queued", .bool job.queued), ("state", .text job.state.name),
      ("target_thread_id", .text job.targetThreadId), ("turn_id", .ofText job.turnId),
      ("turn_observation_generation", .ofInteger job.turnObservationGeneration),
      ("updated_at", .real job.updatedAt)]

/-- The texts of `serde_json`, and what other modules do inside the transactions of a stop. -/
structure StopHooks (σ : Type) where
  queue : QueueHooks (StopTables σ)
  render : Json → String
  jobText : StoredQueueJob → String
  parse : String → Option Json
  /-- A text reads back as its job, up to the last digit of the times. -/
  parse_jobText : ∀ job, ∃ createdAt updatedAt,
    parse (jobText job) = some { job with createdAt := createdAt, updatedAt := updatedAt }.value
  /-- `async_resolution::settle_stopped_execution_in`: target, turn, observation, reader,
  generation -/
  settleStopped : StopDb σ → String → String → Json → String → Int → Except StoreError σ
  /-- `async_resolution::journal_observation_allowed_in`: thread, turn, generation, resident,
  payload -/
  observationAllowed : StopDb σ → String → String → Int → String → String → Except StoreError Bool
  /-- `mutation_attempt::response::record_terminal_in`, with the same arguments -/
  recordResponse : StopDb σ → String → String → Int → String → String → Except StoreError σ
  /-- `bind_running_in` and `record_job_origin` leave the tables of the stops alone. -/
  bindRunning_keeps : ∀ db job rest, queue.bindRunning db job = .ok rest →
    ∃ others, rest = { db.rest with others := others }
  recordJobOrigin_keeps : ∀ db job rest, queue.recordJobOrigin db job = .ok rest →
    ∃ others, rest = { db.rest with others := others }

namespace Stop

variable {σ : Type}

def reason : String :=
  "user requested stop; original request held, never replay; execution end unconfirmed"

/-! ## What a stop may address -/

/-- The only field of the only command of a binding -/
def reference (binding : Json) : Option Json :=
  match binding.get "command" with
  | some (.object [("Stop", .object [("reference", reference)])]) => some reference
  | _ => none

def validRoute (db : StopDb σ) (scope : StopScope) (binding : Json) (explicit : Bool) :
    Except StoreError Bool :=
  match (binding.get "route").bind Json.asText with
  | some "Explicit" => .ok explicit
  | some "Mapped" =>
    if explicit then .ok false
    else (mirroredThreadId db (some scope.channel)).map (· == some scope.target)
  | some "Selected" =>
    if explicit then .ok false
    else (mirroredThreadId db (some scope.channel)).map (·.isNone)
  | _ => .ok false

/-- The stop's own message, as its transaction found it. -/
def expectedMatches (db : StopDb σ) (scope : StopScope) (binding : Json) (record : IngressRow) :
    Bool :=
  match record.eventId.filter (0 < ·) with
  | none => false
  | some event =>
    db.ingress.find record.ingressId = some record && record.kind = .message &&
      record.ingressId = "message:" ++ toString event && record.sourceMessageId = some event &&
      record.channelId = scope.channel && record.ownerUserId = scope.owner &&
      record.state = .executing && record.ownerId = none && record.ownerKind = none &&
      record.targetThreadId = some scope.target &&
      record.payload.get "version" = some (.integer 1) &&
      record.payload.get "lifecycle_binding" = some binding &&
      record.payload.pointer ["plan", "Execute"] = binding.get "command"

def validate (db : StopDb σ) (scope : StopScope) (binding : Json) (expected : Option IngressRow) :
    Except StoreError Unit :=
  match reference binding with
  | none => .error stopRefused
  | some reference =>
    let explicit := reference.asText.any fun text => !MutationAttempts.blank text
    if (!explicit && reference ≠ .null) ||
        (binding.get "target").bind Json.asText ≠ some scope.target then .error stopRefused
    else do
      let valid ← validRoute db scope binding explicit
      if !valid || expected.any fun record => !expectedMatches db scope binding record then
        .error stopRefused
      else .ok ()

/-! ## Holds of queued jobs and of intakes -/

/-- Target, reason and evidence of a hold -/
abbrev HoldSnapshot := String × String × String

def holdSnapshot (db : StopDb σ) (jobId : String) : Option HoldSnapshot :=
  (db.holds.find jobId).map fun hold => (hold.targetThreadId, hold.reason, hold.evidence)

/-- The first 129 ids, in order -/
def firstIds (ids : List String) : List String := (ids.mergeSort fun a b => a ≤ b).take 129

def targetJobs (db : StopDb σ) (target : String) : List String :=
  firstIds ((db.jobs.select (·.targetThreadId == target)).map (·.jobId))

/-- One request of a loop over holds: an older hold stays, if it is of this target. -/
def holdOne (hooks : StopHooks σ) (refused : StoreError) (target : String)
    (state : List HoldSnapshot × StopDb σ) (request : String × Json) :
    Except StoreError (List HoldSnapshot × StopDb σ) :=
  let (holds, db) := state
  let wanted := (holdSnapshot db request.1).getD (target, reason, hooks.render request.2)
  if wanted.1 ≠ target then .error refused
  else .ok (holds ++ [wanted], hold db request.1 target wanted.2.1 wanted.2.2)

def holdEach (hooks : StopHooks σ) (refused : StoreError) (target : String) (db : StopDb σ)
    (requests : List (String × Json)) : Except StoreError (List HoldSnapshot × StopDb σ) :=
  requests.foldlM (holdOne hooks refused target) ([], db)

/-- The loop of `accept_scope` -/
def holdJobs (hooks : StopHooks σ) (scope : StopScope) (expected : Option IngressRow)
    (db : StopDb σ) (jobs : List StoredQueueJob) :
    Except StoreError (List HoldSnapshot × StopDb σ) :=
  holdEach hooks stopRefused scope.target db (jobs.map fun job => (job.jobId,
    .object [("ingress_id", .ofText (expected.map (·.ingressId))), ("kind", .text "stop"),
      ("request", job.value)]))

def verifyJobHolds (db : StopDb σ) (jobs : List StoredQueueJob) (holds : List HoldSnapshot) :
    Except StoreError Unit :=
  (jobs.zip holds).forM fun (job, hold) => do
    let current ← selectJob db job.jobId
    if current ≠ job || holdSnapshot db job.jobId ≠ some hold then .error stopRefused else .ok ()

namespace Intake

def targetIds (db : StopDb σ) (target : String) : List String :=
  firstIds ((db.intakes.select (·.targetThreadId == target)).map (·.jobId))

def snapshot (db : StopDb σ) (scope : StopScope) (queued : Nat) :
    Except StoreError (List PromptIntake) :=
  let ids := targetIds db scope.target
  if 128 < queued + ids.length then .error stopRefused
  else
    ids.mapM fun id =>
      match db.intakes.find id with
      | none => .error stopRefused
      | some intake =>
        if intake.channelId ≠ scope.channel || intake.ownerUserId ≠ some scope.owner ||
            intake.targetThreadId ≠ scope.target then .error stopRefused
        else .ok intake

def evidence (operation : Option String) (intake : PromptIntake) : Json :=
  .object [("channel_id", .integer intake.channelId), ("claim_token", .ofText intake.claimToken),
    ("discord_message_id", .ofInteger intake.discordMessageId), ("job_id", .text intake.jobId),
    ("kind", .text "stop_preparing"), ("operation_id", .ofText operation),
    ("owner_user_id", .ofInteger intake.ownerUserId),
    ("target_thread_id", .text intake.targetThreadId)]

def hold (hooks : StopHooks σ) (scope : StopScope) (operation : Option String) (db : StopDb σ)
    (originals : List PromptIntake) : Except StoreError (List HoldSnapshot × StopDb σ) :=
  holdEach hooks stopRefused scope.target db
    (originals.map fun intake => (intake.jobId, evidence operation intake))

def verify (db : StopDb σ) (scope : StopScope) (originals : List PromptIntake)
    (holds : List HoldSnapshot) : Except StoreError Unit :=
  if targetIds db scope.target ≠ originals.map (·.jobId) || holds.length ≠ originals.length then
    .error stopRefused
  else
    (originals.zip holds).forM fun (intake, hold) =>
      if db.intakes.find intake.jobId ≠ some intake || holdSnapshot db intake.jobId ≠ some hold then
        .error stopRefused
      else .ok ()

end Intake

/-- `sort` and `dedup` -/
def receiptIds (queued : List String) (originals : List PromptIntake) : List String :=
  ((queued ++ originals.map (·.jobId)).mergeSort fun a b => a ≤ b).dedup

/-! ## Holds of unowned requests -/

namespace Unowned

def ids (db : StopDb σ) (target : String) : List String :=
  firstIds ((unownedAsks db target).map (·.ingressId))

def snapshot (db : StopDb σ) (scope : StopScope) (already : Nat) :
    Except StoreError (List IngressRow) :=
  let keys := ids db scope.target
  if 128 < already + keys.length then .error stopRefused
  else
    keys.mapM fun key =>
      match db.ingress.find key with
      | none => .error stopRefused
      | some original =>
        if original.channelId ≠ scope.channel || original.ownerUserId ≠ scope.owner ||
            original.eventId.all (· ≤ 0) || original.ownerKind ≠ none ||
            original.ownerId ≠ none then .error stopRefused
        else .ok original

def evidence (operation : String) (row : IngressRow) : Json :=
  .object [("channel", .integer row.channelId), ("event_id", .ofInteger row.eventId),
    ("ingress_id", .text row.ingressId), ("kind", .text "stop_original_ingress"),
    ("operation_id", .text operation), ("owner", .integer row.ownerUserId),
    ("target", .ofText row.targetThreadId)]

/-- An earlier hold of this very request -/
def previousMatches (row : IngressRow) (previous : Json) : Bool :=
  row.state = .held && previous.get "kind" = some (.text "stop_original_ingress") &&
    previous.get "ingress_id" = some (.text row.ingressId) &&
    (previous.get "target").bind Json.asText = row.targetThreadId &&
    previous.get "channel" = some (.integer row.channelId) &&
    previous.get "owner" = some (.integer row.ownerUserId) &&
    (previous.get "event_id").bind Json.asInteger = row.eventId

/-- The row with its hold; everything else stays as it was. -/
def stopped (operation : String) (row : IngressRow) : IngressRow :=
  { row with
    state := .held
    holdReason := if row.holdReason.isEmpty then reason else row.holdReason
    outcome := some ((row.outcome.getD (.object [])).set "stop_hold" (evidence operation row)) }

/-- One request of the loop in `hold` -/
def holdOne (hooks : StopHooks σ) (operation : String) (state : List IngressRow × StopDb σ)
    (original : IngressRow) : Except StoreError (List IngressRow × StopDb σ) :=
  let (held, db) := state
  let outcome := original.outcome.getD (.object [])
  if !outcome.isObject then .error stopRefused
  else
    match outcome.get "stop_hold" with
    | some previous =>
      if !previousMatches original previous then .error stopRefused
      else .ok (held ++ [original], db)
    | none => do
        let wanted := stopped operation original
        let (changed, db) ← updateIngress hooks.queue db
          (fun row => row.ingressId == original.ingressId && row.ownerId.isNone)
          (fun row => { row with
            state := .held
            holdReason := wanted.holdReason
            outcome := some
              ((row.outcome.getD (.object [])).set "stop_hold" (evidence operation original)) })
          (fun _ => rfl)
        if changed ≠ 1 || db.ingress.find original.ingressId ≠ some wanted then .error stopRefused
        else .ok (held ++ [wanted], db)

def hold (hooks : StopHooks σ) (operation : String) (db : StopDb σ) (originals : List IngressRow) :
    Except StoreError (List IngressRow × StopDb σ) :=
  originals.foldlM (holdOne hooks operation) ([], db)

def verify (db : StopDb σ) (target : String) (held : List IngressRow) : Except StoreError Unit :=
  if ids db target ≠ held.map (·.ingressId) then .error stopRefused
  else
    held.forM fun original =>
      if db.ingress.find original.ingressId ≠ some original then .error stopRefused else .ok ()

end Unowned

/-! ## The stop's own record -/

def acceptedOutcome (receipt : StopReceipt) : Json :=
  .object [("execution_end_confirmed", .bool false),
    ("ingresses", StopRevision.strings receipt.ingresses),
    ("jobs", StopRevision.strings receipt.jobs), ("kind", .text "stop_accepted")]

def claimRecord (hooks : StopHooks σ) (expected : Option IngressRow) (receipt : StopReceipt)
    (now : Rat) (db : StopDb σ) : Except StoreError (Option IngressRow × StopDb σ) :=
  match expected with
  | none => .ok (none, db)
  | some expected => do
      let claim := fun row : IngressRow =>
        { row with
          phase := "stop_accepted"
          updatedAt := now
          outcome := some (acceptedOutcome receipt) }
      let (changed, db) ← updateIngress hooks.queue db
        (fun row => row.ingressId == expected.ingressId && row.state == .executing &&
          row.phase == "processing" && row.ownerId.isNone) claim (fun _ => rfl)
      if changed ≠ 1 then .error stopRefused else .ok (some (claim expected), db)

/-- `advance_in` of the revisions of this store -/
def advance (scope : StopScope) (binding : Json) (receipt : StopReceipt) (operation : String)
    (db : StopDb σ) : Except StoreError (StopRevision.RevisionReceipt × StopDb σ) := do
  let hadPreparing := db.intakes.contains (·.targetThreadId == scope.target)
  let (record, revisions) ←
    StopRevision.advanceIn scope binding receipt operation hadPreparing db.rest.revisions
  .ok (record, { db with rest := { db.rest with revisions := revisions } })

/-! ## Stops of what is not running -/

/-- `std::fs::metadata` of the database -/
inductive FileStatus where
  | present
  | missing (error : String)
  | failed (error : String)
deriving DecidableEq, Repr

structure StopCall where
  file : FileStatus
  scope : StopScope
  binding : Json
  expected : Option IngressRow
  /-- the answers of `check_selected`, before the writes and after them -/
  selectedBefore : Except StoreError Unit
  selectedAfter : Except StoreError Unit
  /-- a fresh UUID, and the clock -/
  id : String
  now : Rat

def StopCall.valid (call : StopCall) : Bool :=
  !MutationAttempts.blank call.scope.target && 0 < call.scope.channel && 0 < call.scope.owner &&
    call.expected.all fun record => record.phase = "processing"

def StopCall.operation (call : StopCall) : String :=
  "stop:" ++ (call.expected.map (·.ingressId)).getD call.id

def acceptScopeIn (hooks : StopHooks σ) (call : StopCall) (allowUncertain : Bool) (db : StopDb σ) :
    Except StoreError (Option StopReceipt × StopDb σ) := do
  let scope := call.scope
  validate db scope call.binding call.expected
  call.selectedBefore
  let ids := targetJobs db scope.target
  let preparing ← Intake.snapshot db scope ids.length
  let unowned ← Unowned.snapshot db scope (ids.length + preparing.length)
  if 128 < ids.length then .error stopRefused
  else
    let jobs ← ids.mapM (selectJob db)
    if jobs.any fun job => job.channelId ≠ scope.channel || job.ownerUserId ≠ some scope.owner then
      .error stopRefused
    else if !allowUncertain && ((jobs.isEmpty && preparing.isEmpty && unowned.isEmpty) ||
        jobs.any fun job => job.state ≠ .pending && job.state ≠ .starting) then .ok (none, db)
    else
      let (holds, db) ← holdJobs hooks scope call.expected db jobs
      validate db scope call.binding call.expected
      let (intakeHolds, db) ←
        Intake.hold hooks scope (call.expected.map (·.ingressId)) db preparing
      let (held, db) ← Unowned.hold hooks call.operation db unowned
      let receipt := ⟨receiptIds ids preparing, held.map (·.ingressId)⟩
      let (claimed, db) ← claimRecord hooks call.expected receipt call.now db
      let (revision, db) ← advance scope call.binding receipt call.operation db
      validate db scope call.binding claimed
      call.selectedAfter
      if targetJobs db scope.target ≠ ids then .error stopRefused
      else
        verifyJobHolds db jobs holds
        Intake.verify db scope preparing intakeHolds
        Unowned.verify db scope.target held
        StopRevision.verifyIn revision db.rest.revisions
        .ok (some receipt, db)

def acceptScope (hooks : StopHooks σ) (call : StopCall) (allowUncertain : Bool) (db : StopDb σ) :
    Except StoreError (Option StopReceipt) × StopDb σ :=
  if !call.valid then (.error stopRefused, db)
  else
    match call.file with
    | .missing error =>
      if call.expected.isNone then (.ok none, db)
      else (.error (.integrity ("stop database unavailable: " ++ error)), db)
    | .failed error => (.error (.integrity ("stop database unavailable: " ++ error)), db)
    | .present => commitWhen (·.isSome) (acceptScopeIn hooks call allowUncertain) db

def acceptNonrunning (hooks : StopHooks σ) (call : StopCall) (db : StopDb σ) :
    Except StoreError (Option StopReceipt) × StopDb σ := acceptScope hooks call false db

def acceptUnresolved (hooks : StopHooks σ) (call : StopCall) (db : StopDb σ) :
    Except StoreError (Option StopReceipt) × StopDb σ := acceptScope hooks call true db

end Stop

end CodexRemote.Store

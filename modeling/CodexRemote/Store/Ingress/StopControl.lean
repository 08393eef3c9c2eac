import CodexRemote.Store.Ingress.Stop

/-! # Interrupt authority of a stop

The record of a running stop is accepted once, claimed once and put on the wire once.  Only the
terminal of its own turn settles it.
-/

namespace CodexRemote.Store

open Foundations

def StoredQueueJob.completionEvidenceGeneration (job : StoredQueueJob) : Int :=
  job.turnObservationGeneration.getD job.appServerGeneration

structure StopClaim where
  control : StopControl
  token : String
deriving DecidableEq

/-- What one interrupt is for -/
structure InterruptKey where
  target : String
  resident : String
  generation : Int
  turn : String
deriving DecidableEq, Repr

def StopControl.key (control : StopControl) : InterruptKey :=
  ⟨control.target, control.resident, control.generation, control.turn⟩

namespace Stop.Control

variable {σ : Type}

def refused : StoreError :=
  .integrity "original stop control authority differs; no interrupt or replay"

/-- `ok_or_else(refused)` -/
def required {α : Type} : Option α → Except StoreError α
  | none => .error refused
  | some value => .ok value

def retained (db : StopDb σ) (control : StopControl) : Bool :=
  db.rest.controls.contains (·.control = control)

/-- `record_retired_in` for a stop control -/
def recordRetired (db : StopDb σ) (operation : String) : Bool :=
  db.rest.archivedControls.any (·.operationId == operation)

/-- The condition of the trigger that freezes the rows of an archived room -/
def frozen (db : StopDb σ) (operation : String) : Bool :=
  db.rest.archivedControls.any fun record => record.operationId == operation &&
    db.archive.dispositions.any fun d =>
      d.operationId == record.dispositionId && d.phase != .prepared

/-- `UPDATE cdr_stop_controls`, with the number of rows changed -/
def updateControls (db : StopDb σ) (condition : ControlRow → Bool)
    (assign : ControlRow → ControlRow) (keeps : ∀ row, (assign row).control = row.control) :
    Nat × StopDb σ :=
  let selected := fun row : ControlRow => condition row && !frozen db row.operationId
  (db.rest.controls.count selected,
    { db with rest := { db.rest with
        controls := db.rest.controls.update selected assign
          fun row => congrArg StopControl.operationId (keeps row) } })

/-- `INSERT INTO cdr_stop_controls`, with the trigger that captures rows of archived rooms -/
def insertControl (db : StopDb σ) (control : StopControl) : Except StoreError (StopDb σ) :=
  if control.generation ≤ 0 then .error (.database "CHECK constraint failed: generation>0")
  else
    match db.rest.controls.insert ⟨control, .accepted, none, none, none, "", none⟩ with
    | none => .error (.database "UNIQUE constraint failed: cdr_stop_controls.operation_id")
    | some controls =>
      let captured := (db.archive.dispositions.filter fun d => d.phase != .mappingRetired &&
        d.phase != .abortedSourceChanged && d.targetThreadId == control.target).map
          fun d => ⟨d.operationId, control.operationId⟩
      .ok { db with rest := { db.rest with
        controls := controls
        archivedControls := db.rest.archivedControls ++ captured } }

/-! ## Acceptance -/

def terminalObserved (db : StopDb σ) (target turn : String) : Bool :=
  (db.rest.completions.find (target, turn)).isSome

def runningJob (db : StopDb σ) (scope : StopScope) (jobs : List StoredQueueJob) :
    Except StoreError (StoredQueueJob × String) :=
  if jobs.any fun job => job.channelId ≠ scope.channel || job.ownerUserId ≠ some scope.owner ||
      job.state = .quarantined then .error refused
  else
    match jobs.filter (·.state = .running) with
    | [job] =>
      match job.turnId.filter fun turn => !turn.isEmpty with
      | none => .error refused
      | some turn =>
        if terminalObserved db scope.target turn then .error refused else .ok (job, turn)
    | _ => .error refused

def definitelyUnstarted (job : StoredQueueJob) : Bool :=
  job.state = .pending && job.attemptCount = 0 && job.executionGeneration = none &&
    job.turnId = none

def holdOriginals (hooks : StopHooks σ) (scope : StopScope) (operation : String) (db : StopDb σ)
    (jobs : List StoredQueueJob) : Except StoreError (List HoldSnapshot × StopDb σ) :=
  holdEach hooks refused scope.target db (jobs.map fun job => (job.jobId,
    .object [("kind", .text "stop"), ("operation_id", .text operation), ("request", job.value)]))

def canSettle (jobs : List StoredQueueJob) (running : StoredQueueJob) (generation : Int) : Bool :=
  jobs.all fun job => definitelyUnstarted job || (job.jobId = running.jobId &&
    job.completionEvidenceGeneration = generation && !job.goalWaiting)

def acceptRunningIn (hooks : StopHooks σ) (call : StopCall) (resident : String) (generation : Int)
    (db : StopDb σ) : Except StoreError (Option StopControl × StopDb σ) := do
  let scope := call.scope
  validate db scope call.binding call.expected
  call.selectedBefore
  let ids := targetJobs db scope.target
  if 128 < ids.length then .error refused
  else
    let jobs ← ids.mapM (selectJob db)
    if !jobs.any fun job => job.state = .running then .ok (none, db)
    else
      let (running, turn) ← runningJob db scope jobs
      let preparing ← Intake.snapshot db scope ids.length
      let unowned ← Unowned.snapshot db scope (ids.length + preparing.length)
      let control : StopControl :=
        { operationId := call.operation
          target := scope.target
          channel := scope.channel
          owner := scope.owner
          resident := resident
          generation := generation
          turn := turn
          binding := call.binding
          jobs := jobs.map hooks.jobText
          canSettle := canSettle jobs running generation }
      let (holds, db) ← holdOriginals hooks scope control.operationId db jobs
      let (intakeHolds, db) ← Intake.hold hooks scope (some control.operationId) db preparing
      let db ← insertControl db control
      validate db scope call.binding call.expected
      let (held, db) ← Unowned.hold hooks control.operationId db unowned
      let receipt := ⟨receiptIds ids preparing, held.map (·.ingressId)⟩
      let (claimed, db) ← claimRecord hooks call.expected receipt call.now db
      let (revision, db) ← advance scope call.binding receipt control.operationId db
      validate db scope call.binding claimed
      call.selectedAfter
      if targetJobs db scope.target ≠ ids || !retained db control then .error refused
      else
        verifyJobHolds db jobs holds
        Intake.verify db scope preparing intakeHolds
        Unowned.verify db scope.target held
        StopRevision.verifyIn revision db.rest.revisions
        .ok (some control, db)

def acceptRunning (hooks : StopHooks σ) (call : StopCall) (resident : String) (generation : Int)
    (db : StopDb σ) : Except StoreError (Option StopControl) × StopDb σ :=
  if !call.valid || resident.isEmpty || generation ≤ 0 then (.error refused, db)
  else
    match call.file with
    | .missing error => if call.expected.isNone then (.ok none, db) else (.error (.io error), db)
    | .failed error => (.error (.io error), db)
    | .present => commitWhen (·.isSome) (acceptRunningIn hooks call resident generation) db

/-! ## A start acknowledged after its stop -/

def latestScope (target : String) (stops : StopRevision.StopRevisions) :
    Except StoreError (Option (String × Json)) := do
  let _ ← StopRevision.currentIn stops
  let _ ← StopRevision.targetIn target stops
  .ok (((stops.receipts.select (·.targetThreadId = target)).mergeSort
    fun a b => b.revision ≤ a.revision).head?.map fun receipt =>
      (receipt.operationId, receipt.scopeJson))

/-- The running job is the starting one, after its acknowledgement and nothing else. -/
def sameOriginal (before after : StoredQueueJob) : Bool :=
  before.state = .starting && before.turnId = none && !before.goalWaiting &&
    0 < before.attemptCount && 0 < before.appServerGeneration &&
    before.executionGeneration = some before.appServerGeneration && after.state = .running &&
    !after.goalWaiting && after.turnObservationGeneration = some before.appServerGeneration &&
    before.jobId = after.jobId && before.targetThreadId = after.targetThreadId &&
    before.channelId = after.channelId && before.ownerUserId = after.ownerUserId &&
    before.discordMessageId = after.discordMessageId && before.prompt = after.prompt &&
    before.createdAt = after.createdAt && before.lastError = after.lastError &&
    before.attemptCount = after.attemptCount &&
    before.appServerGeneration = after.appServerGeneration &&
    before.executionGeneration = after.executionGeneration &&
    before.baselineTurnIds = after.baselineTurnIds

def singleOriginalCanSettle (db : StopDb σ) (scope : Json) (job : String) (count : Nat) : Bool :=
  count = 1 && (scope.get "hadPreparing").bind Json.asBool = some false &&
    (scope.get "ingresses").bind Json.asArray = some [] && (db.intakes.find job).isNone

/-- The new control is as it was inserted. -/
def pristine (db : StopDb σ) (operation : String) : Bool :=
  db.rest.controls.contains fun row => row.operationId = operation && row.phase = .accepted &&
    row.claimToken = none && row.wireAttempt = none && row.wireId = none && row.terminal = none

/-- `late_start::bind_in`, for the scope of the latest stop -/
def bindScope (hooks : StopHooks σ) (db : StopDb σ) (before running : StoredQueueJob)
    (resident operation : String) (scope : Json) (jobs : List Json) : Except StoreError (StopDb σ) :=
  if MutationAttempts.blank resident || !sameOriginal before running || 128 < jobs.length ||
      scope.get "target" ≠ some (.text before.targetThreadId) ||
      (scope.get "channel").bind Json.asInteger ≠ some before.channelId ||
      (scope.get "owner").bind Json.asInteger ≠ before.ownerUserId then .error refused
  else do
    let binding ← required (scope.get "binding")
    let owner ← required before.ownerUserId
    validate db ⟨before.targetThreadId, before.channelId, owner⟩ binding none
    let hold ← required (holdSnapshot db before.jobId)
    let turn ← required running.turnId
    if hold.1 ≠ before.targetThreadId || turn.isEmpty ||
        Discord.trim turn.toList ≠ turn.toList || before.baselineTurnIds.contains turn then
      .error refused
    else
      let control : StopControl :=
        { operationId := operation
          target := before.targetThreadId
          channel := before.channelId
          owner := owner
          resident := resident
          generation := before.appServerGeneration
          turn := turn
          binding := binding
          jobs := [hooks.jobText running]
          canSettle := singleOriginalCanSettle db scope before.jobId jobs.length }
      let db ← insertControl db control
      let current ← selectJob db before.jobId
      let latest ← latestScope before.targetThreadId db.rest.revisions
      if !pristine db operation || !retained db control ||
          holdSnapshot db before.jobId ≠ some hold || current ≠ running ||
          latest ≠ some (operation, scope) then .error refused
      else .ok db

/-- `bind_late_start_in` -/
def bindLateStart (hooks : StopHooks σ) (db : StopDb σ) (before running : StoredQueueJob)
    (resident : String) : Except StoreError (StopTables σ) := do
  match ← latestScope before.targetThreadId db.rest.revisions with
  | none => .ok db.rest
  | some (operation, scope) => do
      let jobs ← required ((scope.get "jobs").bind Json.asArray)
      -- an existing control is not widened or replaced by another acknowledgement
      if !jobs.any (fun id => id.asText = some before.jobId) ||
          (db.rest.controls.find operation).isSome then .ok db.rest
      else (bindScope hooks db before running resident operation scope jobs).map (·.rest)

/-- The hooks of the queue, with the late start of this store -/
def lateStart (hooks : StopHooks σ) : QueueHooks (StopTables σ) :=
  { hooks.queue with bindLateStart := bindLateStart hooks }

/-! ## Claim and wire -/

def readJson (hooks : StopHooks σ) (text : String) : Except StoreError Json :=
  match hooks.parse text with
  | none => .error (.json text)
  | some value => .ok value

def jobIdOf (value : Json) : Option String := (value.get "job_id").bind Json.asText

def requireHeld (db : StopDb σ) (target : String) (value : Json) : Except StoreError Unit := do
  let id ← required (jobIdOf value)
  if (holdSnapshot db id).all fun hold => hold.1 ≠ target then .error refused else .ok ()

/-- The running job of the record is the row of the queue, unchanged. -/
def requireOriginal (hooks : StopHooks σ) (db : StopDb σ) (control : StopControl) (text : String)
    (original : Json) : Except StoreError Unit := do
  let jobId ← required (jobIdOf original)
  let current ← selectJob db jobId
  if hooks.jobText current ≠ text || current.completionEvidenceGeneration ≠ control.generation ||
      current.turnId ≠ some control.turn || current.channelId ≠ control.channel ||
      current.ownerUserId ≠ some control.owner then .error refused
  else .ok ()

def validateOriginal (hooks : StopHooks σ) (db : StopDb σ) (control : StopControl) :
    Except StoreError Unit :=
  if recordRetired db control.operationId ||
      db.archive.blocked (some control.channel) (some control.target) then .error refused
  else if !retained db control then .error refused
  else do
    validate db ⟨control.target, control.channel, control.owner⟩ control.binding none
    if db.rest.archiveFences.contains control.target ||
        terminalObserved db control.target control.turn then .error refused
    else
      let jobs ← control.jobs.mapM fun text => (readJson hooks text).map fun value => (text, value)
      match jobs.filter fun job => job.2.get "state" = some (.text "Running") with
      | [(text, original)] => do
          requireOriginal hooks db control text original
          jobs.forM fun job => requireHeld db control.target job.2
      | _ => .error refused

/-- The value of a claim is given as `serde_json` reads it. -/
def validateClaim (hooks : StopHooks σ) (db : StopDb σ) (value : Except StoreError StopClaim)
    (owner : String × Int) (params : Json) : Except StoreError StopClaim := do
  let claim ← value
  let control := claim.control
  if control.resident ≠ owner.1 || control.generation ≠ owner.2 ||
      params.get "threadId" ≠ some (.text control.target) ||
      params.get "turnId" ≠ some (.text control.turn) || claim.token.isEmpty then .error refused
  else
    validateOriginal hooks db control
    if !db.rest.controls.contains fun row => row.operationId = control.operationId &&
        row.phase = .dispatching && row.claimToken = some claim.token then .error refused
    else .ok claim

/-- A stop of the same turn has a claim. -/
def keyClaimed (db : StopDb σ) (key : InterruptKey) : Bool :=
  db.rest.controls.contains fun row => row.control.key = key && row.claimToken.isSome

def claimIn (hooks : StopHooks σ) (control : StopControl)
    (selectedBefore selectedAfter : Except StoreError Unit) (token : String) (db : StopDb σ) :
    Except StoreError (Option StopClaim × StopDb σ) := do
  validateOriginal hooks db control
  selectedBefore
  let claimed := keyClaimed db control.key
  let (changed, db) := updateControls db
    (fun row => row.operationId = control.operationId && row.phase = .accepted && !claimed)
    (fun row => { row with phase := .dispatching, claimToken := some token }) (fun _ => rfl)
  if changed ≠ 1 then .ok (none, db)
  else
    let _ ← validateClaim hooks db (.ok ⟨control, token⟩) (control.resident, control.generation)
      (.object [("threadId", .text control.target), ("turnId", .text control.turn)])
    selectedAfter
    .ok (some ⟨control, token⟩, db)

/-- The token is a fresh UUID. -/
def claim (hooks : StopHooks σ) (control : StopControl)
    (selectedBefore selectedAfter : Except StoreError Unit) (token : String) (db : StopDb σ) :
    Except StoreError (Option StopClaim) × StopDb σ :=
  commitWhen (·.isSome) (claimIn hooks control selectedBefore selectedAfter token) db

/-- The attempt and the id of a wire request -/
abbrev WireRequest := String × String

def wireMatches (db : StopDb σ) (claim : StopClaim) (owner : String × Int) (request : WireRequest) :
    Bool :=
  db.rest.controls.contains fun row => row.operationId = claim.control.operationId &&
    row.control.resident = owner.1 && row.control.generation = owner.2 &&
    row.claimToken = some claim.token && row.wireAttempt = some request.1 &&
    row.wireId = some request.2

def beginWireIn (hooks : StopHooks σ) (value : Except StoreError StopClaim) (owner : String × Int)
    (request : WireRequest) (params : Json) (db : StopDb σ) :
    Except StoreError (Unit × StopDb σ) := do
  let claim ← validateClaim hooks db value owner params
  if request.1.isEmpty || request.2.isEmpty then .error refused
  else
    let (changed, db) := updateControls db
      (fun row => row.operationId = claim.control.operationId &&
        row.claimToken = some claim.token && row.phase = .dispatching && row.wireAttempt = none &&
        row.wireId = none)
      (fun row => { row with wireAttempt := some request.1, wireId := some request.2 })
      (fun _ => rfl)
    if changed ≠ 1 then .error refused
    else
      let _ ← validateClaim hooks db value owner params
      if !wireMatches db claim owner request then .error refused else .ok ((), db)

def beginWire (hooks : StopHooks σ) (value : Except StoreError StopClaim) (owner : String × Int)
    (request : WireRequest) (params : Json) (db : StopDb σ) : Except StoreError Unit × StopDb σ :=
  commit (beginWireIn hooks value owner request params) db

def finishWireIn (value : Except StoreError StopClaim) (owner : String × Int)
    (request : WireRequest) (outcome : String) (db : StopDb σ) :
    Except StoreError (Unit × StopDb σ) :=
  if !(outcome = "not_sent" || outcome = "reply_ok" || outcome = "reply_error") then .error refused
  else do
    let claim ← value
    if !retained db claim.control || !wireMatches db claim owner request then .error refused
    else
      let (_, db) := updateControls db
        (fun row => row.operationId = claim.control.operationId &&
          row.claimToken = some claim.token)
        (fun row => { row with
          phase := if row.phase = .settled then .settled
            else if outcome = "reply_ok" then .acknowledged else .unknown
          lastError := outcome }) (fun _ => rfl)
      if !wireMatches db claim owner request then .error refused else .ok ((), db)

def finishWire (value : Except StoreError StopClaim) (owner : String × Int) (request : WireRequest)
    (outcome : String) (db : StopDb σ) : Except StoreError Unit × StopDb σ :=
  commit (finishWireIn value owner request outcome) db

def recordError (claim : StopClaim) (error : String) (db : StopDb σ) : StopDb σ :=
  (updateControls db
    (fun row => row.operationId = claim.control.operationId &&
      row.claimToken = some claim.token && row.phase = .dispatching)
    (fun row => { row with
      phase := .unknown
      lastError := String.ofList (error.toList.take 1000) }) (fun _ => rfl)).2

/-! ## Terminals of the resident -/

def finishedStatus (status : Option Json) : Bool :=
  match status.bind Json.asText with
  | some "completed" | some "interrupted" | some "failed" => true
  | _ => false

/-- An exact terminal notification of the turn -/
def terminalNotice (value : Json) (thread turn : String) : Bool :=
  value.get "threadId" = some (.text thread) && value.pointer ["turn", "id"] = some (.text turn) &&
    finishedStatus (value.pointer ["turn", "status"])

/-- The turn is that of a running row of the queue, observed in this generation. -/
def ownedTurn (db : StopDb σ) (thread turn : String) (generation : Int) : Bool :=
  db.jobs.contains fun row => row.targetThreadId == thread && row.turnId == some turn &&
    row.turnObservationGeneration.getD row.appServerGeneration == generation &&
    row.state == .running

/-- The job of this text has a hold for the target. -/
def heldFor (hooks : StopHooks σ) (db : StopDb σ) (target text : String) : Bool :=
  ((hooks.parse text).bind jobIdOf).any fun id =>
    (db.holds.find id).any fun hold => hold.targetThreadId = target

def recordTerminal (hooks : StopHooks σ) (thread turn : String) (generation : Int)
    (resident payload : String) (db : StopDb σ) : StopDb σ :=
  match hooks.parse payload with
  | none => db
  | some value =>
    if !terminalNotice value thread turn then db
    else
      (updateControls db
        (fun row => row.control.key = ⟨thread, resident, generation, turn⟩ &&
          ownedTurn db thread turn generation)
        (fun row => { row with
          terminal := some payload
          phase := if row.control.canSettle &&
              row.control.jobs.all (heldFor hooks db row.control.target) then .settled
            else .unknown }) (fun _ => rfl)).2

/-- `observed_completion::record_in`; true when the completion is new. -/
def recordCompletion (thread turn : String) (generation : Int) (payload : String) (db : StopDb σ) :
    Bool × StopDb σ :=
  if ownedTurn db thread turn generation then
    ((db.rest.completions.find (thread, turn)).isNone,
      { db with rest := { db.rest with
        completions := db.rest.completions.insertOrIgnore
          ⟨thread, turn, generation, payload, none⟩ } })
  else (false, db)

def recordForResidentIn (hooks : StopHooks σ) (thread turn : String) (generation : Int)
    (payload resident : String) (db : StopDb σ) : Except StoreError (Bool × StopDb σ) := do
  let allowed ← hooks.observationAllowed db thread turn generation resident payload
  if !allowed then .ok (false, db)
  else
    let (inserted, db) := recordCompletion thread turn generation payload db
    let db := recordTerminal hooks thread turn generation resident payload db
    let others ← hooks.recordResponse db thread turn generation resident payload
    let named := fun completion : CompletionRow => completion.threadId == thread &&
      completion.turnId == turn && completion.generation == generation &&
      completion.payload == payload && completion.residentOwner.isNone &&
      ownedTurn db thread turn generation
    .ok (inserted, { db with rest := { db.rest with
      others := others
      completions := db.rest.completions.update named
        (fun completion => { completion with residentOwner := some resident }) (fun _ => rfl) } })

/-- `observed_completion::record_for_resident`: the only transaction that records a terminal. -/
def recordForResident (hooks : StopHooks σ) (thread turn : String) (generation : Int)
    (payload resident : String) (db : StopDb σ) : Except StoreError Bool × StopDb σ :=
  if resident.isEmpty then (.error (.integrity "empty completion resident"), db)
  else commit (recordForResidentIn hooks thread turn generation payload resident) db

/-! ## Recovery from a native read of the turn -/

/-- The only turn of the observation is the control's, and it is over. -/
def observedTurns (control : StopControl) (turns : List Json) : Bool :=
  match turns with
  | [turn] => turn.get "id" = some (.text control.turn) && finishedStatus (turn.get "status") &&
      turn.get "truncated" ≠ some (.bool true)
  | _ => false

def verifyObservation (hooks : StopHooks σ) (control : StopControl) (observed : Json) :
    Except StoreError Unit := do
  let thread := fun path => observed.pointer ("thread_observation" :: "thread" :: path)
  let status := (thread ["status", "type"]).bind Json.asText
  let goalOver := (observed.pointer ["goal_observation", "goal"]).any fun goal => goal = .null ||
    (goal.get "threadId" = some (.text control.target) &&
      goal.get "status" = some (.text "complete"))
  let turns ← required ((observed.get "turns").bind Json.asArray)
  if 1048576 < (hooks.render observed).utf8ByteSize ||
      observed.get "threadId" ≠ some (.text control.target) ||
      observed.get "truncated" ≠ some (.bool false) ||
      observed.get "required_owners_complete" ≠ some (.bool true) ||
      thread ["id"] ≠ some (.text control.target) ||
      !(status = some "idle" || status = some "notLoaded") ||
      thread ["archived"] = some (.bool true) || !goalOver || !observedTurns control turns then
    .error refused
  else .ok ()

/-- The requests of a control that are still queued, and the holds of all of them -/
structure Custody where
  ids : List String
  jobs : List StoredQueueJob
  holds : List (String × HoldSnapshot)

/-- A job as its record has it: the routing of one that was never started may have changed. -/
def originalRouting (original : Json) (current : StoredQueueJob) :
    Except StoreError StoredQueueJob :=
  if definitelyUnstarted current then do
    let generation ← required ((original.get "app_server_generation").bind Json.asInteger)
    .ok { current with appServerGeneration := generation }
  else .ok current

/-- One job of the loop in `custody_in` -/
def custodyOf (hooks : StopHooks σ) (db : StopDb σ) (control : StopControl) (custody : Custody)
    (text : String) : Except StoreError Custody := do
  let original ← readJson hooks text
  let id ← required (jobIdOf original)
  if custody.ids.contains id then .error refused
  else
    let snapshot ← required (holdSnapshot db id)
    let custody := { custody with
      ids := custody.ids ++ [id]
      holds := custody.holds ++ [(id, snapshot)] }
    if snapshot.1 ≠ control.target then .error refused
    else if (db.jobs.find id).isNone then .ok custody
    else
      let current ← selectJob db id
      let current ← originalRouting original current
      if hooks.jobText current ≠ text then .error refused
      else .ok { custody with jobs := custody.jobs ++ [current] }

def custodyIn (hooks : StopHooks σ) (db : StopDb σ) (control : StopControl) :
    Except StoreError Custody := do
  let custody ← control.jobs.foldlM (custodyOf hooks db control) ⟨[], [], []⟩
  if db.jobs.contains fun row => row.targetThreadId == control.target && row.state != .pending &&
      !custody.ids.contains row.jobId then .error refused
  else .ok custody

/-- The job is gone from the queue, and its cancellation names the control's sender. -/
def retired (db : StopDb σ) (control : StopControl) (job : StoredQueueJob) : Bool :=
  (db.jobs.find job.jobId).isNone && (db.cancellations.find job.jobId).any fun cancellation =>
    cancellation.targetThreadId = control.target && cancellation.channelId = control.channel &&
      cancellation.ownerUserId = control.owner

def recoveryProof (hooks : StopHooks σ) (control : StopControl) (observed : Json) (reader : String)
    (generation : Int) (prior : Option String) : String :=
  hooks.render (.object [("generation", .integer generation), ("observation", observed),
    ("observer", .text reader), ("operation_id", .text control.operationId),
    ("previous_terminal", .ofText prior), ("source", .text "stop_terminal_history_v1")])

def recoverable (db : StopDb σ) (control : StopControl) (reader : String) (generation : Int)
    (now : Timestamp) : Bool :=
  control.canSettle && !control.jobs.isEmpty && control.jobs.length ≤ 128 &&
    !MutationAttempts.blank reader && reader.utf8ByteSize ≤ 256 && 0 < generation &&
    now.any (fun now => 0 ≤ now) && retained db control

def recoverTerminalIn (hooks : StopHooks σ) (control : StopControl) (observed : Json)
    (reader : String) (generation : Int) (now : Timestamp) (db : StopDb σ) :
    Except StoreError (Nat × StopDb σ) :=
  if !recoverable db control reader generation now then .error refused
  else do
    verifyObservation hooks control observed
    validate db ⟨control.target, control.channel, control.owner⟩ control.binding none
    if db.rest.archiveFences.contains control.target ||
        db.rest.preparedMutations.contains control.target then .error refused
    else
      let custody ← custodyIn hooks db control
      let requests : List RecoveryRequest := custody.jobs.map fun job =>
        ⟨job.jobId, .queue, control.channel, some control.owner, job.discordMessageId⟩
      let (cancelled, db) ← requests.foldlM (cancelRequestIn hooks.queue control.target
        control.channel control.owner (now.getD 0)) (⟨[], 0⟩, db)
      let others ← hooks.settleStopped db control.target control.turn observed reader generation
      let db := { db with rest := { db.rest with others := others } }
      let prior := (db.rest.controls.find control.operationId).bind (·.terminal)
      let proof := recoveryProof hooks control observed reader generation prior
      let (changed, db) := updateControls db (fun row => row.control = control)
        (fun row => { row with phase := .settled, terminal := some proof }) (fun _ => rfl)
      if changed ≠ 1 || (custody.holds.any fun hold => holdSnapshot db hold.1 ≠ some hold.2) ||
          !custody.jobs.all (retired db control) ||
          !(db.rest.controls.find control.operationId).any (fun row =>
            row.phase = .settled && row.terminal = some proof) || !retained db control then
        .error refused
      else .ok (cancelled.jobs.length, db)

/-- The transaction of the caller, once it commits -/
def recoverTerminal (hooks : StopHooks σ) (control : StopControl) (observed : Json)
    (reader : String) (generation : Int) (now : Timestamp) (db : StopDb σ) :
    Except StoreError Nat × StopDb σ :=
  commit (recoverTerminalIn hooks control observed reader generation now) db

end Stop.Control

end CodexRemote.Store

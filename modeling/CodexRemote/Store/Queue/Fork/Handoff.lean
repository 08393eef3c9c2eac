import CodexRemote.Store.Queue.Cancel
import CodexRemote.Store.Queue.Fork.Notices

/-! # Fork handoffs

A thread whose start is uncertain is forked: the intent is stored first, then the target that was
observed, and one transaction moves the waiting jobs over.
-/

namespace CodexRemote.Store.Fork

open Foundations Discord

variable {ρ : Type}

structure NewForkHandoff where
  handoffId : String
  ambiguousJobId : Option String
  sourceThreadId : String
  expectedGeneration : Int
  quarantineReason : String
deriving DecidableEq, Repr

structure BegunForkHandoff where
  handoff : ForkHandoff
  created : Bool
deriving DecidableEq

structure CompletedForkHandoff where
  handoff : ForkHandoff
  quarantinedJob : Option StoredQueueJob
  retargetedJobs : List StoredQueueJob
  applied : Bool
deriving DecidableEq

structure RecordedDefiniteForkFailure where
  handoffId : String
  sourceThreadId : String
  lastForkError : String
  affectedJobs : Nat
deriving DecidableEq, Repr

def startingAttemptLeaseSeconds : Rat := 120

/-- `value.is_empty() || value.trim() != value` does not hold. -/
def validIdentity (value : String) : Bool := trimmed value

/-! ## The table -/

def byId (db : QueueDb ρ) (handoffId : String) : Option ForkHandoff := db.handoffs.find handoffId

def byIdOr (db : QueueDb ρ) (handoffId source : String) : Except ForkHandoffError ForkHandoff :=
  match byId db handoffId with
  | none => .error (.conflictingIntent source)
  | some handoff => .ok handoff

def byAmbiguousJob (db : QueueDb ρ) (jobId : String) : Option ForkHandoff :=
  db.handoffs.rows.find? (·.ambiguousJobId == some jobId)

/-- `UPDATE codex_thread_fork_handoffs SET … WHERE handoff_id = ? AND …`, with the number of rows -/
def updateHandoff (db : QueueDb ρ) (handoffId : String) (condition : ForkHandoff → Bool)
    (assign : ForkHandoff → ForkHandoff) (keeps : ∀ h, (assign h).handoffId = h.handoffId) :
    Nat × QueueDb ρ :=
  let selected := fun h : ForkHandoff => h.handoffId == handoffId && condition h
  (db.handoffs.count selected, { db with handoffs := db.handoffs.update selected assign keeps })

def unobserved (handoff : ForkHandoff) : Bool :=
  handoff.observedTargetThreadId.isNone && handoff.targetThreadId.isNone

def recordForkFailure (db : QueueDb ρ) (handoffId error : String) (ambiguous : Bool) :
    Nat × QueueDb ρ :=
  updateHandoff db handoffId unobserved
    (fun h => { h with
      lastForkError := error
      forkFailureAmbiguous := h.forkFailureAmbiguous || ambiguous }) (fun _ => rfl)

def markTargetObserved (db : QueueDb ρ) (handoffId target : String) : Nat × QueueDb ρ :=
  updateHandoff db handoffId unobserved
    (fun h => { h with observedTargetThreadId := some target }) (fun _ => rfl)

def markCompleted (db : QueueDb ρ) (handoffId target : String) (generation : Int) :
    Except ForkHandoffError (QueueDb ρ) :=
  let (updated, db) := updateHandoff db handoffId
    (fun h => h.targetThreadId.isNone && h.observedTargetThreadId == some target)
    (fun h => { h with
      targetThreadId := some target
      completedGeneration := some generation }) (fun _ => rfl)
  if updated != 1 then .error (.conflictingIntent handoffId) else .ok db

def cancelUnobserved (db : QueueDb ρ) (handoffId : String) : Nat × QueueDb ρ :=
  let selected := fun h : ForkHandoff => h.handoffId == handoffId && unobserved h
  (db.handoffs.count selected, { db with handoffs := db.handoffs.delete selected })

/-! ## Checks -/

def validateBegin (request : NewForkHandoff) : Except ForkHandoffError Unit :=
  if validIdentity request.handoffId && validIdentity request.sourceThreadId &&
      validIdentity (request.ambiguousJobId.getD "valid-placeholder") then .ok ()
  else .error .invalidIdentity

def conflictingOrExisting (db : QueueDb ρ) (request : NewForkHandoff) :
    Except ForkHandoffError (Option ForkHandoff) :=
  match byId db request.handoffId with
  | some existing =>
    if existing.ambiguousJobId == request.ambiguousJobId &&
        existing.sourceThreadId == request.sourceThreadId &&
        existing.expectedGeneration == request.expectedGeneration &&
        existing.quarantineReason == boundedReason request.quarantineReason then
      .ok (some existing)
    else .error (.conflictingIntent request.sourceThreadId)
  | none =>
    if (handoffBySource db request.sourceThreadId).isSome ||
        request.ambiguousJobId.any (fun job => (byAmbiguousJob db job).isSome) then
      .error (.conflictingIntent request.sourceThreadId)
    else .ok none

/-- The starting job that a handoff names, in the attempt it was begun for -/
def startingNamed (jobId source : String) (generation : Int) (row : QueueRow) : Bool :=
  row.jobId == jobId && row.targetThreadId == source && row.appServerGeneration == generation &&
    row.state == .starting && row.turnId.isNone

def validateStartingJob (db : QueueDb ρ) (ambiguousJobId : Option String) (source : String)
    (generation : Int) (leaseNow : Option Rat) : Except ForkHandoffError Unit :=
  match ambiguousJobId with
  | none => .ok ()
  | some jobId =>
    match db.jobs.rows.find? (startingNamed jobId source generation) with
    | none => .error (.staleStartingJob jobId)
    | some row =>
      if leaseNow.any fun now => (trim row.lastError.toList).isEmpty &&
          now - startingAttemptLeaseSeconds < row.updatedAt then
        .error (.startingAttemptLeaseActive jobId)
      else .ok ()

def validateNoOtherInflight (db : QueueDb ρ) (source : String) (excluded : Option String) :
    Except ForkHandoffError Unit :=
  if db.jobs.count (fun r => r.targetThreadId == source && r.state != .pending &&
      excluded.all (r.jobId != ·)) != 0 then .error (.additionalInFlight source)
  else .ok ()

/-- `mapping_snapshot`; zeros stand for a thread without a mapping. -/
def mappingSnapshot (db : QueueDb ρ) (source : String) : Except ForkHandoffError (Int × Int) :=
  match db.archive.mirrorThreads.find? (·.codexThreadId == source) with
  | none => .ok (0, 0)
  | some mapping =>
    if (mapping.discordChannelId, mapping.discordThreadId) = (0, 0) then
      .error (.missingOrStaleMapping source)
    else if db.archive.mirrorThreads.countP
        (·.discordThreadId == mapping.discordThreadId) != 1 then
      .error (.missingOrStaleMapping source)
    else .ok (mapping.discordChannelId, mapping.discordThreadId)

def managedTarget (db : QueueDb ρ) (thread : String) : Bool :=
  db.handoffs.contains (·.targetThreadId == some thread)

def targetUsed (forks : ForkHooks ρ) (db : QueueDb ρ) (handoffId target : String) : Bool :=
  db.archive.mirrorThreads.any (·.codexThreadId == target) ||
    db.jobs.contains (·.targetThreadId == target) || forks.detailUsed db target ||
    db.intakes.contains (·.targetThreadId == target) ||
    db.handoffs.contains fun h => h.handoffId != handoffId &&
      (h.observedTargetThreadId == some target || h.targetThreadId == some target)

def validateStageTarget (forks : ForkHooks ρ) (db : QueueDb ρ) (handoff : ForkHandoff)
    (target : String) : Except ForkHandoffError Unit :=
  if targetUsed forks db handoff.handoffId target || managedTarget db target then
    .error (.targetConflict target)
  else .ok ()

def validateCompletion (forks : ForkHooks ρ) (db : QueueDb ρ) (handoff : ForkHandoff)
    (target : String) : Except ForkHandoffError Unit := do
  let current ← mappingSnapshot db handoff.sourceThreadId
  if current != (handoff.discordChannelId, handoff.discordThreadId) then
    .error (.missingOrStaleMapping handoff.sourceThreadId)
  else
    validateStageTarget forks db handoff target
    validateNoOtherInflight db handoff.sourceThreadId handoff.ambiguousJobId
    validateStartingJob db handoff.ambiguousJobId handoff.sourceThreadId handoff.expectedGeneration
      none

/-! ## Begin and stage -/

def beginIn (request : NewForkHandoff) (now : Rat) (db : QueueDb ρ) :
    Except ForkHandoffError (BegunForkHandoff × QueueDb ρ) := do
  ofStore (ensureTargetAvailable db request.sourceThreadId)
  match ← conflictingOrExisting db request with
  | some existing => .ok (⟨existing, false⟩, db)
  | none =>
    validateStartingJob db request.ambiguousJobId request.sourceThreadId
      request.expectedGeneration (some now)
    validateNoOtherInflight db request.sourceThreadId request.ambiguousJobId
    let (channel, thread) ← mappingSnapshot db request.sourceThreadId
    let handoff : ForkHandoff :=
      { handoffId := request.handoffId
        ambiguousJobId := request.ambiguousJobId
        sourceThreadId := request.sourceThreadId
        expectedGeneration := request.expectedGeneration
        discordChannelId := channel
        discordThreadId := thread
        quarantineReason := boundedReason request.quarantineReason
        lastForkError := ""
        forkFailureAmbiguous := false
        observedTargetThreadId := none
        targetThreadId := none
        completedGeneration := none }
    .ok (⟨handoff, true⟩, { db with handoffs := db.handoffs.insertOrIgnore handoff })

def beginForkHandoff (request : NewForkHandoff) (now : Rat) (db : QueueDb ρ) :
    Except ForkHandoffError BegunForkHandoff × QueueDb ρ :=
  commit (fun db => do
    validateBegin request
    beginIn request now db) db

def stageTargetIn (handoffId target : String) (db : QueueDb ρ) :
    Except ForkHandoffError (ForkHandoff × QueueDb ρ) := do
  let handoff ← byIdOr db handoffId handoffId
  match handoff.targetThreadId.or handoff.observedTargetThreadId with
  | some existing => if existing != target then .error (.targetConflict target) else .ok (handoff, db)
  | none =>
    let (updated, db) := markTargetObserved db handoffId target
    if updated != 1 then .error (.targetConflict target)
    else
      let staged ← byIdOr db handoffId handoff.sourceThreadId
      .ok (staged, db)

def stageForkTarget (handoffId target : String) (db : QueueDb ρ) :
    Except ForkHandoffError ForkHandoff × QueueDb ρ :=
  commit (fun db =>
    if validIdentity handoffId && validIdentity target then stageTargetIn handoffId target db
    else .error .invalidIdentity) db

/-! ## Finalize -/

/-- The rows that `retarget_pending` selects -/
def pendingOn (source : String) (row : QueueRow) : Bool :=
  row.targetThreadId == source && row.state == .pending

def pendingIds (db : QueueDb ρ) (source : String) : List String :=
  ((db.jobs.select (pendingOn source)).mergeSort listOrder).map (·.jobId)

def clearUnresolvedNotices (forks : ForkHooks ρ) (db : QueueDb ρ) (source : String) :
    Except StoreError (QueueDb ρ) := do
  let db ← deleteNotices forks db ((waitingJobs db source).map fun r =>
    (if r.state == .starting then "fork-unresolved-starting:" else "fork-unresolved:") ++ r.jobId)
  deleteNotices forks db ((waitingIntakes db source).map fun r =>
    "fork-unresolved-intake:" ++ r.jobId)

def quarantineRow (handoffId error : String) (now : Rat) (row : QueueRow) : QueueRow :=
  { row with
    state := .running
    turnId := some (quarantinedTurnPrefix ++ handoffId)
    lastError := error
    updatedAt := now }

def retargetRow (target : String) (generation : Int) (now : Rat) (row : QueueRow) : QueueRow :=
  { row with
    targetThreadId := target
    appServerGeneration := generation
    lastError := ""
    updatedAt := now }

/-- The error that `quarantine_observed` keeps from before -/
def quarantinePrevious (before : StoredQueueJob) : String := boundedText before.lastError 1000

def quarantineObserved (hooks : QueueHooks ρ) (handoff : ForkHandoff) (now : Rat) (db : QueueDb ρ) :
    Except ForkHandoffError (Option StoredQueueJob × QueueDb ρ) :=
  match handoff.ambiguousJobId with
  | none => .ok (none, db)
  | some jobId => do
      let before ← ofStore (selectJob db jobId)
      let previous := quarantinePrevious before
      let error := quarantineMessage handoff.quarantineReason previous
      let (updated, db) ← ofStore (updateJobs hooks db
        (startingNamed jobId handoff.sourceThreadId handoff.expectedGeneration)
        (quarantineRow handoff.handoffId error now) (fun _ => rfl))
      if updated != 1 then .error (.staleStartingJob jobId)
      else
        let db ← ofStore (insertNoticeOnce hooks db
          ⟨"quarantine:" ++ jobId, jobId, handoff.sourceThreadId,
            quarantinedTurnPrefix ++ handoff.handoffId, before.channelId,
            terminalQuarantineContent handoff.quarantineReason previous, now⟩)
        let job ← ofStore (selectJob db jobId)
        .ok (some job, db)

def retargetPending (hooks : QueueHooks ρ) (source target : String) (generation : Int) (now : Rat)
    (db : QueueDb ρ) : Except StoreError (QueueDb ρ) :=
  (updateJobs hooks db (pendingOn source) (retargetRow target generation now)
    (fun _ => rfl)).map (·.2)

/-- `prompt_intake::retarget_for_fork` -/
def retargetIntakes (hooks : QueueHooks ρ) (source target : String) (now : Rat) (db : QueueDb ρ) :
    Except StoreError (QueueDb ρ) :=
  (updateIntakes hooks db (·.targetThreadId == source)
    (fun r => { r with
      targetThreadId := target
      lastError := if startsWith r.lastError unresolvedForkErrorPrefix then "" else r.lastError
      updatedAt := now }) (fun _ => rfl)).map (·.2)

/-- The mapping that a handoff was begun with -/
def mappedBy (handoff : ForkHandoff) (mapping : MirrorThread) : Bool :=
  mapping.codexThreadId == handoff.sourceThreadId &&
    mapping.discordChannelId == handoff.discordChannelId &&
    mapping.discordThreadId == handoff.discordThreadId

def replaceMapping (forks : ForkHooks ρ) (handoff : ForkHandoff) (target : String) (db : QueueDb ρ) :
    Except ForkHandoffError (QueueDb ρ) :=
  let selected := fun m => mappedBy handoff m && !forks.mappingFrozen db m
  let assign := fun m : MirrorThread => { m with codexThreadId := target }
  match (db.archive.mirrorThreads.filter selected).findSome? fun m =>
      forks.fenceMapping db m (assign m) with
  | some error => .error (.store error)
  | none =>
    if db.archive.mirrorThreads.countP selected != 1 then
      .error (.missingOrStaleMapping handoff.sourceThreadId)
    else
      .ok { db with archive := { db.archive with
        mirrorThreads := db.archive.mirrorThreads.map fun m => if selected m then assign m else m } }

def moveMapping (forks : ForkHooks ρ) (handoff : ForkHandoff) (target : String) (db : QueueDb ρ) :
    Except ForkHandoffError (QueueDb ρ) :=
  if (handoff.discordChannelId, handoff.discordThreadId) = (0, 0) then .ok db
  else do
    let rest ← ofStore (forks.moveSessionDetail db handoff.sourceThreadId target)
    replaceMapping forks handoff target { db with rest := rest }

def finalizeIn (hooks : QueueHooks ρ) (forks : ForkHooks ρ) (handoffId : String)
    (currentGeneration : Int) (now : Rat) (db : QueueDb ρ) :
    Except ForkHandoffError (CompletedForkHandoff × QueueDb ρ) := do
  let handoff ← byIdOr db handoffId handoffId
  if handoff.targetThreadId.isSome then
    match handoff.ambiguousJobId with
    | none => .ok (⟨handoff, none, [], false⟩, db)
    | some jobId => do
        let quarantined ← ofStore (selectJob db jobId)
        .ok (⟨handoff, some quarantined, [], false⟩, db)
  else
    match handoff.observedTargetThreadId with
    | none => .error (.forkTargetNotObserved handoffId)
    | some target =>
      ofStore (ensureTargetAvailable db handoff.sourceThreadId)
      ofStore (ensureTargetAvailable db target)
      if handoff.sourceThreadId == target then .error .invalidIdentity
      else
        validateCompletion forks db handoff target
        let pending := pendingIds db handoff.sourceThreadId
        let db ← ofStore (clearUnresolvedNotices forks db handoff.sourceThreadId)
        let (quarantined, db) ← quarantineObserved hooks handoff now db
        let db ← ofStore (retargetPending hooks handoff.sourceThreadId target currentGeneration
          now db)
        let db ← ofStore (retargetIntakes hooks handoff.sourceThreadId target now db)
        let db ← moveMapping forks handoff target db
        let db ← markCompleted db handoffId target currentGeneration
        let completed ← byIdOr db handoffId handoff.sourceThreadId
        let retargeted ← ofStore (pending.mapM (selectJob db))
        .ok (⟨completed, quarantined, retargeted, true⟩, db)

def finalizeForkHandoff (hooks : QueueHooks ρ) (forks : ForkHooks ρ) (handoffId : String)
    (currentGeneration : Int) (now : Rat) (db : QueueDb ρ) :
    Except ForkHandoffError CompletedForkHandoff × QueueDb ρ :=
  commit (fun db =>
    if validIdentity handoffId then finalizeIn hooks forks handoffId currentGeneration now db
    else .error .invalidIdentity) db

/-- `complete_app_server_fork_handoff`, which is two transactions -/
def completeForkHandoff (hooks : QueueHooks ρ) (forks : ForkHooks ρ) (handoffId target : String)
    (currentGeneration : Int) (now : Rat) (db : QueueDb ρ) :
    Except ForkHandoffError CompletedForkHandoff × QueueDb ρ :=
  match stageForkTarget handoffId target db with
  | (.error error, db) => (.error error, db)
  | (.ok _, db) => finalizeForkHandoff hooks forks handoffId currentGeneration now db

/-! ## Cancel -/

def validateCancellable (handoff : ForkHandoff) : Except ForkHandoffError Unit :=
  if handoff.forkFailureAmbiguous then .error (.ambiguousForkCannotBeCancelled handoff.handoffId)
  else
    match handoff.observedTargetThreadId.or handoff.targetThreadId with
    | some target => .error (.forkTargetAlreadyObserved handoff.handoffId target)
    | none => .ok ()

def cancelIn (handoffId : String) (db : QueueDb ρ) : Except ForkHandoffError (Bool × QueueDb ρ) :=
  match byId db handoffId with
  | none => .ok (false, db)
  | some handoff => do
      validateCancellable handoff
      let (removed, db) := cancelUnobserved db handoffId
      if removed != 1 then .error (.conflictingIntent handoff.sourceThreadId) else .ok (true, db)

def cancelForkHandoffAfterDefiniteFailure (handoffId : String) (db : QueueDb ρ) :
    Except ForkHandoffError Bool × QueueDb ρ :=
  commit (fun db =>
    if validIdentity handoffId then cancelIn handoffId db else .error .invalidIdentity) db

/-- `cancel_in_transaction` -/
def cancelRecordedIn (hooks : QueueHooks ρ) (handoff : ForkHandoff) (error : String) (now : Rat)
    (db : QueueDb ρ) : Except ForkHandoffError (RecordedDefiniteForkFailure × QueueDb ρ) := do
  let (recorded, db) := recordForkFailure db handoff.handoffId error false
  if recorded != 1 then .error (.conflictingIntent handoff.sourceThreadId)
  else
    let (affected, db) ← stageDefiniteNotices hooks handoff error now db
    let (removed, db) := cancelUnobserved db handoff.handoffId
    if removed != 1 then .error (.conflictingIntent handoff.sourceThreadId)
    else .ok (⟨handoff.handoffId, handoff.sourceThreadId, error, affected⟩, db)

/-- `validate_cancellable` of the definite failures -/
def validateDefinite (handoff : ForkHandoff) : Except ForkHandoffError Unit := do
  validateCancellable handoff
  if handoff.completedGeneration.isSome then .error (.conflictingIntent handoff.sourceThreadId)
  else .ok ()

def recordAndCancelIn (hooks : QueueHooks ρ) (expected : ForkHandoff) (error : String) (now : Rat)
    (db : QueueDb ρ) : Except ForkHandoffError (RecordedDefiniteForkFailure × QueueDb ρ) := do
  let current ← byIdOr db expected.handoffId expected.sourceThreadId
  validateDefinite current
  if current != expected then .error (.conflictingIntent current.sourceThreadId)
  else cancelRecordedIn hooks current (boundedForkError error) now db

def recordAndCancelForkHandoffAfterDefiniteFailure (hooks : QueueHooks ρ) (expected : ForkHandoff)
    (error : String) (now : Rat) (db : QueueDb ρ) :
    Except ForkHandoffError RecordedDefiniteForkFailure × QueueDb ρ :=
  commit (fun db =>
    if validIdentity expected.handoffId && validIdentity expected.sourceThreadId then
      recordAndCancelIn hooks expected error now db
    else .error .invalidIdentity) db

/-- The unobserved, unambiguous handoffs with an error, which older versions left behind -/
def legacyDefinite (handoff : ForkHandoff) : Bool :=
  unobserved handoff && !handoff.forkFailureAmbiguous && handoff.lastForkError != ""

def repairIn (hooks : QueueHooks ρ) (now : Rat) :
    List String → QueueDb ρ → Except ForkHandoffError (List RecordedDefiniteForkFailure × QueueDb ρ)
  | [], db => .ok ([], db)
  | handoffId :: rest, db => do
      let handoff ← byIdOr db handoffId handoffId
      validateDefinite handoff
      let (repaired, db) ← cancelRecordedIn hooks handoff (boundedForkError handoff.lastForkError)
        now db
      let (others, db) ← repairIn hooks now rest db
      .ok (repaired :: others, db)

/-- `repair_legacy_definite_app_server_fork_failures`; `created_at` is only read here. -/
def repairLegacyDefiniteForkFailures (hooks : QueueHooks ρ) (createdAt : String → Rat) (now : Rat)
    (db : QueueDb ρ) : Except ForkHandoffError (List RecordedDefiniteForkFailure) × QueueDb ρ :=
  let ids := (db.handoffs.select legacyDefinite).map (·.handoffId)
  let order := fun a b : String =>
    createdAt a < createdAt b || (createdAt a == createdAt b && a ≤ b)
  commit (repairIn hooks now (ids.mergeSort order)) db

/-! ## Failures -/

def refuseObserved (handoff : ForkHandoff) : Except ForkHandoffError Unit :=
  match handoff.observedTargetThreadId.or handoff.targetThreadId with
  | some target => .error (.forkTargetAlreadyObserved handoff.handoffId target)
  | none => .ok ()

def recordFailureIn (hooks : QueueHooks ρ) (handoffId error : String) (ambiguous : Bool) (now : Rat)
    (db : QueueDb ρ) : Except ForkHandoffError (ForkHandoff × QueueDb ρ) := do
  let handoff ← byIdOr db handoffId handoffId
  refuseObserved handoff
  let bounded := boundedForkError error
  let (updated, db) := recordForkFailure db handoffId bounded ambiguous
  if updated != 1 then .error (.conflictingIntent handoff.sourceThreadId)
  else
    let db ← if ambiguous then stageUnresolvedNotices hooks handoff bounded .forkOutcome now db
      else .ok db
    let recorded ← byIdOr db handoffId handoff.sourceThreadId
    .ok (recorded, db)

def recordForkHandoffFailure (hooks : QueueHooks ρ) (handoffId error : String) (ambiguous : Bool)
    (now : Rat) (db : QueueDb ρ) : Except ForkHandoffError ForkHandoff × QueueDb ρ :=
  commit (fun db =>
    if validIdentity handoffId then recordFailureIn hooks handoffId error ambiguous now db
    else .error .invalidIdentity) db

def recordFinalizeFailureIn (hooks : QueueHooks ρ) (handoffId error : String) (now : Rat)
    (db : QueueDb ρ) : Except ForkHandoffError (ForkHandoff × QueueDb ρ) := do
  let handoff ← byIdOr db handoffId handoffId
  match handoff.observedTargetThreadId with
  | none => .error (.forkTargetNotObserved handoffId)
  | some observed =>
    if handoff.targetThreadId.isSome then
      .error (.forkTargetAlreadyObserved handoffId observed)
    else
      let bounded := boundedForkError error
      let (updated, db) := updateHandoff db handoffId
        (fun h => h.observedTargetThreadId == some observed && h.targetThreadId.isNone)
        (fun h => { h with lastForkError := bounded }) (fun _ => rfl)
      if updated != 1 then .error (.conflictingIntent handoff.sourceThreadId)
      else
        let db ← stageUnresolvedNotices hooks handoff bounded .finalize now db
        let recorded ← byIdOr db handoffId handoff.sourceThreadId
        .ok (recorded, db)

def recordForkFinalizeFailure (hooks : QueueHooks ρ) (handoffId error : String) (now : Rat)
    (db : QueueDb ρ) : Except ForkHandoffError ForkHandoff × QueueDb ρ :=
  commit (fun db =>
    if validIdentity handoffId then recordFinalizeFailureIn hooks handoffId error now db
    else .error .invalidIdentity) db

def recordCancellationFailureIn (hooks : QueueHooks ρ) (handoffId forkError cancellationError : String)
    (now : Rat) (db : QueueDb ρ) : Except ForkHandoffError (ForkHandoff × QueueDb ρ) := do
  let handoff ← byIdOr db handoffId handoffId
  match handoff.targetThreadId with
  | some target => .error (.forkTargetAlreadyObserved handoffId target)
  | none =>
    let combined := combinedError forkError cancellationError handoff.lastForkError
    let (updated, db) := updateHandoff db handoffId (·.targetThreadId.isNone)
      (fun h => { h with
        lastForkError := combined
        forkFailureAmbiguous := true }) (fun _ => rfl)
    if updated != 1 then .error (.conflictingIntent handoff.sourceThreadId)
    else
      let db ← stageUnresolvedNotices hooks handoff combined .cancellation now db
      let recorded ← byIdOr db handoffId handoff.sourceThreadId
      .ok (recorded, db)

def recordForkCancellationFailure (hooks : QueueHooks ρ)
    (handoffId forkError cancellationError : String) (now : Rat) (db : QueueDb ρ) :
    Except ForkHandoffError ForkHandoff × QueueDb ρ :=
  commit (fun db =>
    if validIdentity handoffId then
      recordCancellationFailureIn hooks handoffId forkError cancellationError now db
    else .error .invalidIdentity) db

/-! ## A job that ends -/

/-- `queue::complete` -/
def completeJob (hooks : QueueHooks ρ) (jobId : String) (db : QueueDb ρ) :
    Except StoreError Bool × QueueDb ρ :=
  commit (fun db =>
    if (db.jobs.find jobId).any (fun r => targetIsHeld db r.targetThreadId) then .ok (false, db)
    else (deleteJob hooks db jobId).map fun (removed, db) => (removed == 1, db)) db

end CodexRemote.Store.Fork

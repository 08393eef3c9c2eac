import CodexRemote.Store.PromptIntake

/-! # Cancelling requests

A sender cancels the latest request of a room that has not started, and a recovery cancels every
request of a target.  Both record the cancellation before they remove the request.
-/

namespace CodexRemote.Store

open Foundations

variable {ρ : Type}

inductive RequestKind where
  | ingress
  | intake
  | queue
deriving DecidableEq, Repr

/-- The order of the kinds as texts -/
def RequestKind.rank : RequestKind → Nat
  | .ingress => 0
  | .intake => 1
  | .queue => 2

def ingressJob (ingressId : String) : String := "ingress:" ++ ingressId

/-- The unowned requests for a turn on this target -/
def unownedAsks (db : QueueDb ρ) (target : String) : List IngressRow :=
  db.ingress.select fun r => r.targetThreadId == some target && r.unowned && r.asks

/-! ## Writes -/

/-- Requests of both tables with this id or this message -/
def occurrences (db : QueueDb ρ) (job : String) (event : Option Int) : Nat :=
  db.jobs.count (fun r => sameRequest job event r.jobId r.discordMessageId) +
    db.intakes.count (fun r => sameRequest job event r.jobId r.discordMessageId)

/-- `INSERT INTO codex_request_cancellations`, with its primary key and its message index -/
def insertCancellation (db : QueueDb ρ) (cancellation : RequestCancellation) :
    Except StoreError (QueueDb ρ) :=
  if db.cancellations.contains (fun c => sameRequest cancellation.jobId
      cancellation.discordMessageId c.jobId c.discordMessageId) then
    .error (.database "UNIQUE constraint failed: codex_request_cancellations")
  else .ok { db with cancellations := db.cancellations.insertOrIgnore cancellation }

/-- `DELETE FROM codex_turn_queue WHERE job_id=?`; archived rows are preserved. -/
def deleteJob (hooks : QueueHooks ρ) (db : QueueDb ρ) (jobId : String) :
    Except StoreError (Nat × QueueDb ρ) :=
  let selected := fun r : QueueRow => r.jobId == jobId && !db.archive.recordRetired .turnQueue r.jobId
  match (db.jobs.select selected).findSome? (hooks.fenceDelete db) with
  | some error => .error error
  | none => .ok (db.jobs.count selected, { db with jobs := db.jobs.delete selected })

/-- The delete of the table that holds the request -/
def deleteRequest (hooks : QueueHooks ρ) (db : QueueDb ρ) (kind : RequestKind) (job : String) :
    Except StoreError (Nat × QueueDb ρ) :=
  match kind with
  | .queue => deleteJob hooks db job
  | _ => deleteIntakes hooks db (·.jobId == job)

def IngressRow.cancel (row : IngressRow) (kept : Json) (job : String) (now : Rat) : IngressRow :=
  { row with
    state := .completed
    phase := "cancelled"
    outcome := some (IngressRow.cancelledOutcome kept job)
    updatedAt := now }

/-- A request that no job stands for is owned by its cancellation. -/
def IngressRow.cancelUnowned (row : IngressRow) (kept : Json) (job : String) (now : Rat) :
    IngressRow :=
  { row.cancel kept job now with ownerKind := some "cancellation", ownerId := some job }

/-- The loop over the owners of a cancelled job -/
def cancelOwners (hooks : QueueHooks ρ) (kept : IngressRow → Json) (job : String) (now : Rat)
    (db : QueueDb ρ) (owners : List String) : Except StoreError (QueueDb ρ) :=
  owners.foldlM (fun db key => do
    let (_, db) ← updateIngress hooks db (·.ingressId == key) (fun r => r.cancel (kept r) job now)
      (fun _ => rfl)
    .ok db) db

/-! ## The latest pending request -/

structure Candidate where
  job : String
  kind : RequestKind
  event : Option Int
  createdAt : Rat
  eligible : Bool

/-- `ORDER BY created_at DESC, job_id DESC, kind` -/
def candidateOrder (a b : Candidate) : Bool :=
  b.createdAt < a.createdAt || (a.createdAt == b.createdAt &&
    (b.job < a.job || (a.job == b.job && a.kind.rank ≤ b.kind.rank)))

/-- A job that was never sent, or whose only attempts met another writer of the thread. -/
def QueueRow.unsent (row : QueueRow) : Bool :=
  row.state == .pending && row.turnId.isNone && (row.attemptCount == 0 ||
    (row.executionGeneration.isNone && row.turnObservationGeneration.isNone && !row.goalWaiting &&
      row.baselineTurnIds == .turns [] &&
      row.lastError == "app-server returned error -32600 for thread/resume: thread " ++
        row.targetThreadId ++ " already has an active writer"))

def candidates (db : QueueDb ρ) (target : String) (channel owner : Int) : List Candidate :=
  let queued := (db.jobs.select fun r => r.targetThreadId == target && r.channelId == channel &&
    r.ownerUserId == some owner).map fun r => ⟨r.jobId, .queue, r.discordMessageId, r.createdAt, r.unsent⟩
  let prepared := (db.intakes.select fun r => r.targetThreadId == target && r.channelId == channel &&
    r.ownerUserId == some owner).map fun r => ⟨r.jobId, .intake, r.discordMessageId, r.createdAt, true⟩
  let staged := ((unownedAsks db target).filter fun r => r.channelId == channel &&
    r.ownerUserId == owner).map fun r => ⟨ingressJob r.ingressId, .ingress, r.eventId, r.createdAt,
      r.state == .staged || r.state == .acknowledged⟩
  (queued ++ prepared ++ staged).mergeSort candidateOrder

def ensureUnambiguous (db : QueueDb ρ) (item : Candidate) (target : String) (channel owner : Int) :
    Except StoreError (List String) :=
  if occurrences db item.job item.event != 1 || db.outbox.contains (·.jobId == item.job) then
    .error (.integrity
      "request has conflicting or uncertain ownership evidence; nothing was cancelled")
  else cancellationOwners db item.job item.event target channel owner

/-- `cancel_unstarted_ingress`, for the request whose job is named after this row -/
def cancelUnstartedIngress (hooks : QueueHooks ρ) (db : QueueDb ρ) (job : String)
    (event : Option Int) (target : String) (channel owner : Int) (now : Rat) :
    Except StoreError (QueueDb ρ) :=
  if !startsWith job "ingress:" then
    .error (.integrity "invalid pending ingress cancellation identity")
  else if occurrences db job event != 0 then
    .error (.integrity "ingress has conflicting execution ownership; nothing was cancelled")
  else do
    let key := String.ofList (job.toList.drop 8)
    let db ← insertCancellation db ⟨job, target, channel, owner, event, now⟩
    let (changed, db) ← updateIngress hooks db
      (fun r => r.ingressId == key && r.eventId == event && r.targetThreadId == some target &&
        r.channelId == channel && r.ownerUserId == owner &&
        (r.state == .staged || r.state == .acknowledged) && r.ownerId.isNone)
      (fun r => r.cancelUnowned r.keptOutcome job now) (fun _ => rfl)
    if changed != 1 then
      .error (.integrity "ingress execution already started or cancellation ownership changed")
    else .ok db

/-- The body of `cancel_latest_pending_on_route` for the candidate it selected -/
def cancelCandidate (hooks : QueueHooks ρ) (selected : Candidate) (target : String)
    (channel owner : Int) (now : Rat) (db : QueueDb ρ) :
    Except StoreError (Option String × QueueDb ρ) :=
  match selected.kind with
  | .ingress => do
      let db ← cancelUnstartedIngress hooks db selected.job selected.event target channel owner now
      .ok (some selected.job, db)
  | kind => do
      let owners ← ensureUnambiguous db selected target channel owner
      let db ← insertCancellation db ⟨selected.job, target, channel, owner, selected.event, now⟩
      let (removed, db) ← deleteRequest hooks db kind selected.job
      if removed != 1 then .error (.integrity "cancellation ownership changed")
      else
        let db ← cancelOwners hooks IngressRow.keptOutcome selected.job now db owners
        .ok (some selected.job, db)

def requireRoute (db : QueueDb ρ) (requireMirror : Bool) (channel : Int) (target : String) :
    Except StoreError Unit :=
  if requireMirror then do
    let mirrored ← mirroredThreadId db (some channel)
    if mirrored != some target then
      .error (.integrity "retract room mapping changed; nothing was cancelled")
    else .ok ()
  else .ok ()

/-- The time of a cancellation: finite and not negative -/
def cancellationTime (now : Timestamp) (reason : String) : Except StoreError Rat :=
  match now with
  | some now => if now < 0 then .error (.integrity reason) else .ok now
  | none => .error (.integrity reason)

def cancelLatestPendingIn (hooks : QueueHooks ρ) (target : String) (channel owner : Int)
    (now : Timestamp) (requireMirror : Bool) (db : QueueDb ρ) :
    Except StoreError (Option String × QueueDb ρ) := do
  let now ← cancellationTime now "invalid cancellation timestamp"
  requireRoute db requireMirror channel target
  ensureNoUnresolvedHandoff db target
  ensureSourceNotMoved db target
  ensureTargetAvailable db target
  let candidates := candidates db target channel owner
  match candidates.find? (·.eligible) with
  | some selected => cancelCandidate hooks selected target channel owner now db
  | none =>
    if candidates.isEmpty then .ok (none, db)
    else
      .error (.integrity
        "request execution has started or its outcome is unknown; nothing was cancelled")

def cancelLatestPendingOnRoute (hooks : QueueHooks ρ) (target : String) (channel owner : Int)
    (now : Timestamp) (requireMirror : Bool) (db : QueueDb ρ) :
    Except StoreError (Option String) × QueueDb ρ :=
  commit (cancelLatestPendingIn hooks target channel owner now requireMirror) db

def cancelLatestPending (hooks : QueueHooks ρ) (target : String) (channel owner : Int)
    (now : Timestamp) (db : QueueDb ρ) : Except StoreError (Option String) × QueueDb ρ :=
  cancelLatestPendingOnRoute hooks target channel owner now false db

/-! ## Every request of a target -/

structure RecoveryCancellation where
  jobs : List String
  startedOrUncertain : Nat
deriving DecidableEq, Repr

/-- A row of the union that `cancel_for_recovery` reads -/
structure RecoveryRequest where
  job : String
  kind : RequestKind
  channel : Int
  owner : Option Int
  event : Option Int

def recoveryRequests (db : QueueDb ρ) (target : String) : List RecoveryRequest :=
  ((db.jobs.select (·.targetThreadId == target)).map fun r =>
    ⟨r.jobId, .queue, r.channelId, r.ownerUserId, r.discordMessageId⟩) ++
  ((db.intakes.select (·.targetThreadId == target)).map fun r =>
    ⟨r.jobId, .intake, r.channelId, r.ownerUserId, r.discordMessageId⟩)

def recoveryReason : String :=
  "user requested full recovery; cancelled, never replay; prior effects are not rolled back"

/-- What the recovery keeps of a request, and whether it was started -/
def requestEvidence (hooks : QueueHooks ρ) (db : QueueDb ρ) (request : RecoveryRequest) (now : Rat) :
    Except StoreError (String × Bool) :=
  match request.kind with
  | .queue => do
      let stored ← selectJob db request.job
      .ok (hooks.requestEvidence (.inl stored) now, stored.state != .pending ||
        stored.executionGeneration.isSome || stored.turnId.isSome || 0 < stored.attemptCount)
  | _ =>
    match db.intakes.find request.job with
    | none => .error (.database "Query returned no rows")
    | some intake => .ok (hooks.requestEvidence (.inr intake) now, false)

def RecoveryCancellation.add (result : RecoveryCancellation) (job : String) (started : Bool) :
    RecoveryCancellation :=
  ⟨result.jobs ++ [job], result.startedOrUncertain + started.toNat⟩

def cancelRequestIn (hooks : QueueHooks ρ) (target : String) (channel owner : Int) (now : Rat)
    (state : RecoveryCancellation × QueueDb ρ) (request : RecoveryRequest) :
    Except StoreError (RecoveryCancellation × QueueDb ρ) :=
  let (result, db) := state
  if occurrences db request.job request.event != 1 then
    .error (.integrity "conflicting recovery request identity")
  else do
    let owners ← cancellationOwners db request.job request.event target channel owner
    let (evidence, started) ← requestEvidence hooks db request now
    let db := hold db request.job target recoveryReason evidence
    let db ← insertCancellation db ⟨request.job, target, channel, owner, request.event, now⟩
    -- the number of rows that this deletes is not looked at
    let (_, db) ← deleteRequest hooks db request.kind request.job
    let db ← cancelOwners hooks IngressRow.objectOutcome request.job now db owners
    .ok (result.add request.job started, db)

/-- A request that has no job yet -/
def cancelUnownedIn (hooks : QueueHooks ρ) (target : String) (channel owner : Int) (now : Rat)
    (state : RecoveryCancellation × QueueDb ρ) (row : IngressRow) :
    Except StoreError (RecoveryCancellation × QueueDb ρ) := do
  let (result, db) := state
  let job := ingressJob row.ingressId
  let db := hold db job target "user requested full recovery; do not replay"
    (hooks.ingressEvidence row)
  let db ← insertCancellation db ⟨job, target, channel, owner, row.eventId, now⟩
  let (_, db) ← updateIngress hooks db (·.ingressId == row.ingressId)
    (fun r => r.cancelUnowned r.objectOutcome job now) (fun _ => rfl)
  .ok (result.add job (row.state == .executing || row.state == .held), db)

def cancelForRecoveryIn (hooks : QueueHooks ρ) (target : String) (channel owner : Int)
    (now : Timestamp) (check : QueueDb ρ → Except StoreError Unit) (db : QueueDb ρ) :
    Except StoreError (RecoveryCancellation × QueueDb ρ) :=
  if target == "" || channel ≤ 0 || owner ≤ 0 then
    .error (.integrity "invalid recovery cancellation scope")
  else do
    let now ← cancellationTime now "invalid recovery cancellation scope"
    check db
    ensureNoUnresolvedHandoff db target
    ensureSourceNotMoved db target
    let rows := recoveryRequests db target
    if 128 < rows.length || rows.any (fun r => r.channel != channel || r.owner != some owner) then
      .error (.integrity
        "recovery request scope contains another sender/channel or too many requests")
    else
      let (result, db) ← rows.foldlM (cancelRequestIn hooks target channel owner now) (⟨[], 0⟩, db)
      let unowned := unownedAsks db target
      if 128 < result.jobs.length + unowned.length ||
          unowned.any (fun r => r.channelId != channel || r.ownerUserId != owner) then
        .error (.integrity "recovery ingress scope changed; cancellation rolled back")
      else
        let (result, db) ← unowned.foldlM (cancelUnownedIn hooks target channel owner now) (result, db)
        check db
        let rest ← hooks.recordRecovery db target channel owner result.jobs now
        .ok (result, { db with rest := rest })

def cancelForRecoveryChecked (hooks : QueueHooks ρ) (target : String) (channel owner : Int)
    (now : Timestamp) (check : QueueDb ρ → Except StoreError Unit) (db : QueueDb ρ) :
    Except StoreError RecoveryCancellation × QueueDb ρ :=
  commit (cancelForRecoveryIn hooks target channel owner now check) db

def cancelForRecovery (hooks : QueueHooks ρ) (target : String) (channel owner : Int)
    (now : Timestamp) (db : QueueDb ρ) : Except StoreError RecoveryCancellation × QueueDb ρ :=
  cancelForRecoveryChecked hooks target channel owner now (fun _ => .ok ()) db

end CodexRemote.Store

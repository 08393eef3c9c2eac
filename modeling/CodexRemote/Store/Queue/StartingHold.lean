import CodexRemote.Store.Queue.Attempt

/-! # Holding a start whose turn cannot be told apart -/

namespace CodexRemote.Store

open Foundations

variable {ρ : Type}

/-- `CandidateSummary`: the distinct candidates in order, and how many each text lists. -/
structure CandidateSummary where
  count : Nat
  markerIds : List String
  noticeIds : List String

def takeChars (text : String) (count : Nat) : String := String.ofList (text.toList.take count)

def boundedIds (ids : List String) (count chars : Nat) : List String :=
  (ids.take count).map (takeChars · chars)

def candidateSummary (ids : List String) : CandidateSummary :=
  let unique := (ids.mergeSort fun a b => a ≤ b).dedup
  { count := unique.length
    markerIds := boundedIds unique 4 80
    noticeIds := boundedIds unique 8 120 }

def previousError (error : String) : String :=
  let error := String.ofList (Discord.trim error.toList)
  if startsWith error "[cdr-rust:" then "" else takeChars error 400

def candidateMarker (claimed : StoredQueueJob) (candidates : CandidateSummary) : String :=
  let previous := previousError claimed.lastError
  let suffix := if previous.isEmpty then "" else "; previous_error=" ++ previous
  takeChars (startingCandidateHoldPrefix ++ "candidate_count=" ++ toString candidates.count ++
    "; candidate_turn_ids=" ++ jsonStrings candidates.markerIds ++ "; candidate_ids_listed=" ++
    toString candidates.markerIds.length ++ suffix) 1000

def candidateNotice (held : StoredQueueJob) (candidates : CandidateSummary) : String :=
  takeChars ("Codex could not safely determine which turn belongs to queued job " ++ held.jobId ++
    " on thread " ++ held.targetThreadId ++
    ". The target queue is held, so later queued requests will not start until this is resolved. Candidate turns: count=" ++
    toString candidates.count ++ ", listed=" ++ toString candidates.noticeIds.length ++ " " ++
    jsonStrings candidates.noticeIds) 1900

/-- Every column of the claim but its execution and observation generations. -/
def exactStarting (db : QueueDb ρ) (claimed : StoredQueueJob) (row : QueueRow) : Bool :=
  claimHolds db claimed row && row.channelId == claimed.channelId &&
    row.ownerUserId == claimed.ownerUserId && row.discordMessageId == claimed.discordMessageId &&
    row.prompt == claimed.prompt && row.queued == claimed.queued && row.ackSent == claimed.ackSent &&
    row.lastError == claimed.lastError && row.createdAt == claimed.createdAt &&
    row.goalWaiting == claimed.goalWaiting

def exactStartingSnapshotMatches (db : QueueDb ρ) (claimed : StoredQueueJob) :
    Except StoreError Bool :=
  if claimed.state != .starting || claimed.turnId.isSome then .ok false
  else do
    let matching ← matchingBaseline db claimed
    .ok (matching && (db.jobs.find claimed.jobId).any (exactStarting db claimed))

/-- `INSERT INTO codex_delivery_outbox`, with the triggers of the archived rooms. -/
def insertNotice (hooks : QueueHooks ρ) (db : QueueDb ρ) (notice : OutboxNotice) :
    Except StoreError (QueueDb ρ) :=
  match hooks.fenceNotice db notice with
  | some error => .error error
  | none =>
    if db.archive.recordRetired .deliveryOutbox notice.deliveryId then .ok db
    else if db.outbox.contains fun n =>
        n.deliveryId == notice.deliveryId || n.jobId == notice.jobId then
      .error (.database "UNIQUE constraint failed: codex_delivery_outbox")
    else
      .ok { db with
        outbox := db.outbox.insertOrIgnore notice
        archive := db.archive.capture .deliveryOutbox notice.deliveryId
          (·.covers notice.targetThreadId notice.channelId) }

def refreshNoticeIfPending (hooks : QueueHooks ρ) (db : QueueDb ρ) (held : StoredQueueJob)
    (content : String) (now : Rat) : Except StoreError (QueueDb ρ) :=
  let noticeId := startingCandidateNoticePrefix ++ held.jobId
  let assign := fun n : OutboxNotice => { n with content := content, updatedAt := now }
  let selected := fun n : OutboxNotice => n.deliveryId == noticeId && n.jobId == noticeId &&
    n.targetThreadId == held.targetThreadId && n.content != content &&
    !db.archive.frozen .deliveryOutbox n.deliveryId
  match (db.outbox.select selected).findSome? fun n => hooks.fenceNotice db (assign n) with
  | some error => .error error
  | none => .ok { db with outbox := db.outbox.update selected assign (fun _ => rfl) }

def QueueRow.mark (row : QueueRow) (marker : String) (now : Rat) : QueueRow :=
  { row with lastError := marker, updatedAt := now }

theorem QueueRow.mark_jobId (row : QueueRow) (marker : String) (now : Rat) :
    (row.mark marker now).jobId = row.jobId := rfl

def holdStartingIn (hooks : QueueHooks ρ) (claimed : StoredQueueJob) (candidateTurnIds : List String)
    (now : Rat) (db : QueueDb ρ) : Except StoreError (Option StoredQueueJob × QueueDb ρ) :=
  let candidates := candidateSummary candidateTurnIds
  if startsWith claimed.lastError startingCandidateHoldPrefix then do
    let exact ← exactStartingSnapshotMatches db claimed
    if !exact then .ok (none, db)
    else
      let db ← refreshNoticeIfPending hooks db claimed (candidateNotice claimed candidates) now
      let current ← selectJob db claimed.jobId
      .ok (some current, db)
  else do
    let matching ← matchingBaseline db claimed
    if !matching then .ok (none, db)
    else
      let marker := candidateMarker claimed candidates
      let (updated, db) ← updateJob hooks db claimed.jobId (exactStarting db claimed)
        (fun r => r.mark marker now) (fun r => r.mark_jobId marker now)
      if !updated then .ok (none, db)
      else
        let held ← selectJob db claimed.jobId
        let noticeId := startingCandidateNoticePrefix ++ held.jobId
        let db ← insertNotice hooks db
          ⟨noticeId, noticeId, held.targetThreadId, noticeId, held.channelId,
            candidateNotice held candidates, now⟩
        .ok (some held, db)

def holdStartingForAmbiguousCandidatesIfClaimed (hooks : QueueHooks ρ) (claimed : StoredQueueJob)
    (candidateTurnIds : List String) (now : Rat) (db : QueueDb ρ) :
    Except StoreError (Option StoredQueueJob) × QueueDb ρ :=
  commit (holdStartingIn hooks claimed candidateTurnIds now) db

end CodexRemote.Store

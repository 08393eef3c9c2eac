import CodexRemote.Discord.Components
import CodexRemote.Store.PromptIntake
import CodexRemote.Store.Queue.StartingHold

/-! # What a failed fork tells the requests that wait for it

Each waiting job and intake keeps the error in its row, and a notice for its room goes to the
outbox.  An update of a row that has changed meanwhile fails the whole call.
-/

namespace CodexRemote.Store.Fork

open Foundations Discord

variable {ρ : Type}

inductive ForkHandoffError where
  | store (error : StoreError)
  | invalidIdentity
  | conflictingIntent (sourceThreadId : String)
  | staleStartingJob (jobId : String)
  | missingOrStaleMapping (sourceThreadId : String)
  | targetConflict (targetThreadId : String)
  | forkTargetNotObserved (handoffId : String)
  | forkTargetAlreadyObserved (handoffId targetThreadId : String)
  | additionalInFlight (sourceThreadId : String)
  | startingAttemptLeaseActive (jobId : String)
  | ambiguousForkCannotBeCancelled (handoffId : String)
deriving DecidableEq, Repr

/-- `?` on an answer of the store -/
def ofStore {α : Type} (answer : Except StoreError α) : Except ForkHandoffError α :=
  answer.mapError .store

theorem ofStore_ok {α : Type} {answer : Except StoreError α} {a : α} :
    ofStore answer = .ok a ↔ answer = .ok a := by
  cases answer with
  | error | ok => simp only [ofStore, Except.mapError, reduceCtorEq, Except.ok.injEq]

/-- What the queue's transactions meet in the tables that only a fork touches -/
structure ForkHooks (ρ : Type) where
  /-- a row of `session_mirror_details` -/
  detailUsed : QueueDb ρ → String → Bool
  moveSessionDetail : QueueDb ρ → String → String → Except StoreError ρ
  fenceMapping : QueueDb ρ → MirrorThread → MirrorThread → Option StoreError
  mappingFrozen : QueueDb ρ → MirrorThread → Bool
  fenceNoticeDelete : QueueDb ρ → OutboxNotice → Option StoreError

/-! ## Texts -/

def definiteForkErrorPrefix : String := "[cdr-rust:app-server-fork-definite:v1] "

def previousErrorLabel : String := "\nPrevious error: "

def stripPrefix (text start : List Char) : Option (List Char) :=
  if start.isPrefixOf text then some (text.drop start.length) else none

/-- What follows the last label, by `rsplit_once` -/
def afterLast (label : List Char) : List Char → Option (List Char)
  | [] => none
  | c :: rest =>
    match afterLast label rest with
    | some found => some found
    | none => stripPrefix (c :: rest) label

/-- `trim_start_matches`; a text of this length is stripped at most so often. -/
def trimStartMatches (start : List Char) : Nat → List Char → List Char
  | 0, text => text
  | count + 1, text =>
    match stripPrefix text start with
    | none => text
    | some rest => trimStartMatches start count rest

/-- `bounded` of the notices -/
def boundedText (value : String) (limit : Nat) : String := takeChars (trimmedText value) limit

def boundedReason (reason : String) : String :=
  let reason := trimmedText reason
  takeChars (if reason.isEmpty then "ambiguous app-server fork handoff" else reason) 900

def boundedForkError (error : String) : String :=
  let error := trimmedText error
  takeChars (if error.isEmpty then "app-server fork failed without an error message" else error) 1000

def withPrevious (text previous : String) : String :=
  if previous.isEmpty then text else text ++ previousErrorLabel ++ previous

def unresolvedMessage (forkError previous : String) : String :=
  let latest := trimStart (trimStartMatches unresolvedForkErrorPrefix.toList forkError.length
    (trim forkError.toList))
  let previous := boundedText previous 240
  let overhead := if previous.isEmpty then 0 else previousErrorLabel.length + previous.length
  withPrevious (unresolvedForkErrorPrefix ++ boundedText (String.ofList latest)
    (1000 - (unresolvedForkErrorPrefix.length + overhead))) previous

/-- The error a row had before the fork's own -/
def priorError (storedError previousForkError : String) : String :=
  let stored := trimmedText storedError
  match stripPrefix stored.toList unresolvedForkErrorPrefix.toList with
  | none => boundedText stored 240
  | some encoded =>
    if stored = unresolvedMessage previousForkError "" then ""
    else
      let candidate := String.ofList ((afterLast previousErrorLabel.toList encoded).getD [])
      if startsWith candidate unresolvedForkErrorPrefix ||
          stored != unresolvedMessage previousForkError candidate then ""
      else boundedText candidate 240

inductive FailurePhase where
  | forkOutcome
  | finalize
  | cancellation
deriving DecidableEq, Repr

def unresolvedNotice (forkError previous : String) (phase : FailurePhase) : String :=
  let kept := " This request remains queued and will not run until recovery, preventing a duplicate response.\n"
  withPrevious (match phase with
    | .forkOutcome => "The Codex ownership fork result is uncertain." ++ kept ++ "Fork error: " ++
        forkError
    | .finalize => "The Codex ownership fork target was created, but local routing finalization failed." ++
        kept ++ "Finalize error: " ++ forkError
    | .cancellation => "The Codex ownership fork failed and its cancellation could not be confirmed." ++
        kept ++ "Failure details: " ++ forkError) previous

def previousNonForkError (storedError : String) : String :=
  let stored := trimmedText storedError
  let prefixes := [definiteForkErrorPrefix, unresolvedForkErrorPrefix]
  let previous :=
    match prefixes.findSome? fun start => stripPrefix stored.toList start.toList with
    | none => stored
    | some generated => String.ofList ((afterLast previousErrorLabel.toList generated).getD [])
  if prefixes.any (startsWith previous ·) then "" else takeChars previous 1000

def definiteMessage (forkError previous : String) : String :=
  withPrevious (definiteForkErrorPrefix ++ forkError) previous

def definiteNotice (forkError previous : String) : String :=
  withPrevious ("The Codex ownership fork definitely failed before a target was created. This request remains durable and can be retried safely.\nFork error: " ++
    forkError) previous

def quarantineMessage (reason previous : String) : String :=
  withPrevious (quarantinedErrorPrefix ++ reason) previous

def terminalQuarantineContent (reason previous : String) : String :=
  withPrevious ("Codex request start result is uncertain, so it was not retried to prevent a duplicate response.\nQuarantine reason: " ++
    reason) previous

def boundedFragment (value : String) (limit : Nat) (fallback : String) : String :=
  let value := trimmedText value
  takeChars (if value.isEmpty then fallback else value) limit

def combinedError (forkError cancellationError previous : String) : String :=
  let base := "[cdr-rust:app-server-fork-cancellation-failure:v1] Fork error: " ++
    boundedFragment forkError 320 "fork failed without an error message" ++
    "\nCancellation error: " ++ boundedFragment cancellationError 320
      "handoff cancellation failed without an error message"
  if startsWith previous base then previous
  else takeChars (withPrevious base (boundedFragment previous 240 "")) 1000

/-! ## Notices -/

/-- `INSERT … ON CONFLICT(delivery_id) DO NOTHING` -/
def insertNoticeOnce (hooks : QueueHooks ρ) (db : QueueDb ρ) (notice : OutboxNotice) :
    Except StoreError (QueueDb ρ) :=
  match hooks.fenceNotice db notice with
  | some error => .error error
  | none =>
    if db.outbox.contains (·.deliveryId == notice.deliveryId) then .ok db
    else insertNotice hooks db notice

/-- `UPDATE codex_delivery_outbox SET content … WHERE delivery_id = ? AND content != ?` -/
def refreshNotice (hooks : QueueHooks ρ) (db : QueueDb ρ) (deliveryId content : String) (now : Rat) :
    Except StoreError (QueueDb ρ) :=
  let assign := fun n : OutboxNotice => { n with content := content, updatedAt := now }
  let selected := fun n : OutboxNotice => n.deliveryId == deliveryId && n.content != content &&
    !db.archive.frozen .deliveryOutbox n.deliveryId
  match (db.outbox.select selected).findSome? fun n => hooks.fenceNotice db (assign n) with
  | some error => .error error
  | none => .ok { db with outbox := db.outbox.update selected assign (fun n => Eq.refl n.deliveryId) }

def stageNotice (hooks : QueueHooks ρ) (db : QueueDb ρ) (notice : OutboxNotice)
    (previouslyStaged : Bool) : Except StoreError (QueueDb ρ) :=
  if previouslyStaged then refreshNotice hooks db notice.deliveryId notice.content notice.updatedAt
  else insertNoticeOnce hooks db notice

/-- `DELETE FROM codex_delivery_outbox WHERE delivery_id IN …`; recorded rows ignore it. -/
def deleteNotices (forks : ForkHooks ρ) (db : QueueDb ρ) (ids : List String) :
    Except StoreError (QueueDb ρ) :=
  let selected := fun n : OutboxNotice =>
    ids.contains n.deliveryId && !db.archive.recordRetired .deliveryOutbox n.deliveryId
  match (db.outbox.select selected).findSome? fun n => forks.fenceNoticeDelete db n with
  | some error => .error error
  | none => .ok { db with outbox := db.outbox.delete selected }

/-! ## Waiting jobs and intakes -/

/-- `state IN ('pending', 'starting')` of one thread, in list order -/
def waitingJobs (db : QueueDb ρ) (source : String) : List QueueRow :=
  (db.jobs.select fun r => r.targetThreadId == source && r.state != .running).mergeSort listOrder

def intakeOrder (a b : PromptIntake) : Bool :=
  a.createdAt < b.createdAt || (a.createdAt == b.createdAt && a.jobId ≤ b.jobId)

def waitingIntakes (db : QueueDb ρ) (source : String) : List PromptIntake :=
  (db.intakes.select (·.targetThreadId == source)).mergeSort intakeOrder

/-- The update of a waiting job's error, which must change its row. -/
def markJob (hooks : QueueHooks ρ) (source : String) (row : QueueRow) (marker : String) (now : Rat)
    (db : QueueDb ρ) : Except ForkHandoffError (QueueDb ρ) := do
  let (updated, db) ← ofStore (updateJob hooks db row.jobId
    (fun r => r.targetThreadId == source && r.state == row.state && r.lastError == row.lastError)
    (fun r => r.mark marker now) (fun r => r.mark_jobId marker now))
  if updated then .ok db else .error (.conflictingIntent source)

def markIntake (hooks : QueueHooks ρ) (source : String) (row : PromptIntake) (marker : String)
    (now : Rat) (db : QueueDb ρ) : Except ForkHandoffError (QueueDb ρ) := do
  let (updated, db) ← ofStore (updateIntakes hooks db
    (fun r => r.jobId == row.jobId && r.targetThreadId == source && r.lastError == row.lastError)
    (fun r => { r with lastError := marker, updatedAt := now }) (fun _ => rfl))
  if updated == 1 then .ok db else .error (.conflictingIntent source)

def stageQueueNotice (hooks : QueueHooks ρ) (handoff : ForkHandoff) (forkError : String)
    (phase : FailurePhase) (now : Rat) (db : QueueDb ρ) (row : QueueRow) :
    Except ForkHandoffError (QueueDb ρ) := do
  let prior := priorError row.lastError handoff.lastForkError
  let db ← markJob hooks handoff.sourceThreadId row (unresolvedMessage forkError prior) now db
  let starting := row.state == .starting
  let noticeId := (if starting then "fork-unresolved-starting:" else "fork-unresolved:") ++ row.jobId
  ofStore (stageNotice hooks db
    ⟨noticeId, if starting then noticeId else row.jobId, handoff.sourceThreadId,
      "fork-unresolved:" ++ handoff.handoffId, row.channelId, unresolvedNotice forkError prior phase,
      now⟩ (startsWith row.lastError unresolvedForkErrorPrefix))

def stageIntakeNotice (hooks : QueueHooks ρ) (handoff : ForkHandoff) (forkError : String)
    (phase : FailurePhase) (now : Rat) (db : QueueDb ρ) (row : PromptIntake) :
    Except ForkHandoffError (QueueDb ρ) := do
  let prior := priorError row.lastError handoff.lastForkError
  let db ← markIntake hooks handoff.sourceThreadId row (unresolvedMessage forkError prior) now db
  let noticeId := "fork-unresolved-intake:" ++ row.jobId
  ofStore (stageNotice hooks db
    ⟨noticeId, noticeId, handoff.sourceThreadId, "fork-unresolved-intake:" ++ handoff.handoffId,
      row.channelId, unresolvedNotice forkError prior phase, now⟩
    (startsWith row.lastError unresolvedForkErrorPrefix))

/-- `stage_unresolved_notices`; `handoff` is the row as it was before the error was recorded. -/
def stageUnresolvedNotices (hooks : QueueHooks ρ) (handoff : ForkHandoff) (forkError : String)
    (phase : FailurePhase) (now : Rat) (db : QueueDb ρ) :
    Except ForkHandoffError (QueueDb ρ) := do
  let db ← (waitingJobs db handoff.sourceThreadId).foldlM
    (stageQueueNotice hooks handoff forkError phase now) db
  (waitingIntakes db handoff.sourceThreadId).foldlM
    (stageIntakeNotice hooks handoff forkError phase now) db

def stageDefiniteNotice (hooks : QueueHooks ρ) (handoff : ForkHandoff) (forkError : String)
    (now : Rat) (db : QueueDb ρ) (row : QueueRow) : Except ForkHandoffError (QueueDb ρ) := do
  let previous := previousNonForkError row.lastError
  let db ← markJob hooks handoff.sourceThreadId row (definiteMessage forkError previous) now db
  let noticeId := "fork-definite:" ++ handoff.handoffId ++ ":" ++ row.jobId
  ofStore (insertNoticeOnce hooks db
    ⟨noticeId, noticeId, handoff.sourceThreadId, "fork-definite:" ++ handoff.handoffId, row.channelId,
      definiteNotice forkError previous, now⟩)

/-- `stage_definite_notices`, with the number of jobs it told -/
def stageDefiniteNotices (hooks : QueueHooks ρ) (handoff : ForkHandoff) (forkError : String)
    (now : Rat) (db : QueueDb ρ) : Except ForkHandoffError (Nat × QueueDb ρ) :=
  let jobs := waitingJobs db handoff.sourceThreadId
  (jobs.foldlM (stageDefiniteNotice hooks handoff forkError now) db).map fun db => (jobs.length, db)

end CodexRemote.Store.Fork

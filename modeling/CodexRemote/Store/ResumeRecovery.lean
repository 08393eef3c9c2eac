import CodexRemote.Store.MutationAttempt
import CodexRemote.Store.Queue.Jobs

/-! # Resume recovery after a restart

A cold runtime retires a prepared `thread/resume` of an older one, with an idle observation as its
proof.  The record of a candidate is the attempt as it was read.
-/

namespace CodexRemote.Store

open Foundations

namespace MutationAttempts

/-- `cdr_resume_restart_recoveries` -/
structure RestartRecovery where
  attemptId : String
  original : MutationAttempt
  proof : Json
  runtimeId : String
  recoveredAt : Rat

abbrev Recoveries := Table RestartRecovery.attemptId

structure ResumeCandidate where
  attemptId : String
  target : String
  original : MutationAttempt
deriving DecidableEq

def candidates (archive : AttemptArchive) (runtime : String) (journal : MutationJournal) :
    Except StoreError (List ResumeCandidate) := do
  ownerIsCurrent runtime journal
  let rows := (journal.attempts.select fun row => archive.live row && row.prepared &&
    row.method = "thread/resume" && row.isScoped && row.runtimeId ≠ runtime).mergeSort
      fun a b => a.sequence ≤ b.sequence
  (rows.take 64).mapM fun row =>
    match row.targetThreadId with
    | none => .error (.database "Invalid column type Null at index: 1, name: target_thread_id")
    | some target => .ok ⟨row.attemptId, target, row⟩

/-- `is_idle_observation` -/
def isIdleObservation (target : String) (metadata latest : Json) : Bool :=
  let reads (value : Json) (path : List String) : Option String :=
    (value.pointer path).bind Json.asText
  reads metadata ["thread", "id"] = some target &&
    ((reads metadata ["thread", "status", "type"]).any fun status =>
      status = "idle" || status = "notLoaded") &&
    ((latest.get "truncated").all fun value => value.same (.bool false)) &&
    match latest.get "data" with
    | some (.array []) => (latest.get "nextCursor").any fun value => value.same .null
    | some (.array [turn]) =>
      ((turn.get "id").bind Json.asText).any (· ≠ "") &&
        ((turn.get "status").bind Json.asText).any fun status =>
          status = "completed" || status = "interrupted" || status = "failed"
    | _ => false

/-- The error that the attempt left with a pending job. -/
def matchingPreflight (error attempt : String) : Bool :=
  startsWith error executionHeldPrefix &&
    let error := String.ofList (error.toList.drop executionHeldPrefix.length)
    ((startsWith error "app-server mutation thread/resume outcome remains unknown:" &&
        s!"; durable attempt {attempt} retained; no automatic replay".toList.isSuffixOf error.toList) ||
      error = s!"mutation execution held: SQLite integrity check failed: unresolved mutation {attempt} (thread/resume); dispatch held without replay")

/-- The candidate names an attempt of another runtime, read as the recovery needs it. -/
def ResumeCandidate.exact (candidate : ResumeCandidate) (runtime resident : String) : Bool :=
  let old := candidate.original
  old.runtimeId ≠ runtime && old.ownerId ≠ resident && old.method = "thread/resume" &&
    old.prepared && old.isScoped && old.targetThreadId = some candidate.target &&
    old.attemptId = candidate.attemptId

/-- A pending job that the attempt's preflight held. -/
def heldPreflight {ρ : Type} (db : QueueDb ρ) (candidate : ResumeCandidate) (row : QueueRow) :
    Bool :=
  row.targetThreadId = candidate.target && row.state = .pending && row.turnId = none &&
    row.executionGeneration = none && row.baselineTurnIds = .turns [] &&
    (holdReason db row.jobId).isNone && matchingPreflight row.lastError candidate.attemptId

/-- Other unresolved work of the candidate's target. -/
def occupied {ρ : Type} (db : QueueDb ρ) (journal : MutationJournal) (candidate : ResumeCandidate) :
    Bool :=
  (db.jobs.contains fun row => row.targetThreadId = candidate.target && row.state ≠ .pending) ||
    journal.attempts.contains fun row => row.prepared && row.attemptId ≠ candidate.attemptId &&
      (!row.isScoped || row.targetThreadId = some candidate.target)

def recoveryProof (resident : String) (generation : Int) (metadata latest : Json)
    (jobs : List QueueRow) : Json :=
  .object
    [("generation", .integer generation), ("latest", latest), ("metadata", metadata),
      ("preflight_errors", .array (jobs.map fun job => .array [.text job.jobId, .text job.lastError])),
      ("resident", .text resident),
      ("resolution", .text "prior runtime idle resume retired; original reply remains unknown")]

/-- The error of a preflight is cleared from its job. -/
def clearPreflight {ρ : Type} (hooks : QueueHooks ρ) (now : Rat) (db : QueueDb ρ)
    (job : QueueRow) : Except StoreError (QueueDb ρ) := do
  let (changed, db) ← updateJob hooks db job.jobId
    (fun row => row.state = .pending && row.turnId = none && row.lastError = job.lastError)
    (fun row => { row with lastError := "", updatedAt := now }) (fun _ => rfl)
  if !changed then .error (.integrity "resume restart recovery lost a pending preflight")
  else .ok db

/-- `recover`; the holds of stop controls and of responses answer for the target. -/
def recover {ρ : Type} (archive : AttemptArchive) (hooks : QueueHooks ρ)
    (unheld : String → Except StoreError Unit) (runtime resident : String) (generation : Int)
    (candidate : ResumeCandidate) (metadata latest : Json) (now : Rat) (recoveries : Recoveries)
    (journal : MutationJournal) (db : QueueDb ρ) :
    Except StoreError (Nat × Recoveries × MutationJournal × QueueDb ρ) :=
  if resident = "" || generation < 1 || !isIdleObservation candidate.target metadata latest then
    .error (.integrity "resume restart recovery lacks an idle observation")
  else if !candidate.exact runtime resident then
    .error (.integrity "resume restart recovery requires an exact prior runtime attempt")
  else do
    ownerIsCurrent runtime journal
    if journal.attempts.rows.find? (fun row => row.attemptId = candidate.attemptId) ≠
        some candidate.original then
      .error (.integrity "resume restart attempt changed during observation")
    else
      unheld candidate.target
      if occupied db journal candidate then
        .error (.integrity "resume restart target still has unresolved execution")
      else
        let jobs := db.jobs.select (heldPreflight db candidate)
        match recoveries.insert ⟨candidate.attemptId, candidate.original,
            recoveryProof resident generation metadata latest jobs, runtime, now⟩ with
        | none => .error (.database "UNIQUE constraint failed: cdr_resume_restart_recoveries.attempt_id")
        | some recoveries =>
          let gone := fun row : MutationAttempt =>
            row.attemptId = candidate.attemptId && row.prepared && !archive.preserved row
          if journal.attempts.count gone ≠ 1 then
            .error (.integrity "resume restart recovery lost its exact attempt")
          else
            let next := journal.delete gone
            let db ← jobs.foldlM (clearPreflight hooks now) db
            ownerIsCurrent runtime next
            .ok (jobs.length, recoveries, next, db)

end MutationAttempts

end CodexRemote.Store

import CodexRemote.Discord.Text
import CodexRemote.Foundations.Tables
import CodexRemote.Foundations.Transactions
import CodexRemote.Store.Errors
import CodexRemote.Store.Json

/-! # Mutation attempts

The journal of the requests that a runtime is about to write to the app server.  A prepared attempt
is evidence that the request may have been sent.
-/

namespace CodexRemote.Store

open Foundations

namespace MutationAttempts

def maxPrepared : Nat := 1024
def maxConfirmed : Nat := 256

/-- `codex_mutation_attempts.state` -/
inductive AttemptState where
  | prepared
  | replyOk
  | replyError
  | notSent
deriving DecidableEq, Repr

structure MutationAttempt where
  sequence : Nat
  attemptId : String
  runtimeId : String
  ownerId : String
  generation : Int
  wireId : String
  method : String
  targetThreadId : Option String
  isScoped : Bool
  requestSha256 : String
  state : AttemptState
  createdAt : Rat
  updatedAt : Rat
deriving DecidableEq

def MutationAttempt.prepared (attempt : MutationAttempt) : Bool := attempt.state = .prepared

/-- What the triggers of archived rooms do with an attempt. -/
structure AttemptArchive where
  /-- a delete is ignored -/
  preserved : MutationAttempt → Bool
  /-- an update is ignored -/
  frozen : MutationAttempt → Bool
  /-- the attempt is in the view of live work -/
  live : MutationAttempt → Bool

/-- `codex_mutation_runtime` and `codex_mutation_attempts`, with the counter of its sequence. -/
structure MutationJournal where
  runtime : Option String
  lastSequence : Nat
  attempts : Table MutationAttempt.sequence
  bounded : ∀ attempt ∈ attempts.rows, attempt.sequence ≤ lastSequence

def MutationJournal.empty : MutationJournal := ⟨none, 0, .empty, fun _ none => nomatch none⟩

def MutationJournal.preparedAttempts (journal : MutationJournal) : List MutationAttempt :=
  journal.attempts.select MutationAttempt.prepared

/-- The row that an insert adds. -/
def MutationJournal.append (journal : MutationJournal) (attempt : MutationAttempt) :
    MutationJournal where
  runtime := journal.runtime
  lastSequence := journal.lastSequence + 1
  attempts := journal.attempts.insertOrIgnore { attempt with sequence := journal.lastSequence + 1 }
  bounded := by
    intro row there
    simp only [Table.insertOrIgnore] at there
    split at there
    · exact Nat.le_succ_of_le (journal.bounded row there)
    · obtain older | new := List.mem_append.1 there
      · exact Nat.le_succ_of_le (journal.bounded row older)
      · rw [List.mem_singleton.1 new]

def MutationJournal.settle (journal : MutationJournal) (named : MutationAttempt → Bool)
    (state : AttemptState) (now : Rat) : MutationJournal :=
  { journal with
    attempts := journal.attempts.update named
      (fun attempt => { attempt with state := state, updatedAt := now }) fun _ => rfl
    bounded := by
      intro row there
      obtain ⟨old, before, same⟩ := List.mem_map.1 there
      have bound := journal.bounded old before
      rw [← same]
      split <;> exact bound }

def MutationJournal.delete (journal : MutationJournal) (gone : MutationAttempt → Bool) :
    MutationJournal :=
  { journal with
    attempts := journal.attempts.delete gone
    bounded := fun row there => journal.bounded row (List.mem_of_mem_filter there) }

/-- `trim().is_empty()` -/
def blank (text : String) : Bool := (Discord.trim text.toList).isEmpty

def ownerIsCurrent (runtime : String) (journal : MutationJournal) : Except StoreError Unit :=
  if journal.runtime ≠ some runtime then
    .error (.integrity "mutation journal runtime changed or is missing; dispatch held")
  else .ok ()

def activate (runtime : String) (journal : MutationJournal) : Except StoreError MutationJournal :=
  if blank runtime then .error (.integrity "empty mutation runtime")
  else .ok { journal with runtime := some runtime }

/-- The prepared attempts that exclude a mutation of the target; no target stands for all. -/
def excludes (target : Option String) (attempt : MutationAttempt) : Bool :=
  attempt.prepared && (target.isNone || !attempt.isScoped || attempt.targetThreadId = target)

def unblocked (target : Option String) (journal : MutationJournal) : Except StoreError Unit :=
  match ((journal.attempts.select (excludes target)).mergeSort
      fun a b => a.sequence ≤ b.sequence).head? with
  | some held =>
    .error (.integrity s!"unresolved mutation {held.attemptId} ({held.method}); dispatch held without replay")
  | none => .ok ()

structure NewAttempt where
  runtimeId : String
  ownerId : String
  generation : Int
  attemptId : String
  wireId : String
  method : String
  targetThreadId : Option String
  isScoped : Bool
  payload : Json

def NewAttempt.identified (attempt : NewAttempt) : Bool :=
  !([attempt.runtimeId, attempt.ownerId, attempt.attemptId, attempt.wireId, attempt.method].any
      blank ||
    attempt.generation < 1 || (attempt.isScoped && attempt.targetThreadId.all blank))

/-- The scope in which an attempt must be alone. -/
def NewAttempt.scope (attempt : NewAttempt) : Option String :=
  if attempt.isScoped then attempt.targetThreadId else none

def NewAttempt.row (attempt : NewAttempt) (sha256 : String) (now : Rat) : MutationAttempt where
  sequence := 0
  attemptId := attempt.attemptId
  runtimeId := attempt.runtimeId
  ownerId := attempt.ownerId
  generation := attempt.generation
  wireId := attempt.wireId
  method := attempt.method
  targetThreadId := attempt.targetThreadId
  isScoped := attempt.isScoped
  requestSha256 := sha256
  state := .prepared
  createdAt := now
  updatedAt := now

/-- The insert, with the unique constraints of the table. -/
def insert (attempt : MutationAttempt) (journal : MutationJournal) :
    Except StoreError MutationJournal :=
  if journal.attempts.contains fun row => row.attemptId = attempt.attemptId then
    .error (.database "UNIQUE constraint failed: codex_mutation_attempts.attempt_id")
  else if attempt.isScoped && journal.attempts.contains fun row =>
      row.isScoped && row.prepared && row.targetThreadId = attempt.targetThreadId then
    .error (.database "UNIQUE constraint failed: codex_mutation_attempts.target_thread_id")
  else .ok (journal.append attempt)

/-- The row of the attempt is there as it was inserted. -/
def retained (attempt : NewAttempt) (sha256 : String) (journal : MutationJournal) : Bool :=
  journal.attempts.contains fun row =>
    row.attemptId = attempt.attemptId && row.runtimeId = attempt.runtimeId &&
      row.ownerId = attempt.ownerId && row.generation = attempt.generation &&
      row.wireId = attempt.wireId && row.method = attempt.method &&
      row.targetThreadId = attempt.targetThreadId && row.isScoped = attempt.isScoped &&
      row.requestSha256 = sha256 && row.prepared

/-- `begin_checked`; the check reads the transaction before and after the insert. -/
def beginChecked (archive : AttemptArchive) (digest : Json → String)
    (check : MutationJournal → Except StoreError Unit) (attempt : NewAttempt) (now : Rat)
    (journal : MutationJournal) : Except StoreError MutationJournal :=
  if !attempt.identified then .error (.integrity "invalid mutation attempt identity")
  else do
    ownerIsCurrent attempt.runtimeId journal
    check journal
    unblocked attempt.scope journal
    if maxPrepared ≤ journal.attempts.count (fun row => archive.live row && row.prepared) then
      .error (.integrity "unresolved mutation capacity reached; no eviction or dispatch")
    else
      let next ← insert (attempt.row (digest attempt.payload) now) journal
      ownerIsCurrent attempt.runtimeId next
      if !retained attempt (digest attempt.payload) next then
        .error (.integrity "mutation intent changed before commit")
      else
        check next
        .ok next

def begin (archive : AttemptArchive) (digest : Json → String) (attempt : NewAttempt) (now : Rat)
    (journal : MutationJournal) : Except StoreError MutationJournal :=
  beginChecked archive digest (fun _ => .ok ()) attempt now journal

structure Completion where
  runtimeId : String
  ownerId : String
  generation : Int
  attemptId : String
  wireId : String
  outcome : String
deriving DecidableEq

/-- The outcomes that settle an attempt. -/
def settledState (outcome : String) : Option AttemptState :=
  if outcome = "not_sent" then some .notSent
  else if outcome = "reply_ok" then some .replyOk
  else if outcome = "reply_error" then some .replyError
  else none

def Completion.names (completion : Completion) (attempt : MutationAttempt) : Bool :=
  attempt.attemptId = completion.attemptId && attempt.runtimeId = completion.runtimeId &&
    attempt.ownerId = completion.ownerId && attempt.generation = completion.generation &&
    attempt.wireId = completion.wireId

/-- `ORDER BY updated_at DESC, sequence DESC` -/
def newestFirst (a b : MutationAttempt) : Bool :=
  b.updatedAt < a.updatedAt || (a.updatedAt = b.updatedAt && b.sequence ≤ a.sequence)

/-- The definite history that is not among the newest. -/
def expired (journal : MutationJournal) : List MutationAttempt :=
  ((journal.attempts.select fun row => !row.prepared).mergeSort newestFirst).drop maxConfirmed

def prune (archive : AttemptArchive) (journal : MutationJournal) : MutationJournal :=
  journal.delete fun row =>
    (expired journal).any (fun old => old.sequence = row.sequence) && !archive.preserved row

def finish (archive : AttemptArchive) (completion : Completion) (now : Rat)
    (journal : MutationJournal) : Except StoreError MutationJournal :=
  match settledState completion.outcome with
  | none => .error (.integrity "unknown outcome cannot settle a mutation attempt")
  | some state => do
      ownerIsCurrent completion.runtimeId journal
      let named := fun row => completion.names row && row.prepared && !archive.frozen row
      if journal.attempts.count named ≠ 1 then
        .error (.integrity "mutation completion lost its exact owner/request occurrence")
      else
        let next := journal.settle named state now
        ownerIsCurrent completion.runtimeId next
        if !next.attempts.contains fun row => completion.names row && row.state = state then
          .error (.integrity "mutation completion changed before commit")
        else .ok (prune archive next)

end MutationAttempts

end CodexRemote.Store

import CodexRemote.Foundations.Tables
import CodexRemote.Store.Errors

/-! # Idle release intents

The table `cdr_idle_release` and the transactions that write it.  What other tables say about a
thread is an argument.
-/

namespace CodexRemote.Store

open Foundations

namespace IdleRelease

/-- `cdr_idle_release.state` -/
inductive IdleState where
  | candidate
  | dispatching
  | awaitUnload
  | resubscribing
  | unknown
  | settled
deriving DecidableEq, Repr

def IdleState.text : IdleState → String
  | .candidate => "Candidate"
  | .dispatching => "Dispatching"
  | .awaitUnload => "AwaitUnload"
  | .resubscribing => "Resubscribing"
  | .unknown => "Unknown"
  | .settled => "Settled"

structure Intent where
  intentId : String
  ownerId : String
  generation : Int
  threadId : String
  turnId : String
  jobId : String
  revision : Int
  state : IdleState
  detail : String
deriving DecidableEq, Repr

abbrev Journal := Table Intent.threadId

/-- What the tables of archived rooms say about a thread. -/
structure IdleArchive where
  /-- `archived_cleanup::blocked_in` -/
  blocked : String → Bool
  /-- `archived_cleanup::record_retired_in`, which the insert and delete triggers read as well -/
  retired : String → Bool
  /-- the freeze trigger ignores an update -/
  frozen : String → Bool
  /-- the row is in the view of live work -/
  live : String → Bool

def maxUnresolved : Nat := 128
def maxDiagnosticChars : Nat := 512

def bounded (detail : String) : String := String.ofList (detail.toList.take maxDiagnosticChars)

/-- An intent as an update of its state leaves it. -/
def Intent.moved (intent : Intent) (state : IdleState) (detail : String) : Intent :=
  { intent with state := state, detail := bounded detail, revision := intent.revision + 1 }

def sameRevision (a b : Intent) : Bool :=
  a.intentId = b.intentId ∧ a.ownerId = b.ownerId ∧ a.generation = b.generation ∧
    a.threadId = b.threadId ∧ a.turnId = b.turnId ∧ a.jobId = b.jobId ∧ a.revision = b.revision

/-- `update`: the row is compared with the intent that was read. -/
def update (archive : IdleArchive) (old : Intent) (state : IdleState) (detail : String)
    (journal : Journal) : Except StoreError Journal :=
  let matching (row : Intent) : Bool :=
    sameRevision row old && row.state = old.state && !archive.frozen row.threadId
  if journal.count matching ≠ 1 then .error (.integrity "idle release compare-and-set lost")
  else .ok (journal.update matching (·.moved state detail) fun _ => rfl)

def beforeEnqueue (archive : IdleArchive) (thread : String) (journal : Journal) :
    Except StoreError Journal :=
  match journal.find thread with
  | none => .ok journal
  | some intent =>
    match intent.state with
    | .candidate => update archive intent .settled "CancelledBeforeSend" journal
    | .settled | .awaitUnload => .ok journal
    | _ => .error (.integrity s!"idle release {intent.state.text} requires review for thread {thread}; new prompt was not enqueued: {intent.detail}")

/-- The settled rows of which the thread is not among the last ones. -/
def prunable (archive : IdleArchive) (journal : Journal) (row : Intent) : Bool :=
  row.state = .settled &&
    !((journal.rows.filter fun row => row.state = .settled).reverse.take 32).any
      (fun recent => recent.threadId = row.threadId) &&
    !archive.retired row.threadId

/-- `INSERT OR REPLACE`, which the trigger of retired work ignores. -/
def replace (archive : IdleArchive) (intent : Intent) (journal : Journal) : Journal :=
  if archive.retired intent.threadId then journal
  else (journal.delete fun row => row.intentId = intent.intentId).put intent

def stageCandidate (archive : IdleArchive) (botIdle : Bool) (intentId owner thread turnId jobId : String)
    (generation : Int) (journal : Journal) : Journal :=
  if !botIdle then journal
  else if (journal.find thread).any fun intent => intent.state ≠ .settled then journal
  else if maxUnresolved ≤ journal.count fun row => archive.live row.threadId && row.state ≠ .settled
    then journal
  else replace archive ⟨intentId, owner, generation, thread, turnId, jobId, 1, .candidate, ""⟩
    (journal.delete (prunable archive journal))

/-- `before_mutation`, with the intent that requires a resume first. -/
def beforeMutation (archive : IdleArchive) (owner : String) (generation : Int) (thread : String)
    (journal : Journal) : Except StoreError (Option Intent) × Journal :=
  if archive.blocked thread || archive.retired thread then
    (.error (.integrity "archived idle work cannot be resumed"), journal)
  else
    match journal.find thread with
    | none => (.ok none, journal)
    | some intent =>
      match intent.state with
      | .settled => (.ok none, journal)
      | .candidate =>
        match update archive intent .settled "CancelledBeforeSend" journal with
        | .error error => (.error error, journal)
        | .ok next => (.ok none, next)
      | state =>
        if state = .awaitUnload ∧ intent.ownerId = owner ∧ intent.generation = generation then
          match update archive intent .resubscribing
              "real resume required before next mutation" journal with
          | .error error => (.error error, journal)
          | .ok next =>
            (.ok (some { intent with
              revision := intent.revision + 1, state := .resubscribing }), next)
        else
          (.error (.integrity s!"idle release {intent.state.text} requires review for thread {thread}; no automatic resume/start: {intent.detail}"),
            journal)

def allowed (source target : IdleState) (reason : String) : Bool :=
  (match source, target with
    | .candidate, .dispatching | .candidate, .candidate => true
    | .dispatching, .awaitUnload => true
    | .dispatching, .unknown | .resubscribing, .unknown => true
    | _, _ => false) ||
  (target = .settled &&
    if reason = "CancelledBeforeSend" then source = .candidate || source = .dispatching
    else if reason = "UnloadedConfirmed" then source = .awaitUnload
    else if reason = "SupersededByConfirmedResubscribe" then source = .resubscribing
    else if reason = "OldServerExited" then source ≠ .settled
    else false) ||
  (source = .resubscribing && target = .awaitUnload && reason = "ResumeCancelledBeforeSend")

/-- `transition`, with the row that it leaves. -/
def transition (archive : IdleArchive) (old : Intent) (state : IdleState) (detail : String)
    (journal : Journal) : Except StoreError (Option Intent) × Journal :=
  if !allowed old.state state detail then
    (.error (.integrity s!"invalid idle release transition {old.state.text} -> {state.text}"), journal)
  else
    match update archive old state detail journal with
    | .error error => (.error error, journal)
    | .ok next => (.ok (next.find old.threadId), next)

def settleExitedOwner (archive : IdleArchive) (owner : String) (generation : Int)
    (journal : Journal) : Journal :=
  journal.update
    (fun row => row.ownerId = owner && row.generation = generation && row.state ≠ .settled &&
      !archive.frozen row.threadId)
    (·.moved .settled "OldServerExited") fun _ => rfl

def beforeCleanup (archive : IdleArchive) (thread : String) (journal : Journal) :
    Except StoreError Journal :=
  match journal.find thread with
  | none => .ok journal
  | some intent =>
    if intent.state = .candidate then
      update archive intent .settled "CancelledBeforeSend" journal
    else .ok journal

/-- `verify_with_observations`; the bot's obligations and the observed range are arguments. -/
def verify (botIdle observed : Bool) (expected : Intent) (requireIdle : Bool) (journal : Journal) :
    Except StoreError Unit :=
  if (journal.find expected.threadId).all fun intent =>
      !sameRevision intent expected || intent.state ≠ expected.state then
    .error (.integrity "idle release identity/state changed")
  else if requireIdle && !botIdle then
    .error (.integrity "idle release deferred: unresolved bot work")
  else if requireIdle && !observed then
    .error (.integrity "idle unverified: durable observation range remains")
  else .ok ()

end IdleRelease

end CodexRemote.Store

import CodexRemote.Store.AsyncQuestion.Questions
import CodexRemote.Store.Ingress.Stop

/-! # Dispatching the answer of an async question

An answer is claimed once.  The claim seals what the question and its job were, and the
confirmation or the definite rejection of the dispatch compares both with the seal.
-/

namespace CodexRemote.Store.AsyncQuestion

open Foundations

variable {ρ : Type}

/-! ## Answers -/

inductive Answer where
  | choice (index : Nat)
  | text (answer : String)
deriving DecidableEq, Repr

def maxAnswerChars : Nat := 4000

def Answer.validate (answer : Answer) (q : Question) : Except StoreError Unit :=
  match answer with
  | .choice index =>
    if index < q.body.options.length then .ok () else .error (invalid "invalid sealed answer option")
  | .text answer =>
    if !blank answer && answer.length ≤ maxAnswerChars then .ok ()
    else .error (invalid "invalid sealed answer text")

def Answer.index? : Answer → Option Nat
  | .choice index => some index
  | .text _ => none

def Answer.text? : Answer → Option String
  | .choice _ => none
  | .text answer => some answer

def freeTextFormatVersion : Int := 1

/-- Free text marks the store, so that a program that cannot read it does not start. -/
def Answer.requireCapabilityIn (answer : Answer) (db : AsyncDb ρ) : Except StoreError (AsyncDb ρ) :=
  if answer.text?.isNone then .ok db
  else
    let version := db.textFormat.getD freeTextFormatVersion
    if version != freeTextFormatVersion then
      .error (invalid "unsupported free-text answer format")
    else .ok { db with textFormat := some version }

/-! ## The seal -/

def QuestionBody.value (body : QuestionBody) : Json :=
  .object ((if body.freeTextOnly then [("free_text_only", .bool true)] else []) ++
    [("index", .integer body.index), ("options", StopRevision.strings body.options),
      ("source_text", .text body.sourceText), ("title", .text body.title)])

/-- What a seal says about a question and its job.  The bits of a time stand for the time. -/
def identityValue (q : Question) (job : StoredQueueJob) : Json :=
  .object ([("actor", .integer q.row.ownerUserId)] ++
    (match q.row.answerText with
      | none => []
      | some answer => [("answer_text", .text answer)]) ++
    [("body", q.body.value), ("channel", .integer q.row.channelId),
      ("chosen", .ofInteger (q.row.chosen.map Int.ofNat)), ("generation", .integer q.row.generation),
      ("job", job.value), ("message", .ofText q.row.messageId),
      ("question", .array [.text q.row.runtimeId, .text q.row.threadId, .text q.row.turnId,
        .text q.row.itemId, .text q.row.originJobId]),
      ("reply_job_id", .ofText q.row.replyJobId)])

/-- The job that an answer needs is still its own: the one reserved for a new turn, or the one
that runs the turn of the question. -/
def ownsJob (db : AsyncDb ρ) (q : Question) (job : StoredQueueJob) : Except StoreError Unit :=
  if job.targetThreadId != q.row.threadId || job.channelId != q.row.channelId ||
      job.ownerUserId != some q.row.ownerUserId then
    .error (invalid "async reply exact job ownership changed")
  else if q.row.replyJobId.isSome then
    if db.queue.jobs.count (·.targetThreadId == q.row.threadId) != 1 || job.state != .quarantined ||
        job.appServerGeneration != q.row.generation then
      .error (invalid "async reply reservation changed or successor appeared")
    else .ok ()
  else if !runningMatches job q then .error (invalid "async steer original turn changed")
  else do
    let owned ← runningOwnedIn db q
    if !owned then .error (invalid "async steer original turn changed") else .ok ()

def identity (hooks : QuestionHooks ρ) (db : AsyncDb ρ) (q : Question) : Except StoreError Json := do
  validateMapping hooks db q
  let job ← selectJob db.queue (q.row.replyJobId.getD q.row.originJobId)
  ownsJob db q job
  .ok (identityValue q job)

def sealIn (hooks : QuestionHooks ρ) (id : String) (db : AsyncDb ρ) : Except StoreError (AsyncDb ρ) := do
  let q ← read hooks db id
  let sealed ← identity hooks db q
  match hooks.sealFence db.queue q.row with
  | some error => .error error
  | none =>
    let (_, db) ← updateQuestions hooks db (fun r => r.id == id && r.state == .dispatching)
      (fun r => { r with preparation := some sealed }) (fun _ => rfl)
    .ok db

def verifyIdentityIn (hooks : QuestionHooks ρ) (db : AsyncDb ρ) (q : Question) :
    Except StoreError Unit :=
  match q.row.preparation with
  | none => .error (invalid "legacy async dispatch has no confirmed preparation; held")
  | some sealed => do
      let current ← identity hooks db q
      if current != sealed then
        .error (invalid "async reply exact identity changed after claim")
      else .ok ()

/-! ## Beginning -/

structure Claim where
  id : String
  runtimeId : String
  generation : Int
  channel : Int
  actor : Int
  message : String
  answer : Answer
  mode : DispatchMode
  /-- the history that was observed before a start; unused for a steer -/
  baselineTurnIds : List String
  prompt : String
  now : Timestamp

def QuestionState.name : QuestionState → String
  | .observed => "observed"
  | .opened => "open"
  | .unsupported => "unsupported"
  | .dispatching => "dispatching"
  | .submitted => "submitted"
  | .rejected => "rejected"
  | .expired => "expired"
  | .closedUnknown => "closed_unknown"

/-- The claim names the recorded connection, room, owner and message, and a valid answer. -/
def Claim.matches (c : Claim) (q : Question) : Bool :=
  q.row.runtimeId == c.runtimeId && q.row.generation == c.generation &&
    q.row.channelId == c.channel && q.row.ownerUserId == c.actor &&
    q.row.messageId == some c.message && (c.answer.validate q).isOk

def replyJob (id : String) : String := "async-question:" ++ id

/-- The turn of a job that is reserved for an answer -/
def reservedTurn (id : String) : String := quarantinedTurnPrefix ++ "async:" ++ id

def reservedError : String :=
  quarantinedErrorPrefix ++ "async question answer dispatch unconfirmed; no automatic retry"

def completeBaseline (c : Claim) (q : Question) : Bool :=
  c.baselineTurnIds.contains q.row.turnId && !c.baselineTurnIds.any blank &&
    decide c.baselineTurnIds.Nodup

def Claim.newJob (c : Claim) (q : Question) (now : Rat) : NewQueueJob where
  jobId := replyJob q.row.id
  targetThreadId := q.row.threadId
  channelId := q.row.channelId
  ownerUserId := some q.row.ownerUserId
  discordMessageId := none
  appServerGeneration := q.row.generation
  prompt := c.prompt
  queued := false
  ackSent := true
  createdAt := now

/-- The quarantine encoding keeps the job out of every recovery and retry. -/
def reserveRow (row : QueueRow) (id : String) (baseline : List String) : QueueRow :=
  { row with
    state := .running
    turnId := some (reservedTurn id)
    lastError := reservedError
    baselineTurnIds := .turns baseline }

/-- A new turn is started by a job that is reserved for the answer. -/
def reserveIn (queue : QueueHooks ρ) (c : Claim) (q : Question) (now : Rat)
    (jobs : List StoredQueueJob) (db : AsyncDb ρ) : Except StoreError (String × AsyncDb ρ) :=
  if !completeBaseline c q then
    .error (invalid "async answer requires a complete, unique pre-start baseline")
  else if !jobs.isEmpty then .error .asyncQuestionPendingWork
  else do
    let (_, store) ← enqueueIn (db.hooks queue) (c.newJob q now) db.queue
    let (_, store) ← updateJobs (db.hooks queue) store (·.jobId == replyJob q.row.id)
      (fun r => reserveRow r q.row.id c.baselineTurnIds) (fun _ => rfl)
    .ok (replyJob q.row.id, { db with queue := store })

/-- A running turn is steered while its job is the only active one. -/
def steers (q : Question) (jobs : List StoredQueueJob) : Bool :=
  match jobs.filter (·.state != .pending) with
  | [job] => runningMatches job q
  | _ => false

/-- The job of the answer, when it starts a turn -/
def claimJobIn (queue : QueueHooks ρ) (c : Claim) (q : Question) (now : Rat)
    (jobs : List StoredQueueJob) (db : AsyncDb ρ) : Except StoreError (Option String × AsyncDb ρ) :=
  match c.mode with
  | .start => (reserveIn queue c q now jobs db).map fun (job, db) => (some job, db)
  | .steer =>
    if steers q jobs then .ok (none, db)
    else .error (invalid "the question's exact original running job is no longer owned")

def QuestionRow.dispatch (row : QuestionRow) (c : Claim) (reply : Option String) (now : Rat) :
    QuestionRow :=
  { row with
    state := .dispatching
    chosen := c.answer.index?
    answerText := c.answer.text?
    dispatchMode := some c.mode
    replyJobId := reply
    updatedAt := now }

def claimRefused : StoreError :=
  invalid "question actor, room, message, connection or option does not match"

def beginDispatchIn (hooks : QuestionHooks ρ) (queue : QueueHooks ρ) (c : Claim) (db : AsyncDb ρ) :
    Except StoreError (Question × AsyncDb ρ) := do
  let q ← read hooks db c.id
  match c.now with
  | none => .error claimRefused
  | some now =>
    if !c.matches q then .error claimRefused
    else if q.row.state != .opened then
      .error (invalid ("question answer is " ++ q.row.state.name ++ "; no new answer sent. " ++
        q.row.error))
    else do
      validateMapping hooks db q
      let jobs ← allJobs db.queue
      let jobs := jobs.filter (·.targetThreadId == q.row.threadId)
      let (reply, db) ← claimJobIn queue c q now jobs db
      let db ← c.answer.requireCapabilityIn db
      let (_, db) ← updateQuestions hooks db (fun r => r.id == c.id && r.state == .opened)
        (fun r => r.dispatch c reply now) (fun _ => rfl)
      let db ← sealIn hooks c.id db
      let claimed ← read hooks db c.id
      .ok (claimed, db)

def beginDispatch (hooks : QuestionHooks ρ) (queue : QueueHooks ρ) (c : Claim) (db : AsyncDb ρ) :
    Except StoreError Question × AsyncDb ρ :=
  commit (beginDispatchIn hooks queue c) db

/-! ## Ending -/

def acceptRow (row : QueueRow) (turn : String) (now : Rat) : QueueRow :=
  { row with state := .running, turnId := some turn, lastError := "", updatedAt := now }

/-- The job of a started answer is attached to its turn; a steer has none. -/
def acceptIn (queue : QueueHooks ρ) (q : Question) (turn : String) (now : Rat) (db : AsyncDb ρ) :
    Except StoreError (AsyncDb ρ) :=
  match q.row.replyJobId with
  | some job =>
    if turn == q.row.turnId then
      .error (invalid "new question reply returned the original turn identity")
    else do
      let (changed, store) ← updateJobs (db.hooks queue) db.queue
        (fun r => r.jobId == job && r.turnId == some (reservedTurn q.row.id) &&
          r.appServerGeneration == q.row.generation)
        (fun r => acceptRow r turn now) (fun _ => rfl)
      if changed != 1 then
        .error (invalid "accepted question reply job changed; outcome held for review")
      else .ok { db with queue := store }
  | none =>
    if turn != q.row.turnId then .error (invalid "steer accepted a different turn")
    else .ok db

def QuestionRow.submit (row : QuestionRow) (turn : String) (now : Rat) : QuestionRow :=
  { row with state := .submitted, acceptedTurnId := some turn, error := "", updatedAt := now }

def confirmDispatchIn (hooks : QuestionHooks ρ) (queue : QueueHooks ρ) (id turn : String) (now : Rat)
    (db : AsyncDb ρ) : Except StoreError (Unit × AsyncDb ρ) := do
  let q ← read hooks db id
  if q.row.state != .dispatching || blank turn then
    .error (invalid "answer dispatch is not awaiting confirmation")
  else do
    verifyIdentityIn hooks db q
    let db ← acceptIn queue q turn now db
    let (_, db) ← updateQuestions hooks db (·.id == id) (fun r => r.submit turn now) (fun _ => rfl)
    .ok ((), db)

def confirmDispatch (hooks : QuestionHooks ρ) (queue : QueueHooks ρ) (id turn : String) (now : Rat)
    (db : AsyncDb ρ) : Except StoreError Unit × AsyncDb ρ :=
  commit (confirmDispatchIn hooks queue id turn now) db

/-- `error.chars().take(1000)` -/
def clipped (error : String) : String := String.ofList (error.toList.take 1000)

def recordErrorIn (hooks : QuestionHooks ρ) (id error : String) (now : Rat) (db : AsyncDb ρ) :
    Except StoreError (Unit × AsyncDb ρ) := do
  let (_, db) ← updateQuestions hooks db (·.id == id)
    (fun r => { r with error := clipped error, updatedAt := now }) (fun _ => rfl)
  .ok ((), db)

def recordError (hooks : QuestionHooks ρ) (id error : String) (now : Rat) (db : AsyncDb ρ) :
    Except StoreError Unit × AsyncDb ρ :=
  commit (recordErrorIn hooks id error now) db

/-- `DELETE FROM codex_turn_queue WHERE job_id=? AND turn_id=?`; archived rows are preserved. -/
def releaseIn (queue : QueueHooks ρ) (q : Question) (db : AsyncDb ρ) : Except StoreError (AsyncDb ρ) :=
  match q.row.replyJobId with
  | none => .ok db
  | some job =>
    let selected := fun r : QueueRow => r.jobId == job && r.turnId == some (reservedTurn q.row.id) &&
      !db.queue.archive.recordRetired .turnQueue r.jobId
    match (db.queue.jobs.select selected).findSome? (queue.fenceDelete db.queue) with
    | some error => .error error
    | none => .ok { db with queue := { db.queue with jobs := db.queue.jobs.delete selected } }

def QuestionRow.reject (row : QuestionRow) (error : String) (now : Rat) : QuestionRow :=
  { row with state := .rejected, error := clipped error, updatedAt := now }

def rejectIn (hooks : QuestionHooks ρ) (queue : QueueHooks ρ) (id error : String) (now : Rat)
    (db : AsyncDb ρ) : Except StoreError (Unit × AsyncDb ρ) := do
  let q ← read hooks db id
  if q.row.state != .dispatching then .error (invalid "question dispatch state changed")
  else do
    verifyIdentityIn hooks db q
    let db ← releaseIn queue q db
    let (_, db) ← updateQuestions hooks db (·.id == id) (fun r => r.reject error now) (fun _ => rfl)
    .ok ((), db)

/-- `reject_definite` and `reject_usage_limit` -/
def rejectDefinite (hooks : QuestionHooks ρ) (queue : QueueHooks ρ) (id error : String) (now : Rat)
    (db : AsyncDb ρ) : Except StoreError Unit × AsyncDb ρ :=
  commit (rejectIn hooks queue id error now) db

end CodexRemote.Store.AsyncQuestion

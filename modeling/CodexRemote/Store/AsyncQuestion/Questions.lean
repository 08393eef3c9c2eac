import CodexRemote.Store.Queue.Cancel

/-! # Occurrences of async questions

A question of a running turn is observed first, and becomes a question that can be answered when
the job that was pinned at its observation is proved to run that turn.
-/

namespace CodexRemote.Store.AsyncQuestion

open Foundations

/-! ## Rows

`cdr_async_questions` and its inbox of observations that are not bound to a job yet.
-/

/-- `cdr_async_questions.state` -/
inductive QuestionState where
  | observed
  | opened
  | unsupported
  | dispatching
  | submitted
  | rejected
  | expired
  | closedUnknown
deriving DecidableEq, Repr

inductive DispatchMode where
  | steer
  | start
deriving DecidableEq, Repr

/-- A row of `cdr_async_questions` -/
structure QuestionRow where
  id : String
  runtimeId : String
  generation : Int
  threadId : String
  turnId : String
  itemId : String
  originJobId : String
  channelId : Int
  ownerUserId : Int
  body : String
  state : QuestionState
  messageId : Option String
  chosen : Option Nat
  answerText : Option String
  dispatchMode : Option DispatchMode
  replyJobId : Option String
  acceptedTurnId : Option String
  error : String
  ownerConfirmed : Bool
  preparation : Option Json
  createdAt : Rat
  updatedAt : Rat
deriving DecidableEq

inductive InboxState where
  | waiting
  | expired
deriving DecidableEq, Repr

/-- A row of `cdr_async_question_inbox` -/
structure InboxRow where
  id : String
  runtimeId : String
  generation : Int
  threadId : String
  turnId : String
  itemId : String
  candidateJobId : String
  candidateChannelId : Int
  candidateOwnerId : Int
  candidateGeneration : Option Int
  candidateExecutionGeneration : Option Int
  candidateAttemptCount : Option Int
  body : String
  state : InboxState
  createdAt : Rat
deriving DecidableEq

/-! ## Bodies -/

variable {ρ : Type}

structure QuestionBody where
  freeTextOnly : Bool
  index : Nat
  sourceText : String
  title : String
  options : List String
deriving DecidableEq, Repr

structure AsyncDb (ρ : Type) where
  queue : QueueDb ρ
  questions : Table QuestionRow.id
  inbox : Table InboxRow.id
  /-- the version that `cdr_runtime_capability_requirements` has for free-text answers -/
  textFormat : Option Int

/-- What other code computes and checks for the questions. -/
structure QuestionHooks (ρ : Type) where
  /-- the digest of thread, turn, item and index -/
  occurrenceId : String → String → String → Nat → String
  bodyText : QuestionBody → String
  parseBody : String → Option QuestionBody
  /-- `cdr_cleanup_fences` -/
  cleanupFenced : QueueDb ρ → Int → Bool
  /-- `codex_archive_fences` -/
  archiveFenced : QueueDb ρ → String → Bool
  /-- the message of the delivery receipt for a channel and a question -/
  receiptMessage : QueueDb ρ → Int → String → Option String
  /-- `cdr_async_obligation_retention`: the body is evidence of an unsettled execution -/
  bodyKept : QueueDb ρ → QuestionRow → Bool
  /-- `cdr_async_source_seal_immutable` -/
  sealFence : QueueDb ρ → QuestionRow → Option StoreError
  /-- `cdr_async_obligation_question`, for the rows before and after an update -/
  afterUpdate : QueueDb ρ → List (QuestionRow × QuestionRow) → Except StoreError ρ

/-- The question as `read` decodes its row -/
structure Question where
  row : QuestionRow
  body : QuestionBody
deriving DecidableEq

def invalid (message : String) : StoreError := .integrity message

def noRows : StoreError := .database "Query returned no rows"

/-! ## Statements -/

/-- `UPDATE cdr_async_questions SET … WHERE condition`, with the number of rows changed -/
def updateQuestions (hooks : QuestionHooks ρ) (db : AsyncDb ρ) (condition : QuestionRow → Bool)
    (assign : QuestionRow → QuestionRow) (keeps : ∀ r, (assign r).id = r.id) :
    Except StoreError (Nat × AsyncDb ρ) := do
  let selected := fun r : QuestionRow =>
    condition r && !db.queue.archive.frozen .asyncQuestions r.id
  let rest ← hooks.afterUpdate db.queue ((db.questions.select selected).map fun r => (r, assign r))
  .ok (db.questions.count selected, { db with
    queue := { db.queue with rest := rest }
    questions := db.questions.update selected assign keeps })

/-- `INSERT OR IGNORE INTO cdr_async_questions`, with the number of rows inserted -/
def insertQuestion (state : Nat × AsyncDb ρ) (row : QuestionRow) : Nat × AsyncDb ρ :=
  let (inserted, db) := state
  if db.queue.archive.recordRetired .asyncQuestions row.id || (db.questions.find row.id).isSome then
    (inserted, db)
  else
    let archive := db.queue.archive.capture .asyncQuestions row.id (·.covers row.threadId row.channelId)
    (inserted + 1, { db with
      questions := db.questions.insertOrIgnore row
      queue := { db.queue with archive := archive } })

def insertObservation (db : AsyncDb ρ) (row : InboxRow) : AsyncDb ρ :=
  if db.queue.archive.recordRetired .asyncQuestionInbox row.id then db
  else
    let archive := db.queue.archive.capture .asyncQuestionInbox row.id
      (·.covers row.threadId row.candidateChannelId)
    { db with
      inbox := db.inbox.insertOrIgnore row
      queue := { db.queue with archive := archive } }

/-- `UPDATE cdr_async_question_inbox SET … WHERE condition` -/
def updateInbox (db : AsyncDb ρ) (condition : InboxRow → Bool) (assign : InboxRow → InboxRow)
    (keeps : ∀ r, (assign r).id = r.id) : AsyncDb ρ :=
  let selected := fun r : InboxRow =>
    condition r && !db.queue.archive.frozen .asyncQuestionInbox r.id
  { db with inbox := db.inbox.update selected assign keeps }

/-- `DELETE FROM cdr_async_question_inbox WHERE condition`; archived rows are preserved. -/
def deleteObservations (db : AsyncDb ρ) (condition : InboxRow → Bool) : AsyncDb ρ :=
  let selected := fun r : InboxRow =>
    condition r && !db.queue.archive.recordRetired .asyncQuestionInbox r.id
  { db with inbox := db.inbox.delete selected }

/-- The rows of `cdr_live_cdr_async_questions` -/
def liveQuestion (archive : Archive) (row : QuestionRow) : Bool :=
  !archive.recordRetired .asyncQuestions row.id &&
    !archive.dispositions.any (·.covers row.threadId row.channelId)

/-- The rows of `cdr_live_cdr_async_question_inbox` -/
def liveObservation (archive : Archive) (row : InboxRow) : Bool :=
  !archive.recordRetired .asyncQuestionInbox row.id &&
    !archive.dispositions.any (·.covers row.threadId row.candidateChannelId)

/-! ## Reads -/

def read (hooks : QuestionHooks ρ) (db : AsyncDb ρ) (id : String) : Except StoreError Question :=
  match db.questions.find id with
  | none => .error noRows
  | some row =>
    -- the column is read as a `u16`
    if row.chosen.any (65535 < ·) then .error (.database "Integer out of range")
    else
      match hooks.parseBody row.body with
      | none => .error (.json "body")
      | some body => .ok ⟨row, body⟩

def dispatchHeldIn (db : AsyncDb ρ) (thread : String) : Bool :=
  db.questions.contains fun r =>
    r.threadId == thread && r.dispatchMode == some .start && r.state == .dispatching

/-- The checks of the queue, which also ask whether an answer is being dispatched -/
def AsyncDb.hooks (db : AsyncDb ρ) (hooks : QueueHooks ρ) : QueueHooks ρ :=
  { hooks with asyncDispatchHeld := fun _ target => dispatchHeldIn db target }

/-- `SELECT COUNT(*)=1 AND MIN(codex_thread_id)=? FROM mirror_threads WHERE discord_thread_id=?` -/
def mirrors (archive : Archive) (channel : Int) (thread : String) : Bool :=
  match archive.mirrorThreads.filter (·.discordThreadId == channel) with
  | [mirror] => mirror.codexThreadId == thread
  | _ => false

def validateMapping (hooks : QuestionHooks ρ) (db : AsyncDb ρ) (q : Question) :
    Except StoreError Unit :=
  let fenced := hooks.cleanupFenced db.queue q.row.channelId ||
    targetIsHeld db.queue q.row.threadId || hooks.archiveFenced db.queue q.row.threadId
  if !mirrors db.queue.archive q.row.channelId q.row.threadId || fenced ||
      db.queue.archive.recordRetired .asyncQuestions q.row.id ||
      db.queue.archive.blocked (some q.row.channelId) (some q.row.threadId) then
    .error (invalid "question mapping changed or target is fenced; no answer sent")
  else .ok ()

/-! ## Ownership -/

/-- The generation whose events may report on the turn of a job -/
def observedGeneration (job : StoredQueueJob) : Int :=
  job.turnObservationGeneration.getD job.appServerGeneration

def runningMatches (job : StoredQueueJob) (q : Question) : Bool :=
  job.jobId == q.row.originJobId && job.targetThreadId == q.row.threadId &&
    job.channelId == q.row.channelId && job.ownerUserId == some q.row.ownerUserId &&
    job.state == .running && !job.goalWaiting && job.turnId == some q.row.turnId &&
    observedGeneration job == q.row.generation

/-- `SELECT job_id FROM codex_turn_queue WHERE target_thread_id=? AND state!='pending'` -/
def nonpending (db : QueueDb ρ) (thread : String) : List QueueRow :=
  db.jobs.select fun r => r.targetThreadId == thread && r.state != .pending

def soleNonpendingOwnerIn (db : AsyncDb ρ) (q : Question) : Bool :=
  match nonpending db.queue q.row.threadId with
  | [row] => row.jobId == q.row.originJobId
  | _ => false

def runningOwnedIn (db : AsyncDb ρ) (q : Question) : Except StoreError Bool :=
  if soleNonpendingOwnerIn db q then do
    let job ← selectJob db.queue q.row.originJobId
    .ok (runningMatches job q)
  else .ok false

def ownerConfirmedIn (hooks : QuestionHooks ρ) (id : String) (db : AsyncDb ρ) :
    Except StoreError (Bool × AsyncDb ρ) :=
  match db.questions.find id with
  | none => .error noRows
  | some row =>
    if row.ownerConfirmed then .ok (true, db)
    else do
      let current ← read hooks db id
      let confirmed ← runningOwnedIn db current
      if confirmed then
        let (_, db) ← updateQuestions hooks db (·.id == id)
          (fun r => { r with ownerConfirmed := true }) (fun _ => rfl)
        .ok (true, db)
      else .ok (false, db)

def ownerConfirmed (hooks : QuestionHooks ρ) (id : String) (db : AsyncDb ρ) :
    Except StoreError Bool × AsyncDb ρ :=
  commit (ownerConfirmedIn hooks id) db

/-! ## Binding the message -/

/-- The last statement of `bind_receipt` -/
def bindMessageIn (hooks : QuestionHooks ρ) (id message : String) (interactive : Bool)
    (db : AsyncDb ρ) : Except StoreError (Unit × AsyncDb ρ) := do
  let (_, db) ← updateQuestions hooks db (fun r => r.id == id && r.state == .observed)
    (fun r => { r with
      messageId := some message
      state := if interactive then .opened else .unsupported }) (fun _ => rfl)
  .ok ((), db)

def bindMessage (hooks : QuestionHooks ρ) (id message : String) (interactive : Bool)
    (db : AsyncDb ρ) : Except StoreError Unit × AsyncDb ρ :=
  commit (bindMessageIn hooks id message interactive) db

/-- The statements of `bind_receipt` when nothing comes between them -/
def bindReceipt (hooks : QuestionHooks ρ) (id : String) (interactive : Bool) (db : AsyncDb ρ) :
    Except StoreError Unit × AsyncDb ρ :=
  match read hooks db id with
  | .error error => (.error error, db)
  | .ok q =>
    match ownerConfirmed hooks id db with
    | (.error error, db) => (.error error, db)
    | (.ok false, db) =>
      (.error (invalid "question original turn ownership is not confirmed"), db)
    | (.ok true, db) =>
      match hooks.receiptMessage db.queue q.row.channelId q.row.id with
      | none => (.error (invalid "question message receipt is not confirmed"), db)
      | some message => bindMessage hooks id message interactive db

/-! ## Observations -/

structure NewQuestion where
  runtimeId : String
  generation : Int
  threadId : String
  turnId : String
  itemId : String
  body : QuestionBody
  now : Timestamp

/-- `str::trim().is_empty()` -/
def blank (text : String) : Bool := (Discord.trim text.toList).isEmpty

/-- `observe::encode`, with the time it has checked -/
def encode (hooks : QuestionHooks ρ) (n : NewQuestion) : Except StoreError (String × Rat) :=
  let body := hooks.bodyText n.body
  match n.now with
  | none => .error (invalid "invalid or oversized async question")
  | some now =>
    if 32768 < body.utf8ByteSize || n.runtimeId == "" || n.generation < 0 || blank n.threadId ||
        blank n.turnId || blank n.itemId then
      .error (invalid "invalid or oversized async question")
    else .ok (body, now)

/-- The observation of a question, pinned to the job that is its candidate -/
def NewQuestion.pin (n : NewQuestion) (id body : String) (now : Rat) (job : QueueRow) (owner : Int) :
    InboxRow where
  id := id
  runtimeId := n.runtimeId
  generation := n.generation
  threadId := n.threadId
  turnId := n.turnId
  itemId := n.itemId
  candidateJobId := job.jobId
  candidateChannelId := job.channelId
  candidateOwnerId := owner
  candidateGeneration := some job.appServerGeneration
  candidateExecutionGeneration := job.executionGeneration
  candidateAttemptCount := some job.attemptCount
  body := body
  state := .waiting
  createdAt := now

def noCandidate : StoreError :=
  invalid "async question has no unique original Discord job candidate; no controls sent"

def recordObservationIn (hooks : QuestionHooks ρ) (n : NewQuestion) (db : AsyncDb ρ) :
    Except StoreError (Unit × AsyncDb ρ) := do
  let (body, now) ← encode hooks n
  let id := hooks.occurrenceId n.threadId n.turnId n.itemId n.body.index
  match ((db.questions.find id).map (·.body)).or ((db.inbox.find id).map (·.body)) with
  | some existing =>
    match hooks.parseBody existing with
    | none => .error (.json "body")
    | some stored =>
      if stored != n.body then
        .error (invalid "async question occurrence changed its content")
      else .ok ((), db)
  | none =>
    match nonpending db.queue n.threadId with
    | [job] =>
      match job.ownerUserId with
      | some owner => .ok ((), insertObservation db (n.pin id body now job owner))
      | none => .error noCandidate
    | _ => .error noCandidate

def recordObservation (hooks : QuestionHooks ρ) (n : NewQuestion) (db : AsyncDb ρ) :
    Except StoreError Unit × AsyncDb ρ :=
  commit (recordObservationIn hooks n) db

/-! ## Promotion -/

/-- Which observations a call of `reconcile_in` looks at -/
structure Scope where
  runtime : Option String
  generation : Option Int
  job : Option String

def Scope.covers (scope : Scope) (i : InboxRow) : Bool :=
  scope.runtime.all (i.runtimeId == ·) && scope.generation.all (i.generation == ·) &&
    scope.job.all (i.candidateJobId == ·) && i.state == .waiting

/-- The job is the pinned one, in the attempt that was pinned, and runs the turn. -/
def runsPinned (i : InboxRow) (job : QueueRow) : Bool :=
  job.jobId == i.candidateJobId && job.targetThreadId == i.threadId &&
    job.turnId == some i.turnId && job.state == .running && !job.goalWaiting &&
    job.channelId == i.candidateChannelId && job.ownerUserId == some i.candidateOwnerId &&
    job.turnObservationGeneration.getD job.appServerGeneration == i.generation &&
    ((i.candidateGeneration.isNone && i.candidateAttemptCount.isNone &&
        job.appServerGeneration == i.generation) ||
      (i.candidateGeneration == some job.appServerGeneration &&
        job.executionGeneration == i.candidateExecutionGeneration &&
        i.candidateAttemptCount == some job.attemptCount))

def InboxRow.question (i : InboxRow) : QuestionRow where
  id := i.id
  runtimeId := i.runtimeId
  generation := i.generation
  threadId := i.threadId
  turnId := i.turnId
  itemId := i.itemId
  originJobId := i.candidateJobId
  channelId := i.candidateChannelId
  ownerUserId := i.candidateOwnerId
  body := i.body
  state := .observed
  messageId := none
  chosen := none
  answerText := none
  dispatchMode := none
  replyJobId := none
  acceptedTurnId := none
  error := ""
  ownerConfirmed := true
  preparation := none
  createdAt := i.createdAt
  updatedAt := i.createdAt

def promotable (db : QueueDb ρ) (scope : Scope) (i : InboxRow) : Bool :=
  scope.covers i && db.jobs.contains (runsPinned i) && (nonpending db i.threadId).length == 1

/-- The question holds what the observation said. -/
def preserves (i : InboxRow) (q : QuestionRow) : Bool :=
  q.id == i.id && q.runtimeId == i.runtimeId && q.generation == i.generation &&
    q.originJobId == i.candidateJobId && q.channelId == i.candidateChannelId &&
    q.ownerUserId == i.candidateOwnerId && q.body == i.body && q.ownerConfirmed

def reconcileIn (scope : Scope) (db : AsyncDb ρ) : Nat × AsyncDb ρ :=
  let chosen := db.inbox.select (promotable db.queue scope)
  let (inserted, db) := (chosen.map InboxRow.question).foldl insertQuestion (0, db)
  (inserted, deleteObservations db fun i => scope.covers i && db.questions.contains (preserves i))

def reconcileObservations (runtime : String) (generation : Int) (db : AsyncDb ρ) :
    Nat × AsyncDb ρ :=
  reconcileIn ⟨some runtime, some generation, none⟩ db

/-- `reconcile_job_in`, before the completed job is removed -/
def reconcileJob (jobId : String) (db : AsyncDb ρ) : Nat × AsyncDb ρ :=
  reconcileIn ⟨none, none, some jobId⟩ db

/-! ## Retention -/

def QuestionState.undispatched (state : QuestionState) : Bool :=
  state == .observed || state == .opened

def QuestionRow.expire (row : QuestionRow) (reason : String) (now : Rat) : QuestionRow :=
  { row with state := .expired, error := reason, updatedAt := now }

/-- The first statement of `retire_old_owner` -/
def retireInbox (runtime : String) (generation : Int) (db : AsyncDb ρ) : AsyncDb ρ :=
  updateInbox db (fun r => liveObservation db.queue.archive r &&
      (r.runtimeId != runtime || r.generation != generation) && r.state == .waiting)
    (fun r => { r with state := .expired }) (fun _ => rfl)

/-- The second statement of `retire_old_owner` -/
def retireQuestionsIn (hooks : QuestionHooks ρ) (runtime : String) (generation : Int) (now : Rat)
    (db : AsyncDb ρ) : Except StoreError (Nat × AsyncDb ρ) :=
  updateQuestions hooks db (fun r => liveQuestion db.queue.archive r &&
      (r.runtimeId != runtime || r.generation != generation) && r.state.undispatched)
    (fun r => r.expire "original question connection changed; no answer sent" now) (fun _ => rfl)

def retireOldOwner (hooks : QuestionHooks ρ) (runtime : String) (generation : Int) (now : Rat)
    (db : AsyncDb ρ) : Except StoreError Nat × AsyncDb ρ :=
  commit (retireQuestionsIn hooks runtime generation now) (retireInbox runtime generation db)

def supersedeIn (hooks : QuestionHooks ρ) (runtime : String) (generation : Int)
    (thread turn : String) (now : Rat) (db : AsyncDb ρ) : Except StoreError (Nat × AsyncDb ρ) :=
  updateQuestions hooks db (fun r => liveQuestion db.queue.archive r && r.runtimeId == runtime &&
      r.generation == generation && r.threadId == thread && r.turnId != turn && r.state.undispatched)
    (fun r => r.expire "a newer turn superseded this question; no answer sent" now) (fun _ => rfl)

def supersede (hooks : QuestionHooks ρ) (runtime : String) (generation : Int)
    (thread turn : String) (now : Rat) (db : AsyncDb ρ) : Except StoreError Nat × AsyncDb ρ :=
  commit (supersedeIn hooks runtime generation thread turn now) db

def emptyBody : String := "\x7b\"index\":0,\"title\":\"\",\"options\":[]\x7d"

def retentionStart (now : Rat) : Rat := now - 30 * 86400

/-- The first statement of `compact_terminal` -/
def compactInbox (now : Rat) (db : AsyncDb ρ) : AsyncDb ρ :=
  updateInbox db (fun r => liveObservation db.queue.archive r && r.state == .expired &&
      decide (r.createdAt < retentionStart now))
    (fun r => { r with body := emptyBody }) (fun _ => rfl)

def QuestionState.terminal : QuestionState → Bool
  | .submitted | .rejected | .closedUnknown | .unsupported | .expired => true
  | .observed | .opened | .dispatching => false

/-- The second statement of `compact_terminal` -/
def compactQuestionsIn (hooks : QuestionHooks ρ) (now : Rat) (db : AsyncDb ρ) :
    Except StoreError (Nat × AsyncDb ρ) :=
  updateQuestions hooks db (fun r => liveQuestion db.queue.archive r && r.state.terminal &&
      decide (r.updatedAt < retentionStart now) && r.body != emptyBody &&
      !hooks.bodyKept db.queue r)
    (fun r => { r with body := emptyBody, error := "terminal question tombstone" }) (fun _ => rfl)

def compactTerminal (hooks : QuestionHooks ρ) (now : Timestamp) (db : AsyncDb ρ) :
    Except StoreError Nat × AsyncDb ρ :=
  match now with
  | none => (.error (invalid "invalid retention clock"), db)
  | some now => commit (compactQuestionsIn hooks now) (compactInbox now db)

end CodexRemote.Store.AsyncQuestion

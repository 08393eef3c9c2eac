import Mathlib.Data.Prod.Lex
import Mathlib.Data.String.Basic
import CodexRemote.Foundations.Keyset
import CodexRemote.Store.DeliveryReceipt
import CodexRemote.Store.Queue.Jobs

/-! # Completion work

Discovery of the work that the completion worker has: for each source of it, pages over
the heads of its lanes.  Stamps are numbers of any linear order, as long as none is a NaN.
-/

namespace CodexRemote.Store

open Foundations

def pageSize : Nat := 32
def maxMetadataBytes : Nat := 4096

inductive Source where
  | observed
  | queue
  | asyncOrphan
  | commentary
  | goal
  | startFailure
  | question
  | final
deriving DecidableEq, Repr

def Source.isState : Source → Bool
  | .observed | .queue | .asyncOrphan => true
  | _ => false

/-! ## Tables -/

/-- `codex_observed_completions` -/
structure ObservedCompletion where
  rowid : Int
  threadId : String
  turnId : String
  payload : String
deriving DecidableEq, Repr

/-- What the discovery reads of `codex_turn_queue`. -/
structure QueuedTarget where
  jobId : String
  targetThreadId : String
  state : String
deriving DecidableEq, Repr

/-- `cdr_async_execution_obligations` -/
structure ExecutionObligation where
  threadId : String
  originJobId : String
  executionState : String
deriving DecidableEq, Repr

/-- `codex_commentary_outbox` -/
structure CommentaryRow where
  sequence : Int
  jobId : String
  targetThreadId : String
  turnId : String
  channelId : Int
  text : String
deriving DecidableEq, Repr

/-- `codex_goal_progress` -/
structure GoalProgress where
  rowid : Int
  thread : String
  turn : String
  channel : Int
  content : String
deriving DecidableEq, Repr

/-- `codex_reserve_start_notices` -/
structure StartNotice (τ : Type) where
  jobId : String
  targetThreadId : String
  channelId : Int
  content : String
  createdAt : τ
deriving DecidableEq, Repr

/-- `cdr_async_questions`; `index` is the field of the body. -/
structure AsyncQuestion (τ : Type) where
  id : String
  runtimeId : String
  generation : Int
  threadId : String
  turnId : String
  itemId : String
  channelId : Int
  body : String
  index : Int
  state : String
  createdAt : τ
deriving DecidableEq, Repr

/-- `codex_delivery_outbox` -/
structure FinalRow (τ : Type) where
  deliveryId : String
  jobId : String
  targetThreadId : String
  turnId : String
  channelId : Int
  content : String
  createdAt : τ
deriving DecidableEq, Repr

/-- What the discovery reads of `discord_ingress_journal`. -/
structure ReplyConfirmation (τ : Type) where
  ingressId : String
  kind : IngressKind
  ownerKind : Option String
  ownerId : Option String
  confirmationDelivered : Bool
  createdAt : τ

/-- The database at the moment of a page.  The lists of live rows are what the views that
leave out archived rooms show. -/
structure CompletionDb (τ : Type) where
  liveObserved : List ObservedCompletion
  liveQueue : List QueuedTarget
  liveObligations : List ExecutionObligation
  liveCommentary : List CommentaryRow
  liveGoals : List GoalProgress
  liveStartNotices : List (StartNotice τ)
  liveQuestions : List (AsyncQuestion τ)
  liveOutbox : List (FinalRow τ)
  commentary : List CommentaryRow
  questions : List (AsyncQuestion τ)
  receipts : List ReceiptRow
  journal : List (ReplyConfirmation τ)
  finalRecoveries : List String

/-! ## Positions -/

structure Position (τ : Type) where
  stamp : τ
  ordinal : Int
  id : String
deriving Repr

def Position.key {τ : Type} (p : Position τ) : τ ×ₗ (Int ×ₗ String) :=
  toLex (p.stamp, toLex (p.ordinal, p.id))

theorem Position.key_injective {τ : Type} : Function.Injective (@Position.key τ) := by
  intro p q same
  cases p
  cases q
  cases same
  rfl

/-- Row values compare column by column, and texts by their bytes. -/
instance {τ : Type} [LinearOrder τ] : LinearOrder (Position τ) :=
  LinearOrder.lift' Position.key Position.key_injective

/-- A row of the `source_input` of a source. -/
structure SourceRow (τ : Type) where
  stamp : τ
  ordinal : Int
  sortId : String
  id : String
  target : String
  turn : String
  channel : Int
  bytes : Nat
  job : Option String
deriving DecidableEq, Repr

def SourceRow.position {τ : Type} (row : SourceRow τ) : Position τ :=
  ⟨row.stamp, row.ordinal, row.sortId⟩

def SourceRow.metadataBytes {τ : Type} (row : SourceRow τ) : Nat :=
  row.sortId.utf8ByteSize + row.id.utf8ByteSize + row.target.utf8ByteSize + row.turn.utf8ByteSize

structure Entry (τ : Type) where
  source : Source
  id : String
  target : String
  turn : String
  channel : Int
  bytes : Nat
  position : Position τ
deriving Repr

def Entry.read {τ : Type} (source : Source) (row : SourceRow τ) : Entry τ where
  source := source
  id := row.id
  target := row.target
  turn := row.turn
  channel := row.channel
  bytes := row.bytes
  position := row.position

/-! ## The rows of a source -/

section Query

variable {τ : Type} [LinearOrder τ] [Zero τ]

def Source.select (db : CompletionDb τ) (runtime : String) (generation : Int) :
    Source → List (SourceRow τ)
  | .observed => db.liveObserved.map fun r =>
    ⟨0, r.rowid, "", r.threadId, r.threadId, r.turnId, 0, r.payload.utf8ByteSize, none⟩
  | .queue =>
    ((db.liveQueue.filter (·.state != "quarantined")).map fun r =>
      ⟨0, 0, r.targetThreadId, r.targetThreadId, r.targetThreadId, "", 0, 0, none⟩).dedup
  | .asyncOrphan =>
    ((db.liveObligations.filter fun o =>
        o.executionState == "unresolved" &&
          !db.liveQueue.any (·.jobId == o.originJobId) &&
          !db.liveQueue.any fun q => q.targetThreadId == o.threadId && q.state != "pending").map
      fun o => ⟨0, 0, o.threadId, o.threadId, o.threadId, "", 0, 0, none⟩).dedup
  | .commentary => db.liveCommentary.map fun r =>
    ⟨0, r.sequence, "", toString r.sequence, r.targetThreadId, r.turnId, r.channelId,
      r.text.utf8ByteSize, some r.jobId⟩
  | .goal => db.liveGoals.map fun r =>
    ⟨0, r.rowid, "", r.thread, r.thread, r.turn, r.channel, r.content.utf8ByteSize, none⟩
  | .startFailure => db.liveStartNotices.map fun r =>
    ⟨r.createdAt, 0, r.jobId, r.jobId, r.targetThreadId, "", r.channelId,
      r.content.utf8ByteSize, none⟩
  | .question =>
    (db.liveQuestions.filter fun q =>
        q.state == "observed" && q.runtimeId == runtime && q.generation == generation).map
      fun q => ⟨q.createdAt, q.index, q.id, q.id, q.threadId, q.turnId, q.channelId,
        q.body.utf8ByteSize, none⟩
  | .final => db.liveOutbox.map fun r =>
    ⟨r.createdAt, 0, r.deliveryId, r.deliveryId, r.targetThreadId, r.turnId, r.channelId,
      r.content.utf8ByteSize, some r.jobId⟩

/-! ## Receipts that hold a row back -/

/-- What SQLite reads from a receipt's key: the first elements of its JSON array. -/
structure ReceiptParts where
  channel : Option Int
  domain : Option String
  logical : Option String
deriving DecidableEq, Repr

variable (parts : String → ReceiptParts)

def CompletionDb.unavailable (db : CompletionDb τ) : List ReceiptParts :=
  (db.receipts.filter fun r =>
    r.messageId.isNone && (!r.retryable || r.blockedReason.isSome)).map (parts ·.receiptKey)

/-- The text that the logical key of a turn's receipts begins with. -/
def turnLogical (target turn : String) : String :=
  toString target.utf8ByteSize ++ ":" ++ target ++ ";" ++
    toString turn.utf8ByteSize ++ ":" ++ turn ++ ";"

def heldCommentary (channel : Int) (target turn : String) (r : ReceiptParts) : Bool :=
  r.channel == some channel && r.domain == some "completion/commentary/v1" &&
    r.logical.any (startsWith · (turnLogical target turn))

def Source.heldReceiptMatch (db : CompletionDb τ) (h : SourceRow τ) (r : ReceiptParts) :
    Source → Bool
  | .observed | .queue | .asyncOrphan => false
  | .final => r.channel == some h.channel && r.domain == some "completion/v1" &&
      r.logical == some h.id
  | .startFailure => r.channel == some h.channel &&
      r.domain == some "reserve/start-failure/v1" && r.logical == some h.id
  | .goal => r.channel == some h.channel && r.domain == some "completion/goal-progress/v1" &&
      r.logical == some (turnLogical h.target h.turn)
  | .commentary => heldCommentary h.channel h.target h.turn r
  | .question => r.channel == some h.channel &&
      ((r.domain == some "async-question-v1" || r.domain == some "async-question-body-v1") &&
          r.logical == some h.id ||
        r.domain == some "async-question-item-text-v1" && db.questions.any fun q =>
          q.id == h.id && r.logical == some (jsonStrings [q.threadId, q.turnId, q.itemId]))

def Source.held (source : Source) (db : CompletionDb τ) (h : SourceRow τ) : Bool :=
  (db.unavailable parts).any (source.heldReceiptMatch db h)

/-! ## Lane heads -/

/-- The first reply to the request of a job is confirmed, or the job has none. -/
def CompletionDb.firstReplyReady (db : CompletionDb τ) (job : Option String) : Bool :=
  let replies := (db.journal.filter fun r =>
      r.ownerKind == some "prompt" && job.isSome && r.ownerId == job &&
        (r.kind == .message || r.kind == .interaction)).insertionSort
    fun a b => toLex (a.createdAt, a.ingressId) ≤ toLex (b.createdAt, b.ingressId)
  (replies.head?.map (·.confirmationDelivered)).getD true

def Source.eligible (source : Source) (db : CompletionDb τ) (h : SourceRow τ) : Bool :=
  match source with
  | .commentary => db.firstReplyReady h.job && !source.held parts db h
  | .final => (db.firstReplyReady h.job || db.finalRecoveries.contains h.id) &&
      !db.commentary.any fun p => some p.jobId == h.job &&
        (db.unavailable parts).any (heldCommentary p.channelId p.targetThreadId p.turnId)
  | _ => true

def Source.sameLane (source : Source) (a b : SourceRow τ) : Bool :=
  if source.isState then a.target == b.target else a.channel == b.channel

/-- The rows that come first in their lane, of rows in order. -/
def firstOfLane {α : Type} (same : α → α → Bool) (seen : List α) : List α → List α
  | [] => []
  | row :: rest =>
    if seen.any (same row) then firstOfLane same seen rest
    else row :: firstOfLane same (row :: seen) rest

def Source.heads (source : Source) (db : CompletionDb τ) (runtime : String) (generation : Int) :
    List (SourceRow τ) :=
  let ranked := ((source.select db runtime generation).filter (source.eligible parts db)).insertionSort
    fun a b => a.position ≤ b.position
  (firstOfLane source.sameLane [] ranked).filter (·.metadataBytes ≤ maxMetadataBytes)

def Source.candidates (source : Source) (db : CompletionDb τ) (runtime : String)
    (generation : Int) : List (SourceRow τ) :=
  (source.heads parts db runtime generation).filter fun h => !source.held parts db h

/-! ## Pages -/

abbrev Cursor (τ : Type) := Keyset.Cursor (Position τ)

structure Page (τ : Type) where
  entries : List (Entry τ)
  oversizedIdentity : Bool
  heldReceiptHeads : Nat
deriving Repr

def pageIn (db : CompletionDb τ) (source : Source) (cursor : Cursor τ) (runtime : String)
    (generation : Int) : Page τ × Cursor τ :=
  let candidates := source.candidates parts db runtime generation
  let input := source.select db runtime generation
  let upper := cursor.upper.or (candidates.map SourceRow.position).max?
  let oversizedIdentity := input.any (maxMetadataBytes < ·.metadataBytes)
  let receiptHeads :=
    if source == .commentary then input else source.heads parts db runtime generation
  let heldReceiptHeads :=
    ((receiptHeads.filter (source.held parts db)).map (·.channel)).dedup.length
  match upper with
  | none => (⟨[], oversizedIdentity, heldReceiptHeads⟩, { cursor with finished := true })
  | some upper =>
    let rows := ((candidates.filter fun row : SourceRow τ =>
        cursor.after.all (· < row.position) && row.position ≤ upper).insertionSort
      fun a b => a.position ≤ b.position).take pageSize
    let entries := rows.map (Entry.read source)
    (⟨entries, oversizedIdentity, heldReceiptHeads⟩,
      { after := (entries.getLast?.map Entry.position).or cursor.after
        upper := some upper
        finished := entries.length < pageSize })

end Query

/-! ## Rounds -/

structure PageRead (τ : Type) where
  cursor : Cursor τ
  page : Page τ

structure MetadataReadRound (τ : Type) where
  runtime : String
  generation : Int
  snapshot : Option (CompletionDb τ)
  failed : Option StoreError
  sources : List Source

def invalidRound : StoreError :=
  .integrity "metadata round has no valid read snapshot; no results may be published"

/-- `MetadataReadRound::page`.  Opening the snapshot and the checks that it is still active,
before and after the read, answer as they may. -/
def MetadataReadRound.page {τ : Type} [LinearOrder τ] [Zero τ] (parts : String → ReceiptParts)
    (round : MetadataReadRound τ) (opened : Except StoreError (CompletionDb τ))
    (before after : Except StoreError Unit) (source : Source) (cursor : Cursor τ) :
    Except StoreError (PageRead τ) × MetadataReadRound τ :=
  if round.failed.isSome then (.error invalidRound, round)
  else if 8 ≤ round.sources.length || round.sources.contains source then
    (.error (.integrity "metadata round permits each of its eight sources once"), round)
  else
    let round := { round with sources := round.sources ++ [source] }
    let snapshot : Except StoreError (CompletionDb τ) := match round.snapshot with
      | some db => .ok db
      | none => opened
    match snapshot with
    | .error error => (.error invalidRound, { round with failed := some error })
    | .ok db =>
      let round := { round with snapshot := some db }
      match before, after with
      | .error error, _ | _, .error error =>
        (.error invalidRound, { round with failed := some error })
      | .ok (), .ok () =>
        let read := pageIn parts db source cursor round.runtime round.generation
        (.ok ⟨read.2, read.1⟩, round)

/-! ## Rounds of metadata reads

A round reads at most one page of each source from one snapshot.  What it read may be used only
once the snapshot is finished.
-/

/-- What the database answers to a round, and the snapshot whenever it is checked. -/
structure RoundAnswers (τ : Type) where
  /-- `CheckedRead::open` -/
  opened : Except StoreError Unit
  /-- `ensure_active`, by how often it was asked before -/
  active : Nat → Except StoreError Unit
  /-- `page_in` -/
  read : Source → Cursor τ → Except StoreError (PageRead τ)
  /-- `async_resolution::unprovable_in`, of the targets of the entries -/
  unprovable : List String → Except StoreError (List Nat)
  /-- `CheckedRead::finish` -/
  finished : Except StoreError Unit

/-- The fields of `MetadataReadRound` that change -/
structure ReadRound where
  opened : Bool
  failed : Option StoreError
  sources : List Source
  preflightUsed : Bool
  /-- how often the snapshot was checked -/
  checks : Nat
deriving DecidableEq, Repr

namespace ReadRound

variable {τ : Type}

def start : ReadRound := ⟨false, none, [], false, 0⟩

/-- A check that fails, fails the round. -/
def ensureActive (answers : RoundAnswers τ) (round : ReadRound) :
    Except StoreError Unit × ReadRound :=
  let checked := { round with checks := round.checks + 1 }
  match answers.active round.checks with
  | .ok () => (.ok (), checked)
  | .error error => (.error invalidRound, { checked with failed := some error })

/-- A read between two checks of the snapshot -/
def checkedRead {α : Type} (answers : RoundAnswers τ) (result : Except StoreError α)
    (round : ReadRound) : Except StoreError α × ReadRound :=
  match round.ensureActive answers with
  | (.error error, round) => (.error error, round)
  | (.ok (), round) =>
    match round.ensureActive answers with
    | (.error error, round) => (.error error, round)
    | (.ok (), round) => (result, round)

def page (answers : RoundAnswers τ) (round : ReadRound) (source : Source) (cursor : Cursor τ) :
    Except StoreError (PageRead τ) × ReadRound :=
  if round.failed.isSome then (.error invalidRound, round)
  else if 8 ≤ round.sources.length || round.sources.contains source then
    (.error (.integrity "metadata round permits each of its eight sources once"), round)
  else
    let round := { round with sources := round.sources ++ [source] }
    match (if round.opened then .ok () else answers.opened) with
    | .error error => (.error invalidRound, { round with failed := some error })
    | .ok () => { round with opened := true }.checkedRead answers (answers.read source cursor)

def unprovableOrphans (answers : RoundAnswers τ) (round : ReadRound) (entries : List (Entry τ)) :
    Except StoreError (List Nat) × ReadRound :=
  if round.failed.isSome then (.error invalidRound, round)
  else if round.preflightUsed || !round.sources.contains .asyncOrphan ||
      pageSize < entries.length || entries.any (·.source != .asyncOrphan) then
    (.error (.integrity "orphan preflight requires one bounded current source page"), round)
  else
    let round := { round with preflightUsed := true }
    if !round.opened then (.error invalidRound, round)
    else round.checkedRead answers (answers.unprovable (entries.map Entry.target))

def finish (answers : RoundAnswers τ) (round : ReadRound) : Except StoreError Unit :=
  match round.failed with
  | some error => .error error
  | none => if round.opened then answers.finished else .ok ()

end ReadRound

/-- The value of the operation, once its snapshot is finished. -/
def readRound {τ α : Type} (answers : RoundAnswers τ) (operation : ReadRound → α × ReadRound) :
    Except StoreError α :=
  let (value, round) := operation .start
  (round.finish answers).map fun _ => value

end CodexRemote.Store

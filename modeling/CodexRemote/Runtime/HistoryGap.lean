import CodexRemote.Discord.MessageGaps
import CodexRemote.Runtime.HistoryPoll

/-! # Recovery of message gaps

A dropped message leaves a gap at its channel.  The runner reads the newest page of the
channel again, offers what is not older than the gap for claiming, oldest first, and
says whether the page went back far enough.
-/

namespace CodexRemote.Runtime

open Discord

namespace HistoryPoll

inductive HistoryClaimOutcome (α : Type) where
  | lost
  | won (admitted : α)

/-- The errors of the four calls of `HistoryPollCycleIo`. -/
structure HistoryErrors where
  source : Type
  adaptation : Type
  claim : Type
  process : Type

/-- `HistoryPollCycleIo`: each call reads and moves the state `σ` of everything outside. -/
structure HistoryIo (E : HistoryErrors) (π τ α σ : Type) where
  fetch : Nat → Nat → σ → Except E.source (List π) × σ
  adapt : π → σ → Except E.adaptation (HistoryBatchItem τ) × σ
  claim : τ → σ → Except E.claim (HistoryClaimOutcome α) × σ
  process : α → σ → Except E.process Unit × σ

inductive HistoryGapCoverage where
  | reached
  | incomplete
deriving DecidableEq, Repr

structure HistoryGapRecoveryOutcome where
  coverage : HistoryGapCoverage
  fetched : Nat
  noClaim : Nat
  claimAttempted : Nat
  claimWon : Nat
  processed : Nat
deriving DecidableEq, Repr

inductive HistoryGapRecoveryError (E : HistoryErrors) where
  | source (error : E.source)
  | adaptation (error : E.adaptation)
  | claim (error : E.claim)
  | process (error : E.process)
  | batchTooLarge (actual : Nat)

variable {E : HistoryErrors} {π τ α σ : Type}

/-- The loop that adapts the page. -/
def adaptAll (io : HistoryIo E π τ α σ) :
    List π → σ → Except (HistoryGapRecoveryError E) (List (HistoryBatchItem τ)) × σ
  | [], s => (.ok [], s)
  | payload :: payloads, s =>
    match io.adapt payload s with
    | (.error error, s) => (.error (.adaptation error), s)
    | (.ok item, s) =>
      match adaptAll io payloads s with
      | (.error error, s) => (.error error, s)
      | (.ok items, s) => (.ok (item :: items), s)

def gapCoverage (floor : HistoryWatermark) (items : List (HistoryBatchItem τ)) :
    HistoryGapCoverage :=
  let oldest := (items.filterMap (·.watermark)).min?
  if items.length < pageLimit ∨ oldest.any (· ≤ floor) then .reached else .incomplete

/-- What the loop does with an item: none counts as `no_claim`. -/
def claimable (floor : HistoryWatermark) (item : HistoryBatchItem τ) : Option τ :=
  match item.watermark, item.kind with
  | some position, .candidate value => if position < floor then none else some value
  | _, _ => none

/-- The loop over the items, oldest first. -/
def claimItems (io : HistoryIo E π τ α σ) (floor : HistoryWatermark) :
    List (HistoryBatchItem τ) → HistoryGapRecoveryOutcome → σ →
      Except (HistoryGapRecoveryError E) HistoryGapRecoveryOutcome × σ
  | [], outcome, s => (.ok outcome, s)
  | item :: items, outcome, s =>
    match claimable floor item with
    | none => claimItems io floor items { outcome with noClaim := outcome.noClaim + 1 } s
    | some value =>
      let outcome := { outcome with claimAttempted := outcome.claimAttempted + 1 }
      match io.claim value s with
      | (.error error, s) => (.error (.claim error), s)
      | (.ok .lost, s) => claimItems io floor items outcome s
      | (.ok (.won admitted), s) =>
        match io.process admitted s with
        | (.error error, s) => (.error (.process error), s)
        | (.ok (), s) =>
          claimItems io floor items
            { outcome with
              claimWon := outcome.claimWon + 1
              processed := outcome.processed + 1 } s

def runHistoryGapRecovery (io : HistoryIo E π τ α σ) (channelId : Nat)
    (floor : HistoryWatermark) (s : σ) : Except (HistoryGapRecoveryError E) HistoryGapRecoveryOutcome × σ :=
  match io.fetch channelId pageLimit s with
  | (.error error, s) => (.error (.source error), s)
  | (.ok payloads, s) =>
    if pageLimit < payloads.length then (.error (.batchTooLarge payloads.length), s)
    else
      match adaptAll io payloads s with
      | (.error error, s) => (.error error, s)
      | (.ok items, s) =>
        claimItems io floor items.reverse
          ⟨gapCoverage floor items, payloads.length, 0, 0, 0, 0⟩ s

/-! ## The adapter of Discord messages -/

/-- A message of the history; `β` is what only the claim reads. -/
structure HistoryMessage (β : Type) where
  timestampMicros : Int
  id : Nat
  authorIsBot : Bool
  content : β

/-- `HistoryWatermark::from_message` -/
def fromMessage (timestampMicros : Int) (messageId : Nat) : Option HistoryWatermark :=
  if messageId = 0 then none else some ⟨timestampMicros, messageId⟩

/-- `DiscordHistoryCycleIo::adapt`, which only captures the position. -/
def adaptMessage {β : Type} (message : HistoryMessage β) :
    HistoryBatchItem (HistoryMessage β) where
  watermark := fromMessage message.timestampMicros message.id
  kind := if message.authorIsBot then .ignore else .candidate message

end HistoryPoll

/-! ## The recovery loop -/

open HistoryPoll

/-- What the other tasks do to the tracker while this one waits. -/
inductive GapTask where
  | dropped (channelId : Nat) (position : MessageGapPosition) (reason : UnavailableReason)
  | panicked (state gate : Bool)

def GapTask.run (tracker : MessageGapTracker) : GapTask → MessageGapTracker
  | dropped channelId position reason => (tracker.record channelId position reason).2
  | panicked state gate => { tracker with
      poisoned := tracker.poisoned || state
      gatePoisoned := tracker.gatePoisoned || gate }

structure GapWorld (σ : Type) where
  tracker : MessageGapTracker
  rest : σ

def GapWorld.after {σ : Type} (world : GapWorld σ) (tasks : List GapTask) (rest : σ) :
    GapWorld σ :=
  ⟨tasks.foldl GapTask.run world.tracker, rest⟩

/-- The result of a call on the rest of the world, and what the other tasks did meanwhile. -/
structure GapReply (σ γ : Type) where
  answer : γ
  meanwhile : List GapTask
  rest : σ

def GapReply.landing {σ γ : Type} (reply : GapReply σ γ) (world : GapWorld σ) :
    γ × GapWorld σ :=
  (reply.answer, world.after reply.meanwhile reply.rest)

inductive AdmissionAnswer where
  | entered
  | sealed
  | failed

/-- The parts of the runtime that the loop calls. -/
structure GapCalls (E : HistoryErrors) (β α σ : Type) where
  tryEnter : σ → GapReply σ AdmissionAnswer
  policy : σ → GapReply σ Bool
  fetch : Nat → Nat → σ → GapReply σ (Except E.source (List (HistoryMessage β)))
  claim : HistoryMessage β → σ → GapReply σ (Except E.claim (HistoryClaimOutcome α))
  process : α → σ → GapReply σ (Except E.process Unit)

variable {E : HistoryErrors} {β α σ : Type}

def GapCalls.io (calls : GapCalls E β α σ) :
    HistoryIo E (HistoryMessage β) (HistoryMessage β) α (GapWorld σ) where
  fetch channelId limit world := (calls.fetch channelId limit world.rest).landing world
  adapt message world := (.ok (adaptMessage message), world)
  claim message world := (calls.claim message world.rest).landing world
  process admitted world := (calls.process admitted world.rest).landing world

inductive GapRecoveryError (E : HistoryErrors) where
  | gaps
  | admission
  | invalidMessageGap
  | acknowledge
  | process (error : E.process)
  | historyGapBatchTooLarge (actual : Nat)

/-- How the loop goes on after a notice. -/
inductive GapTurn (E : HistoryErrors) where
  | next
  | deferred
  | failed (error : GapRecoveryError E)

/-- One turn of the loop of `recover_pending`. -/
def recoverNotice (calls : GapCalls E β α σ) (notice : MessageGapNotice) (world : GapWorld σ) :
    GapTurn E × GapWorld σ :=
  match (calls.tryEnter world.rest).landing world with
  | (.sealed, world) => (.deferred, world)
  | (.failed, world) => (.failed .admission, world)
  | (.entered, world) =>
    match fromMessage notice.snapshot.earliest.timestampMicros
        notice.snapshot.earliest.messageId with
    | none => (.failed .invalidMessageGap, world)
    | some floor =>
      match (calls.policy world.rest).landing world with
      | (false, world) => (.next, world)
      | (true, world) =>
        match runHistoryGapRecovery calls.io notice.snapshot.channelId floor world with
        | (.ok outcome, world) =>
          if outcome.coverage = .reached then
            let (answer, tracker) := world.tracker.acknowledge notice
            match answer with
            | .ok _ => (.next, { world with tracker })
            | _ => (.failed .acknowledge, { world with tracker })
          else (.next, world)
        | (.error (.process error), world) => (.failed (.process error), world)
        | (.error (.batchTooLarge actual), world) =>
          (.failed (.historyGapBatchTooLarge actual), world)
        | (.error _, world) => (.next, world)

def recoverNotices (calls : GapCalls E β α σ) :
    List MessageGapNotice → GapWorld σ → Except (GapRecoveryError E) Unit × GapWorld σ
  | [], world => (.ok (), world)
  | notice :: notices, world =>
    match recoverNotice calls notice world with
    | (.next, world) => recoverNotices calls notices world
    | (.deferred, world) => (.ok (), world)
    | (.failed error, world) => (.error error, world)

def recoverPending (calls : GapCalls E β α σ) (world : GapWorld σ) :
    Except (GapRecoveryError E) Unit × GapWorld σ :=
  match world.tracker.snapshot with
  | .ok notices => recoverNotices calls notices world
  | _ => (.error .gaps, world)

end CodexRemote.Runtime

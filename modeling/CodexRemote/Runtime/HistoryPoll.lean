import Mathlib.Data.Prod.Lex
import CodexRemote.Foundations.Counters

/-! # History poll cursors

One state per channel and one revision counter for all of them, which `retain_channels`
does not reset.  Tokens are values of the channel state they were made from.
-/

namespace CodexRemote.Runtime

open Foundations

namespace HistoryPoll

def pageLimit : Nat := 10

@[ext] structure HistoryWatermark where
  normalizedUtcMicros : Int
  messageId : Nat
deriving DecidableEq, Repr

def HistoryWatermark.key (w : HistoryWatermark) : Int ×ₗ Nat :=
  toLex (w.normalizedUtcMicros, w.messageId)

theorem HistoryWatermark.key_injective : Function.Injective HistoryWatermark.key := by
  intro v w same
  have fields := toLex.injective same
  ext
  · exact congrArg Prod.fst fields
  · exact congrArg Prod.snd fields

instance : LinearOrder HistoryWatermark :=
  LinearOrder.lift' HistoryWatermark.key HistoryWatermark.key_injective

/-- `PollStartedAt::watermark` -/
def pollBoundary (startedAt : Int) : HistoryWatermark := ⟨startedAt, 0⟩

inductive HistoryPollPhase where
  | prime
  | reprime
  | incremental
deriving DecidableEq, Repr

/-- `ChannelState`, which `ExpectedChannelState` copies. -/
inductive ChannelState where
  | priming (phase : HistoryPollPhase) (boundary : HistoryWatermark) (revision : Nat)
  | active (watermark : Option HistoryWatermark) (revision : Nat)
deriving DecidableEq, Repr

def ChannelState.revision : ChannelState → Nat
  | priming _ _ revision => revision
  | active _ revision => revision

structure HistoryPollCycleToken where
  channelId : Nat
  expected : ChannelState
deriving DecidableEq, Repr

structure HistoryPollCommitToken where
  channelId : Nat
  expected : ChannelState
  nextWatermark : HistoryWatermark
deriving DecidableEq, Repr

inductive HistoryPollItem (τ : Type) where
  | ignore
  | candidate (value : τ)

structure HistoryBatchItem (τ : Type) where
  watermark : Option HistoryWatermark
  kind : HistoryPollItem τ

inductive HistoryItemDecision (τ : Type) where
  | noClaim
  | claimAndDiscard (value : τ)
  | claimAndProcess (value : τ)
deriving DecidableEq, Repr

structure HistoryPollProposal (τ : Type) where
  phase : HistoryPollPhase
  nextWatermark : HistoryWatermark
  itemsOldestFirst : List (HistoryItemDecision τ)
  commitToken : HistoryPollCommitToken

inductive HistoryPollError where
  | batchTooLarge (actual : Nat)
  | staleCycle (channelId : Nat)
  | channelMismatch (tokenChannelId requestedChannelId : Nat)
  | stale (channelId : Nat)
  | revisionExhausted (channelId : Nat)
  /-- the `unreachable!` of `proposal_parameters` -/
  | panicked
deriving DecidableEq, Repr

inductive ItemDecisionMode where
  | prime (boundary : HistoryWatermark)
  | reprime
  | incremental (previous : HistoryWatermark)
deriving DecidableEq, Repr

def proposalParameters (state : ChannelState) (latest : Option HistoryWatermark) :
    Option (HistoryPollPhase × HistoryWatermark × ItemDecisionMode) :=
  match state with
  | .priming phase boundary _ =>
    let next := latest.elim boundary (max · boundary)
    let mode := if phase = .prime then ItemDecisionMode.prime boundary else .reprime
    some (phase, next, mode)
  | .active (some previous) _ =>
    some (.incremental, latest.elim previous (max · previous), .incremental previous)
  | .active none _ => none

def candidateDecision {τ : Type} (value : τ) (watermark : Option HistoryWatermark)
    (mode : ItemDecisionMode) : HistoryItemDecision τ :=
  match watermark with
  | none => .noClaim
  | some current =>
    match mode with
    | .prime boundary =>
      if boundary < current then .claimAndProcess value else .claimAndDiscard value
    | .reprime => .claimAndDiscard value
    | .incremental boundary =>
      if boundary < current then .claimAndProcess value else .claimAndDiscard value

def decideItems {τ : Type} (newestFirst : List (HistoryBatchItem τ)) (mode : ItemDecisionMode) :
    List (HistoryItemDecision τ) :=
  newestFirst.reverse.map fun item =>
    match item.kind with
    | .ignore => .noClaim
    | .candidate value => candidateDecision value item.watermark mode

structure HistoryPollState where
  channels : Nat → Option ChannelState
  lastRevision : Nat

namespace HistoryPollState

def initial : HistoryPollState := ⟨fun _ => none, 0⟩

/-- Start priming a channel at a fresh revision. -/
def prime (s : HistoryPollState) (channelId : Nat) (phase : HistoryPollPhase) (startedAt : Int) :
    Except HistoryPollError HistoryPollCycleToken × HistoryPollState :=
  match checkedSucc u64Max s.lastRevision with
  | none => (.error (.revisionExhausted channelId), s)
  | some revision =>
    let state := ChannelState.priming phase (pollBoundary startedAt) revision
    (.ok ⟨channelId, state⟩,
      { channels := Function.update s.channels channelId (some state), lastRevision := revision })

def begin (s : HistoryPollState) (channelId : Nat) (startedAt : Int) :
    Except HistoryPollError HistoryPollCycleToken × HistoryPollState :=
  match s.channels channelId with
  | none => s.prime channelId .prime startedAt
  | some (.active none _) => s.prime channelId .reprime startedAt
  | some state => (.ok ⟨channelId, state⟩, s)

def propose {τ : Type} (s : HistoryPollState) (cycle : HistoryPollCycleToken)
    (newestFirst : List (HistoryBatchItem τ)) : Except HistoryPollError (HistoryPollProposal τ) :=
  if pageLimit < newestFirst.length then .error (.batchTooLarge newestFirst.length)
  else if s.channels cycle.channelId ≠ some cycle.expected then
    .error (.staleCycle cycle.channelId)
  else
    let latest := (newestFirst.filterMap (·.watermark)).max?
    match proposalParameters cycle.expected latest with
    | none => .error .panicked
    | some (phase, nextWatermark, mode) =>
      .ok ⟨phase, nextWatermark, decideItems newestFirst mode,
        ⟨cycle.channelId, cycle.expected, nextWatermark⟩⟩

def commit (s : HistoryPollState) (channelId : Nat) (token : HistoryPollCommitToken) :
    Except HistoryPollError Unit × HistoryPollState :=
  if channelId ≠ token.channelId then
    (.error (.channelMismatch token.channelId channelId), s)
  else if s.channels channelId ≠ some token.expected then (.error (.stale channelId), s)
  else
    match checkedSucc u64Max s.lastRevision with
    | none => (.error (.revisionExhausted channelId), s)
    | some revision =>
      (.ok (), {
        channels := Function.update s.channels channelId
          (some (.active (some token.nextWatermark) revision))
        lastRevision := revision })

def retainChannels (s : HistoryPollState) (keeps : Nat → Bool) : HistoryPollState :=
  { s with channels := fun channelId => if keeps channelId then s.channels channelId else none }

def watermark (s : HistoryPollState) (channelId : Nat) : Option HistoryWatermark :=
  match s.channels channelId with
  | some (.active watermark _) => watermark
  | _ => none

end HistoryPollState

end HistoryPoll

end CodexRemote.Runtime

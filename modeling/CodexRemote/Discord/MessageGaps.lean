import Mathlib.Data.List.Sort
import Mathlib.Data.Prod.Lex
import CodexRemote.Foundations.Counters
import CodexRemote.Foundations.Tables

/-! # The message-gap tracker

A channel whose message was dropped has an active gap until somebody acknowledges a
notice of it.  Fences prove that a channel stayed clear.  Both are tied to a revision
of the channel, which saturates.
-/

namespace CodexRemote.Discord

open Foundations

@[ext] structure MessageGapPosition where
  timestampMicros : Int
  messageId : Nat
deriving DecidableEq, Repr

/-- The derived order compares the fields in turn. -/
def MessageGapPosition.key (p : MessageGapPosition) : Int ×ₗ Nat :=
  toLex (p.timestampMicros, p.messageId)

theorem MessageGapPosition.key_injective : Function.Injective MessageGapPosition.key := by
  intro p q same
  have fields := toLex.injective same
  ext
  · exact congrArg Prod.fst fields
  · exact congrArg Prod.snd fields

instance : LinearOrder MessageGapPosition :=
  LinearOrder.lift' MessageGapPosition.key MessageGapPosition.key_injective

inductive UnavailableReason where
  | full
  | closed
  | stopping
  | sequenceExhausted
deriving DecidableEq, Repr

/-- The bits of `MessageGapReasons`. -/
abbrev MessageGapReasons := BitVec 8

def UnavailableReason.bit : UnavailableReason → MessageGapReasons
  | .full => 1
  | .closed => 2
  | .stopping => 4
  | .sequenceExhausted => 8

structure ActiveGap where
  earliest : MessageGapPosition
  reasons : MessageGapReasons
  observationCount : Nat
deriving DecidableEq, Repr

structure GapEntry where
  channelId : Nat
  revision : Nat
  active : Option ActiveGap
deriving DecidableEq, Repr

structure MessageGapSnapshot where
  channelId : Nat
  earliest : MessageGapPosition
  reasons : MessageGapReasons
  observationCount : Nat
  revision : Nat
deriving DecidableEq, Repr

structure MessageGapNotice where
  snapshot : MessageGapSnapshot
  trackerIdentity : Nat
deriving DecidableEq, Repr

structure MessageGapFence where
  channelId : Nat
  revision : Nat
  trackerIdentity : Nat
deriving DecidableEq, Repr

/-- `poisoned` and `gatePoisoned` are the states of the two mutexes after a panic of
a holder. -/
structure MessageGapTracker where
  entries : Table GapEntry.channelId
  poisoned : Bool
  gatePoisoned : Bool
  identity : Nat

/-- What a call can come to; `panicked` is the `expect` on the publication gate. -/
inductive GapAnswer (α : Type) where
  | ok (value : α)
  | foreignTracker
  | revisionExhausted
  | advanced (channelId : Nat)
  | statePoisoned
  | panicked
deriving DecidableEq, Repr

inductive MessageGapAckOutcome where
  | cleared
  | stale
deriving DecidableEq, Repr

/-- A synchronous action run under a fence. -/
inductive FencedAction (α : Type) where
  | returns (value : α)
  | panics

namespace MessageGapTracker

def new (identity : Nat) : MessageGapTracker := ⟨Table.empty, false, false, identity⟩

def noticeOf (tracker : MessageGapTracker) (entry : GapEntry) : Option MessageGapNotice :=
  entry.active.map fun active =>
    ⟨⟨entry.channelId, active.earliest, active.reasons, active.observationCount, entry.revision⟩,
      tracker.identity⟩

/-- The entries in the order of their `BTreeMap`. -/
def byChannel (tracker : MessageGapTracker) : List GapEntry :=
  tracker.entries.rows.insertionSort fun a b => a.channelId ≤ b.channelId

def snapshot (tracker : MessageGapTracker) : GapAnswer (List MessageGapNotice) :=
  if tracker.poisoned then .statePoisoned
  else .ok (tracker.byChannel.filterMap tracker.noticeOf)

def acknowledge (tracker : MessageGapTracker) (notice : MessageGapNotice) :
    GapAnswer MessageGapAckOutcome × MessageGapTracker :=
  if tracker.identity != notice.trackerIdentity then (.foreignTracker, tracker)
  else if notice.snapshot.revision == u64Max then (.revisionExhausted, tracker)
  else if tracker.poisoned then (.statePoisoned, tracker)
  else
    match tracker.entries.find notice.snapshot.channelId with
    | none => (.ok .stale, tracker)
    | some entry =>
      if entry.revision != notice.snapshot.revision || entry.active.isNone then
        (.ok .stale, tracker)
      else
        (.ok .cleared, { tracker with
          entries := tracker.entries.update (fun e => e.channelId == notice.snapshot.channelId)
            (fun e => { e with active := none }) (fun _ => rfl) })

def captureClearFence (tracker : MessageGapTracker) (channelId : Nat) :
    GapAnswer (Option MessageGapFence) :=
  if tracker.poisoned then .statePoisoned
  else
    let entry := tracker.entries.find channelId
    if entry.any (fun e => e.active.isSome) then .ok none
    else .ok (some ⟨channelId, entry.elim 0 (·.revision), tracker.identity⟩)

def withCurrentFence {α : Type} (tracker : MessageGapTracker) (fence : MessageGapFence)
    (action : FencedAction α) : GapAnswer (FencedAction α) × MessageGapTracker :=
  if tracker.gatePoisoned then (.panicked, tracker)
  else if tracker.identity != fence.trackerIdentity then (.foreignTracker, tracker)
  else if tracker.poisoned then (.statePoisoned, tracker)
  else
    let entry := tracker.entries.find fence.channelId
    let isClear := entry.all (fun e => e.active.isNone)
    if entry.elim 0 (·.revision) != fence.revision || !isClear then
      (.advanced fence.channelId, tracker)
    else
      match action with
      | .returns value => (.ok (.returns value), tracker)
      -- the unwinding action drops the guards of both mutexes
      | .panics => (.ok .panics, { tracker with poisoned := true, gatePoisoned := true })

def observe (position : MessageGapPosition) (reason : UnavailableReason) (entry : GapEntry) :
    GapEntry :=
  { entry with
    revision := saturatingSucc u64Max entry.revision
    active := some <|
      match entry.active with
      | some active =>
        { earliest := min active.earliest position
          reasons := active.reasons ||| reason.bit
          observationCount := saturatingSucc u64Max active.observationCount }
      | none => ⟨position, reason.bit, 1⟩ }

theorem observe_channelId (position : MessageGapPosition) (reason : UnavailableReason)
    (entry : GapEntry) : (observe position reason entry).channelId = entry.channelId := rfl

/-- `begin_publication` followed by `MessageGapPublication::record`. -/
def record (tracker : MessageGapTracker) (channelId : Nat) (position : MessageGapPosition)
    (reason : UnavailableReason) : GapAnswer Unit × MessageGapTracker :=
  if tracker.gatePoisoned then (.panicked, tracker)
  else if tracker.poisoned then (.statePoisoned, tracker)
  else
    (.ok (), { tracker with
      entries := (tracker.entries.insertOrIgnore ⟨channelId, 0, none⟩).update
        (fun e => e.channelId == channelId) (observe position reason)
        (observe_channelId position reason) })

end MessageGapTracker

end CodexRemote.Discord

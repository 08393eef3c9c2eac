import CodexRemote.AppServer.ObservationWindow

/-! # The source driver

The driver forwards what the app server observed, window by window, and marks a gap wherever it
cannot say that it has seen everything.
-/

namespace CodexRemote.Runtime

open Foundations AppServer
open Store (Json)

namespace SourceDriver

inductive Effect where
  /-- the intent for this much of the source was saved, or not -/
  | discovered (upper : Nat) (saved : Bool)
  | idleGapMarked
  | sourceGapMarked (generation : Nat)
  | turnStopped (generation : Nat) (thread turn : String)
  | forwarded (generation : Nat) (notification : Notification)
deriving DecidableEq

/-- What the parts around the driver answer; the certification of a sequence holds its join. -/
structure DriverAnswers where
  discover : Nat → Bool
  certify : Nat → Notification → Bool
  parseTurnCompletion : Json → Option (String × String)
  extractThreadId : Json → Option String
  charge : Nat → Notification → Bool
  trySend : Nat → Notification → Bool
  /-- the generation of the server when this event is sent -/
  serverGeneration : Nat → Nat

variable (answers : DriverAnswers)

/-- `send`, for the event of this sequence -/
def send (sequence generation : Nat) (notification : Notification) : List Effect :=
  if (answers.extractThreadId notification.params).isNone then []
  else if !answers.charge sequence notification then
    [.sourceGapMarked (answers.serverGeneration sequence)]
  else if !answers.trySend sequence notification then
    [.sourceGapMarked (answers.serverGeneration sequence)]
  else [.forwarded generation notification]

def processEvent (generation : Nat) (original : SourceObservation) : List Effect :=
  match original.notification with
  | none => [.sourceGapMarked generation]
  | some notification =>
    let stopped :=
      if notification.method = "turn/completed" then
        match answers.parseTurnCompletion notification.params with
        | some (thread, turn) => [Effect.turnStopped generation thread turn]
        | none => []
      else []
    let certified :=
      if answers.certify original.sequence notification then [] else
        [Effect.sourceGapMarked generation]
    stopped ++ certified ++ send answers original.sequence generation notification

/-- The driver expects the first event right after what it has scanned. -/
def missing (page : ObservationWindow) : Bool :=
  ((page.events.head?.map (·.sequence)).getD (saturatingSucc u64Max page.scannedThrough)) <
    page.firstAvailable

/-- `i64::try_from` fails above its range. -/
def processPage (page : ObservationWindow) : List Effect :=
  let saved := page.sourceUpper ≤ i64Max && answers.discover page.sourceUpper
  [.discovered page.sourceUpper saved] ++ (if saved then [] else [.idleGapMarked]) ++
    (if missing page then [.sourceGapMarked page.generation] else []) ++
    page.events.flatMap (processEvent answers page.generation)

end SourceDriver

end CodexRemote.Runtime

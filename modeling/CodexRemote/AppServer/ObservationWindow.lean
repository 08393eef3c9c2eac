import CodexRemote.Foundations.Counters
import CodexRemote.Store.Json

/-! # Observation windows

The app server keeps its last notifications under their sequence numbers, and an observer
reads them a page at a time.
-/

namespace CodexRemote.AppServer

open Foundations
open Store (Json)

/-- `MAX_NOTIFICATIONS` -/
def maxNotifications : Nat := 1000

def observationPageSize : Nat := 32

def observationPageBytes : Nat := 2 * 1024 * 1024

structure Notification where
  method : String
  params : Json
deriving DecidableEq

/-! ## The notifications that are kept -/

/-- What the runtime state keeps of the notifications. -/
structure NotificationLog where
  notifications : List Notification
  revision : Nat
  exhausted : Bool

def NotificationLog.start : NotificationLog := ⟨[], 0, false⟩

def NotificationLog.recordNotification (log : NotificationLog) (notification : Notification) :
    NotificationLog :=
  let kept := log.notifications ++ [notification]
  let kept := if maxNotifications < kept.length then kept.tail else kept
  match checkedSucc u64Max log.revision with
  | some next => { log with revision := next, notifications := kept }
  | none => { log with exhausted := true, notifications := kept }

/-- The log after a history of notifications -/
def recorded (history : List Notification) : NotificationLog :=
  history.foldl NotificationLog.recordNotification .start

/-! ## The byte budget of a page -/

/-- How `serde_json` writes a value: the length of each write, in order -/
structure JsonWriter where
  writes : Json → List Nat
  nonempty : ∀ value, 0 < (writes value).sum

structure Budget where
  used : Nat
  limit : Nat

def Budget.write (budget : Budget) (bytes : Nat) : Option Budget :=
  if budget.limit < budget.used + bytes then none
  else some { budget with used := budget.used + bytes }

/-- An empty write is not made. -/
def Budget.writeAll (budget : Budget) (bytes : Nat) : Option Budget :=
  if bytes = 0 then some budget else budget.write bytes

/-- `serde_json::to_writer` -/
def JsonWriter.toWriter (json : JsonWriter) (budget : Budget) (value : Json) : Option Budget :=
  (json.writes value).foldlM Budget.writeAll budget

/-! ## Pages -/

/-- No notification stands for one that was not copied. -/
structure SourceObservation where
  sequence : Nat
  notification : Option Notification

structure ObservationWindow where
  ownerId : String
  generation : Nat
  firstAvailable : Nat
  sourceUpper : Nat
  upper : Nat
  scannedThrough : Nat
  events : List SourceObservation

/-- The loop over the kept notifications, the first of which has this sequence -/
def scanNotifications (json : JsonWriter) (start upper : Nat) :
    Nat → List Notification → Nat → ObservationWindow → ObservationWindow
  | _, [], _, page => page
  | sequence, notification :: rest, used, page =>
    if sequence < start then scanNotifications json start upper (sequence + 1) rest used page
    else if upper < sequence || observationPageSize ≤ page.events.length then page
    else
      let budget := json.toWriter ⟨used + notification.method.utf8ByteSize, observationPageBytes⟩
        notification.params
      scanNotifications json start upper (sequence + 1) rest ((budget.map (·.used)).getD used)
        { page with
          events := page.events ++ [⟨sequence, budget.map fun _ => notification⟩]
          scannedThrough := sequence }

/-- No upper end stands for the last notification; an error is the message of what is held. -/
def observationWindow (json : JsonWriter) (log : NotificationLog) (after : Nat)
    (upper : Option Nat) : Except String ObservationWindow :=
  if log.exhausted then .error "source sequence exhausted"
  else
    let upper := upper.getD log.revision
    if log.revision < upper || upper < after then .error "invalid observation window"
    else
      let first := log.revision - log.notifications.length + 1
      let start := max (saturatingSucc u64Max after) first
      .ok (scanNotifications json start upper first log.notifications 0
        { ownerId := "", generation := 0, firstAvailable := first, sourceUpper := log.revision,
          upper, scannedThrough := min upper (start - 1), events := [] })

end CodexRemote.AppServer

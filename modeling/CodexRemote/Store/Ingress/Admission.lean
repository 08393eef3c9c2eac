import CodexRemote.Store.Ingress.Ownership

/-! # Admission of requests

A request is journalled once, under its id and its event.  A duplicate returns the row as it is.
-/

namespace CodexRemote.Store

open Foundations

structure NewIngress where
  ingressId : String
  kind : IngressKind
  eventId : Option Int
  channelId : Int
  ownerUserId : Int
  sourceMessageId : Option Int
  payload : Json
  targetThreadId : Option String
  now : Timestamp
  applicationId : Option Int := none

structure IngressAdmission where
  created : Bool
  /-- none for an old claim of a message that only kept its id -/
  record : Option IngressRow

/-- What other modules prepare, check and write inside an admission. -/
structure AdmissionHooks (ρ : Type) where
  queue : QueueHooks ρ
  /-- the message is in `discord_processed_messages` -/
  processed : QueueDb ρ → Option Int → Bool
  /-- `capture_origins_in` and `new_prompt_arm::prepare_in`: the request to insert, and the row
  whose arm it consumes -/
  prepare : QueueDb ρ → NewIngress → Except StoreError (NewIngress × Option String)
  /-- the triggers after the insert, which hold the new row under a phase and a reason -/
  fence : QueueDb ρ → IngressRow → Option (String × String)
  /-- `admission_order::record_new_in` and, for a message, `discord_processed_messages` -/
  recordNew : QueueDb ρ → IngressRow → Except StoreError ρ
  /-- `RecordedAdmission::verify_in` -/
  verify : QueueDb ρ → IngressRow → Except StoreError Unit

def NewIngress.row (request : NewIngress) (runtime : Option String) : IngressRow where
  ingressId := request.ingressId
  kind := request.kind
  eventId := request.eventId
  channelId := request.channelId
  ownerUserId := request.ownerUserId
  payload := request.payload
  state := .staged
  phase := "staged"
  targetThreadId := request.targetThreadId
  ownerKind := none
  ownerId := none
  outcome := none
  createdAt := request.now.getD 0
  updatedAt := request.now.getD 0
  sourceMessageId := request.sourceMessageId
  applicationId := request.applicationId
  runtimeId := runtime

namespace Ingress

variable {ρ : Type}

def validate (request : NewIngress) : Except StoreError Unit :=
  if Discord.trim request.ingressId.toList = [] ||
      Discord.trim request.ingressId.toList ≠ request.ingressId.toList ||
      request.channelId ≤ 0 || request.ownerUserId ≤ 0 || request.now.all (· < 0) ||
      request.eventId.any (· ≤ 0) || (request.kind ≠ .action && request.eventId.isNone) ||
      !request.payload.isObject then .error (.integrity "invalid ingress custody identity")
  else .ok ()

/-- The row with this id, or the one of this event -/
def existing (db : QueueDb ρ) (request : NewIngress) : Except StoreError (Option IngressRow) := do
  let origin ← (match request.eventId with
    | none => .ok none
    | some event => byOrigin db event)
  .ok ((db.ingress.find request.ingressId).or origin)

def sameOwner (row : IngressRow) (request : NewIngress) : Bool :=
  row.channelId = request.channelId && row.ownerUserId = request.ownerUserId &&
    row.kind = request.kind && row.eventId = request.eventId

/-- Work of this target or in this room, when the target is known -/
def covers (row : IngressRow) (d : Disposition) : Bool :=
  match row.targetThreadId with
  | some target => d.covers target row.channelId
  | none => d.phase != .abortedSourceChanged && row.channelId == d.channelId

/-- `INSERT INTO discord_ingress_journal`, with its keys and the triggers after it -/
def insertRow (hooks : AdmissionHooks ρ) (db : QueueDb ρ) (row : IngressRow) :
    Except StoreError (IngressRow × QueueDb ρ) :=
  if db.archive.recordRetired .ingressJournal row.ingressId then
    -- the insert is ignored, and the admission does not find its row
    .error (.database "Query returned no rows")
  else if row.eventId.isSome && db.ingress.contains fun r => r.kind = row.kind &&
      r.eventId = row.eventId then
    .error (.database "UNIQUE constraint failed: discord_ingress_event")
  else
    let saved := match hooks.fence db row with
      | none => row
      | some (phase, reason) => { row with state := .held, phase := phase, holdReason := reason }
    match db.ingress.insert saved with
    | none => .error (.database "UNIQUE constraint failed: discord_ingress_journal.ingress_id")
    | some ingress =>
      .ok (saved, { db with
        ingress := ingress
        archive := db.archive.capture .ingressJournal row.ingressId (covers row) })

/-- The arm of an earlier request is consumed by this one. -/
def consumeArm (hooks : AdmissionHooks ρ) (request : NewIngress) (db : QueueDb ρ) (key : String) :
    Except StoreError (QueueDb ρ) := do
  let (_, db) ← updateIngress hooks.queue db (·.ingressId == key)
    (fun row => { row with
      payload := row.payload.set "new_prompt_arm" (((row.payload.get "new_prompt_arm").getD .null).set
        "consumed_by" (.text request.ingressId))
      updatedAt := request.now.getD 0 }) (fun _ => rfl)
  .ok db

def retiredReason : String :=
  "archived mirror cleanup; original request preserved without execution"

/-- A request of an archived room is kept without execution. -/
def retireBlocked (hooks : AdmissionHooks ρ) (db : QueueDb ρ) (row : IngressRow) :
    Except StoreError (QueueDb ρ) :=
  if db.archive.blocked (some row.channelId) row.targetThreadId then do
    let (_, db) ← updateIngress hooks.queue db (·.ingressId == row.ingressId)
      (fun r => { r with
        state := .held
        phase := "cleanup_retired"
        holdReason := retiredReason }) (fun _ => rfl)
    .ok db
  else .ok db

/-- `admit_recorded_in` -/
def admitIn (hooks : AdmissionHooks ρ) (request : NewIngress) (db : QueueDb ρ) :
    Except StoreError (IngressAdmission × QueueDb ρ) := do
  validate request
  match ← existing db request with
  | some found =>
    if !sameOwner found request then
      .error (.integrity "ingress identity conflicts with its original owner")
    else .ok (⟨false, some found⟩, db)
  | none =>
    if request.kind = .message && hooks.processed db request.eventId then .ok (⟨false, none⟩, db)
    else
      let (prepared, arm) ← hooks.prepare db request
      let db ← (match arm with
        | none => .ok db
        | some key => consumeArm hooks prepared db key)
      let (row, db) ← insertRow hooks db (prepared.row db.runtime)
      let rest ← hooks.recordNew db row
      let db ← retireBlocked hooks { db with rest := rest } row
      hooks.verify db row
      .ok (⟨true, db.ingress.find row.ingressId⟩, db)

def admitRequest (hooks : AdmissionHooks ρ) (request : NewIngress) (db : QueueDb ρ) :
    Except StoreError IngressAdmission × QueueDb ρ :=
  commit (admitIn hooks request) db

end Ingress

end CodexRemote.Store

import CodexRemote.Discord.Text
import CodexRemote.Store.DeliveryReceipt
import CodexRemote.Store.Json

/-! # The outbox of final deliveries -/

namespace CodexRemote.Store

open Foundations

structure StoredDelivery where
  deliveryId : String
  jobId : String
  targetThreadId : String
  turnId : String
  channelId : Int
  content : String
  attemptCount : Int
  lastError : String
  createdAt : Rat
  updatedAt : Rat
deriving DecidableEq

inductive FinalReadiness where
  | ready
  | held (reason : String)
  | firstReply (request : String)
  | commentary
  | goalProgress
deriving DecidableEq, Repr

/-- The outbox beside the receipts; `rest` is every other table. -/
structure OutboxTables (ρ : Type) where
  outbox : Table StoredDelivery.deliveryId
  rest : ρ

abbrev DeliveryDb (ρ : Type) := ReceiptDb (OutboxTables ρ)

/-- Checks and writes of other modules.  None of them touches the outbox or the receipts. -/
structure DeliveryHooks (ρ : Type) where
  sha256 : String → String
  keyChannel : String → Option Int
  workRetired : DeliveryDb ρ → String → Except StoreError Bool
  validateFinalRecovery : DeliveryDb ρ → String → String → Except StoreError Unit
  validateNewReply : DeliveryDb ρ → String → String → Except StoreError (Option String)
  insertFence : DeliveryDb ρ → String → Option StoreError
  confirmReceipt : DeliveryDb ρ → String → Except StoreError ρ
  noticeClaimed : DeliveryDb ρ → String → Except StoreError ρ
  noticeRejected : DeliveryDb ρ → String → Except StoreError ρ
  verifyCatalog : DeliveryDb ρ → Except StoreError Unit
  authorized : DeliveryDb ρ → StoredDelivery → Except StoreError Bool
  outputHold : DeliveryDb ρ → String → Except StoreError (Option String)
  firstReplyPending : DeliveryDb ρ → String → Except StoreError (Option String)
  commentaryPending : DeliveryDb ρ → String → Except StoreError Bool
  goalProgressPending : DeliveryDb ρ → String → String → Except StoreError Bool

variable {ρ : Type}

def DeliveryHooks.receipts (hooks : DeliveryHooks ρ) : ReceiptHooks (OutboxTables ρ) where
  keyChannel := hooks.keyChannel
  workRetired := hooks.workRetired
  validateFinalRecovery := hooks.validateFinalRecovery
  validateNewReply := hooks.validateNewReply
  insertFence := hooks.insertFence
  confirmReceipt db key := (hooks.confirmReceipt db key).map fun rest => { db.rest with rest := rest }
  noticeClaimed db key := (hooks.noticeClaimed db key).map fun rest => { db.rest with rest := rest }
  noticeRejected db key := (hooks.noticeRejected db key).map fun rest => { db.rest with rest := rest }

/-! ## Receipt keys -/

/-- `serde_json::to_string(&(channel, domain, logical_key, index))` -/
def receiptKey (channel : String) (domain logicalKey : String) (index : Nat) : String :=
  "[" ++ channel ++ "," ++ jsonString domain ++ "," ++ jsonString logicalKey ++ "," ++
    toString index ++ "]"

def completionDomain : String := "completion/v1"

/-- The key the sending path builds, from the unsigned channel of the request. -/
def sentChunkKey (channel : Nat) (domain logicalKey : String) (index : Nat) : String :=
  receiptKey (toString channel) domain logicalKey index

/-- The key `complete_confirmed` builds, from the signed channel of the row. -/
def confirmedChunkKey (pending : StoredDelivery) (index : Nat) : String :=
  receiptKey (toString pending.channelId) "completion/v1" pending.deliveryId index

/-! ## Operations -/

/-- The condition of the live view: neither covered by a disposition nor recorded. -/
def liveDelivery (archive : Archive) (row : StoredDelivery) : Bool :=
  !archive.recordRetired .deliveryOutbox row.deliveryId &&
    !archive.dispositions.any fun d =>
      (d.phase != .mappingRetired && d.phase != .abortedSourceChanged &&
          row.targetThreadId == d.targetThreadId) ||
        (d.phase != .abortedSourceChanged && row.channelId == d.channelId)

def listPending (db : DeliveryDb ρ) : List StoredDelivery :=
  (db.rest.outbox.select (liveDelivery db.archive)).mergeSort fun a b =>
    a.createdAt < b.createdAt || (a.createdAt == b.createdAt && a.deliveryId ≤ b.deliveryId)

/-- `DELETE FROM codex_delivery_outbox WHERE delivery_id=?`; an archived row is preserved. -/
def deleteDelivery (db : DeliveryDb ρ) (deliveryId : String) : Bool × DeliveryDb ρ :=
  let selected := fun r : StoredDelivery =>
    r.deliveryId == deliveryId && !db.archive.recordRetired .deliveryOutbox deliveryId
  (db.rest.outbox.count selected == 1,
    { db with rest := { db.rest with outbox := db.rest.outbox.delete selected } })

def complete (deliveryId : String) (db : DeliveryDb ρ) : Except StoreError Bool × DeliveryDb ρ :=
  commit (fun db => .ok (deleteDelivery db deliveryId)) db

def recordFailureIn (deliveryId error : String) (now : Rat) (db : DeliveryDb ρ) :
    Except StoreError (StoredDelivery × DeliveryDb ρ) :=
  let bounded := String.ofList ((Discord.trim error.toList).take 1000)
  let selected := fun r : StoredDelivery =>
    r.deliveryId == deliveryId && !db.archive.frozen .deliveryOutbox deliveryId
  let outbox := db.rest.outbox.update selected
    (fun r => { r with attemptCount := r.attemptCount + 1, lastError := bounded, updatedAt := now })
    (fun _ => rfl)
  if db.rest.outbox.count selected ≠ 1 then .error (.deliveryNotFound deliveryId)
  else
    match outbox.find deliveryId with
    | none => .error (.deliveryNotFound deliveryId)
    | some delivery => .ok (delivery, { db with rest := { db.rest with outbox := outbox } })

def recordFailure (deliveryId error : String) (now : Rat) (db : DeliveryDb ρ) :
    Except StoreError StoredDelivery × DeliveryDb ρ :=
  commit (recordFailureIn deliveryId error now) db

/-- `preflight::read` -/
def readReadiness (hooks : DeliveryHooks ρ) (db : DeliveryDb ρ) (pending : StoredDelivery) :
    Except StoreError FinalReadiness := do
  let explicitGrant ← hooks.authorized db pending
  match ← hooks.outputHold db pending.jobId with
  | some reason => .ok (.held reason)
  | none =>
    let request ← (if explicitGrant then .ok none else hooks.firstReplyPending db pending.jobId)
    match request with
    | some request => .ok (.firstReply request)
    | none =>
      let commentary ←
        (if explicitGrant then .ok false else hooks.commentaryPending db pending.jobId)
      if commentary then .ok .commentary
      else
        let goal ← hooks.goalProgressPending db pending.jobId pending.targetThreadId
        .ok (if goal then .goalProgress else .ready)

/-- The loop of `complete_confirmed`: every chunk must answer Delivered. -/
def claimConfirmed (hooks : DeliveryHooks ρ) (pending : StoredDelivery) :
    Nat → List String → DeliveryDb ρ → Except StoreError (Bool × DeliveryDb ρ)
  | _, [], db => .ok (true, db)
  | index, chunk :: chunks, db => do
      let (state, db) ← beginGuardedIn hooks.receipts (confirmedChunkKey pending index)
        (hooks.sha256 chunk) db
      match state with
      | .delivered _ => claimConfirmed hooks pending (index + 1) chunks db
      | _ => .ok (false, db)

def completeConfirmedIn (hooks : DeliveryHooks ρ) (pending : StoredDelivery) (chunks : List String)
    (db : DeliveryDb ρ) : Except StoreError (Bool × DeliveryDb ρ) := do
  hooks.verifyCatalog db
  match db.rest.outbox.find pending.deliveryId with
  | none => .ok (false, db)
  | some stored =>
    if stored ≠ pending then .ok (false, db)
    else
      let readiness ← readReadiness hooks db pending
      if readiness ≠ .ready then .ok (false, db)
      else
        let (confirmed, db) ← claimConfirmed hooks pending 0 chunks db
        if confirmed then .ok (deleteDelivery db pending.deliveryId) else .ok (false, db)

/-- Only `Ok(true)` commits; every other answer drops the transaction. -/
def completeConfirmed (hooks : DeliveryHooks ρ) (pending : StoredDelivery) (chunks : List String)
    (db : DeliveryDb ρ) : Except StoreError Bool × DeliveryDb ρ :=
  if chunks.isEmpty || pending.channelId ≤ 0 then (.ok false, db)
  else commitWhen id (completeConfirmedIn hooks pending chunks) db

end CodexRemote.Store

import CodexRemote.Foundations.Tables
import CodexRemote.Foundations.Transactions
import CodexRemote.Store.ArchivedCleanup

/-! # Send intents and Discord message receipts

The operations of the `codex_delivery_receipts` table.  What other modules of the
store check and write inside the same transactions is a parameter, because any
answer of theirs either rolls the transaction back or leaves the receipts alone.
-/

namespace CodexRemote.Store

open Foundations

structure ReceiptRow where
  receiptKey : String
  contentHash : String
  messageId : Option String
  retryable : Bool
  blockedReason : Option String
deriving DecidableEq, Repr

/-- `cdr_archived_room_receipt_confirmations` -/
structure Confirmation where
  receiptKey : String
  operationId : String
  contentHash : String
  messageId : String
deriving DecidableEq, Repr

inductive ReceiptState where
  | new
  | delivered (messageId : String)
  | unknown
  | contentConflict
  | rejectedBlocked (reason : String)
  | held (reason : String)
deriving DecidableEq, Repr

def ReceiptState.isHeld : ReceiptState → Bool
  | .held _ => true
  | _ => false

/-- The database as the receipt operations see it; `rest` is every other table. -/
structure ReceiptDb (ρ : Type) where
  archive : Archive
  receipts : Table ReceiptRow.receiptKey
  confirmations : Table Confirmation.receiptKey
  rest : ρ

/-- Checks and writes on other tables that a receipt operation makes. -/
structure ReceiptHooks (ρ : Type) where
  /-- first element of the key's JSON array, as an integer -/
  keyChannel : String → Option Int
  workRetired : ReceiptDb ρ → String → Except StoreError Bool
  validateFinalRecovery : ReceiptDb ρ → String → String → Except StoreError Unit
  validateNewReply : ReceiptDb ρ → String → String → Except StoreError (Option String)
  /-- the room cleanup and archive deletion fences on inserts -/
  insertFence : ReceiptDb ρ → String → Option StoreError
  confirmReceipt : ReceiptDb ρ → String → Except StoreError ρ
  noticeClaimed : ReceiptDb ρ → String → Except StoreError ρ
  noticeRejected : ReceiptDb ρ → String → Except StoreError ρ

variable {ρ : Type}

/-- `INSERT OR IGNORE` of a claim, with the insert triggers of the table. -/
def insertReceipt (hooks : ReceiptHooks ρ) (db : ReceiptDb ρ) (key contentHash : String) :
    Except StoreError (Bool × ReceiptDb ρ) :=
  match hooks.insertFence db key with
  | some e => .error e
  | none =>
    -- `cdr_retired_no_replace` ignores the insert; otherwise a taken key does
    if db.archive.recordRetired .deliveryReceipts key || (db.receipts.find key).isSome then
      .ok (false, db)
    else
      .ok (true, { db with
        receipts := db.receipts.insertOrIgnore ⟨key, contentHash, none, false, none⟩
        archive := db.archive.capture .deliveryReceipts key fun d =>
          d.phase != .abortedSourceChanged && hooks.keyChannel key == some d.channelId })

/-- Updates of one receipt; a frozen row ignores them. -/
def updateReceipt (db : ReceiptDb ρ) (key : String) (condition : ReceiptRow → Bool)
    (assign : ReceiptRow → ReceiptRow) (keeps : ∀ r, (assign r).receiptKey = r.receiptKey) :
    Bool × ReceiptDb ρ :=
  let selected := fun r : ReceiptRow =>
    r.receiptKey == key && condition r && !db.archive.frozen .deliveryReceipts key
  (db.receipts.count selected == 1, { db with receipts := db.receipts.update selected assign keeps })

/-- `claimed_retry`: a released receipt with the same content is taken again. -/
def claimRetry (db : ReceiptDb ρ) (key contentHash : String) (row : ReceiptRow) :
    Bool × ReceiptDb ρ :=
  if row.contentHash == contentHash && row.messageId.isNone && row.blockedReason.isNone &&
      row.retryable then
    updateReceipt db key (fun r => r.retryable) (fun r => { r with retryable := false })
      (fun _ => rfl)
  else (false, db)

def followClaim (hooks : ReceiptHooks ρ) (db : ReceiptDb ρ) (key : String) (confirmed : Bool) :
    Except StoreError (ReceiptDb ρ) := do
  let rest ← (if confirmed then hooks.confirmReceipt db key else .ok db.rest)
  let rest ← hooks.noticeClaimed { db with rest := rest } key
  .ok { db with rest := rest }

def claimAnswer (row : ReceiptRow) (contentHash : String) (claimed : Bool) : ReceiptState :=
  if row.contentHash != contentHash then .contentConflict
  else if claimed then .new
  else
    match row.messageId, row.blockedReason with
    | some message, _ => .delivered message
    | none, some reason => .rejectedBlocked reason
    | none, none => .unknown

/-- The part of `begin_guarded_in` after its checks. -/
def claimReceipt (hooks : ReceiptHooks ρ) (db : ReceiptDb ρ) (key contentHash : String) :
    Except StoreError (ReceiptState × ReceiptDb ρ) := do
  let (inserted, db) ← insertReceipt hooks db key contentHash
  match db.receipts.find key with
  | none => .error (.database "Query returned no rows")
  | some row =>
    let (claimedRetry, db) := claimRetry db key contentHash row
    let db ← followClaim hooks db key (row.messageId.isSome && row.contentHash == contentHash)
    .ok (claimAnswer row contentHash (inserted || claimedRetry), db)

def beginGuardedIn (hooks : ReceiptHooks ρ) (key contentHash : String) (db : ReceiptDb ρ) :
    Except StoreError (ReceiptState × ReceiptDb ρ) :=
  let channel := (hooks.keyChannel key).filter (0 < ·)
  let invalidScoped := channel.isNone && !db.archive.dispositions.isEmpty
  if invalidScoped || db.archive.blocked channel none ||
      db.archive.recordRetired .deliveryReceipts key then
    .ok (.held "invalid receipt identity or archived mirror retired; no automatic replay", db)
  else do
    if ← hooks.workRetired db key then
      .ok (.held "original delivery work retired; no automatic replay", db)
    else
      hooks.validateFinalRecovery db key contentHash
      match ← hooks.validateNewReply db key contentHash with
      | some reason => .ok (.held reason, db)
      | none => claimReceipt hooks db key contentHash

def beginGuarded (hooks : ReceiptHooks ρ) (key contentHash : String) (db : ReceiptDb ρ) :
    Except StoreError ReceiptState × ReceiptDb ρ :=
  commitWhen (fun state => !state.isHeld) (beginGuardedIn hooks key contentHash) db

/-- `archived_cleanup::receipt::confirm_retired` -/
def confirmRetired (db : ReceiptDb ρ) (key messageId : String) : Option (Bool × ReceiptDb ρ) :=
  if !db.archive.recordRetired .deliveryReceipts key then none
  else if messageId.isEmpty then some (false, db)
  else
    let matching := fun r : ReceiptRow => r.messageId.isNone || r.messageId == some messageId
    let evidence := db.archive.records.find? fun e =>
      e.tableName == .deliveryReceipts && e.rowKey == key
    let confirmations :=
      match db.receipts.find key, evidence with
      | some r, some e =>
        if matching r then
          db.confirmations.insertOrIgnore ⟨key, e.operationId, r.contentHash, messageId⟩
        else db.confirmations
      | _, _ => db.confirmations
    let confirmed := db.receipts.contains fun r =>
      r.receiptKey == key && matching r && confirmations.contains fun c =>
        c.receiptKey == key && c.contentHash == r.contentHash && c.messageId == messageId
    some (confirmed, { db with confirmations := confirmations })

def confirmIn (hooks : ReceiptHooks ρ) (key messageId : String) (db : ReceiptDb ρ) :
    Except StoreError (Bool × ReceiptDb ρ) :=
  match confirmRetired db key messageId with
  | some answer => .ok answer
  | none => do
      let (changed, db) := updateReceipt db key
        (fun r => r.messageId.isNone || r.messageId == some messageId)
        (fun r => { r with messageId := some messageId }) (fun _ => rfl)
      if changed then
        let rest ← hooks.confirmReceipt db key
        .ok (true, { db with rest := rest })
      else .ok (false, db)

def confirm (hooks : ReceiptHooks ρ) (key messageId : String) (db : ReceiptDb ρ) :
    Except StoreError Bool × ReceiptDb ρ :=
  commit (confirmIn hooks key messageId) db

def releaseRejectedIn (hooks : ReceiptHooks ρ) (key : String) (db : ReceiptDb ρ) :
    Except StoreError (Bool × ReceiptDb ρ) := do
  let (changed, db) := updateReceipt db key
    (fun r => r.messageId.isNone && r.blockedReason.isNone)
    (fun r => { r with retryable := true }) (fun _ => rfl)
  if changed then
    let rest ← hooks.noticeRejected db key
    .ok (true, { db with rest := rest })
  else .ok (false, db)

def releaseRejected (hooks : ReceiptHooks ρ) (key : String) (db : ReceiptDb ρ) :
    Except StoreError Bool × ReceiptDb ρ :=
  commit (releaseRejectedIn hooks key) db

def blockRejected (key reason : String) (db : ReceiptDb ρ) : Except StoreError Bool × ReceiptDb ρ :=
  let reason := String.ofList (reason.toList.take 1000)
  commit (fun db => .ok (updateReceipt db key (fun r => r.messageId.isNone)
    (fun r => { r with blockedReason := some reason, retryable := false }) (fun _ => rfl))) db

/-- `gateway::confirmed_message`: the receipt's message, else the archived evidence. -/
def confirmedMessage (db : ReceiptDb ρ) (key contentHash : String) : Option String :=
  ((db.receipts.find key).filter fun r => r.contentHash == contentHash).bind fun r =>
    r.messageId <|> ((db.confirmations.find key).filter
      fun c => c.contentHash == r.contentHash).map (·.messageId)

end CodexRemote.Store

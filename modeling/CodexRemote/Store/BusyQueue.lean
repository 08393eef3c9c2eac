import CodexRemote.Store.PromptIntake

/-! # Busy choices

A prompt that found its thread at work waits as a choice.  Taking the choice up claims it,
saves the prompt as an intake and records the confirmation, all in one transaction.
-/

namespace CodexRemote.Store

open Foundations

structure BusyChoice where
  choiceId : String
  ownerUserId : Int
  channelId : Int
  targetThreadId : Option String
  prompt : String
  allowSteer : Bool
  createdAt : Rat
  expiresAt : Rat
deriving DecidableEq

/-- `busy_choices`; a row older than the column has no route mode. -/
structure BusyChoiceRow where
  choice : BusyChoice
  claimedAt : Option Rat
  requireCurrentMirror : Option Bool
deriving DecidableEq

def BusyChoiceRow.choiceId (row : BusyChoiceRow) : String := row.choice.choiceId

/-- `persistent_component_claims` -/
structure ComponentClaim where
  claimKey : String
  createdAt : Rat
  expiresAt : Rat
deriving DecidableEq

/-- `discord_ingress_owner_receipts` -/
structure OwnerReceipt where
  ownerKey : String
  ownerKind : String
  ownerId : String
  targetThreadId : String
  channelId : Int
  ownerUserId : Int
  payload : String
  createdAt : Rat
deriving DecidableEq

structure BusyTables (ρ : Type) where
  choices : Table BusyChoiceRow.choiceId
  claims : Table ComponentClaim.claimKey
  receipts : Table OwnerReceipt.ownerKey
  others : ρ

abbrev BusyDb (ρ : Type) := QueueDb (BusyTables ρ)

/-- The triggers on the three tables, and what the journal and `serde_json` know of a choice. -/
structure BusyHooks (ρ : Type) where
  queue : QueueHooks (BusyTables ρ)
  choiceJson : BusyChoice → String
  /-- a fence that aborts an update of a choice, and one that ignores it -/
  fenceChoice : BusyDb ρ → BusyChoiceRow → BusyChoiceRow → Option StoreError
  choiceFrozen : BusyDb ρ → String → Bool
  fenceReceipt : BusyDb ρ → OwnerReceipt → Option StoreError
  receiptIgnored : BusyDb ρ → String → Bool
  /-- the column `canonical_owner` of a row of the journal -/
  canonicalOwner : ρ → String → Option String

variable {ρ : Type}

structure BusyCall where
  choice : BusyChoice
  targetThreadId : String
  requireCurrentMirror : Bool
  confirmationKey : String
  now : Timestamp

structure BusyQueueAdmission where
  jobId : String
  intake : Option PromptIntake
deriving DecidableEq

def BusyCall.jobId (call : BusyCall) : String := "busy-choice:" ++ call.choice.choiceId

/-! ## Rows -/

def BusyChoiceRow.claim (row : BusyChoiceRow) (now : Rat) : BusyChoiceRow :=
  { row with claimedAt := some now }

/-- The row records a rejection before any control was sent. -/
def IngressRow.preflightRejected (row : IngressRow) : Bool :=
  (row.state == .completed || (row.state == .held && row.phase == "result_recorded")) &&
    row.ownerId.isNone &&
    (row.outcome.bind (·.get "kind")) == some (.text "busy_control_preflight_rejected") &&
    (row.outcome.bind (·.get "control_dispatched")) == some (.bool false)

def IngressRow.ownBusy (row : IngressRow) (jobId target : String) (now : Rat) : IngressRow :=
  { row with
    state := .owned
    phase := "durable_prompt"
    ownerKind := some "prompt"
    ownerId := some jobId
    targetThreadId := some target
    updatedAt := now }

def BusyCall.intake (call : BusyCall) (now : Rat) : NewPromptIntake where
  jobId := call.jobId
  targetThreadId := call.targetThreadId
  channelId := call.choice.channelId
  ownerUserId := some call.choice.ownerUserId
  discordMessageId := none
  rawPrompt := call.choice.prompt
  autoQueueWhenBusy := true
  requireCurrentMirror := call.requireCurrentMirror
  createdAt := now

/-- The claim that an accepted call leaves under its confirmation key. -/
def BusyCall.confirmation (call : BusyCall) (now : Rat) : ComponentClaim :=
  ⟨call.confirmationKey, now, max call.choice.expiresAt (now + 1800)⟩

namespace BusyQueue

/-! ## The route of a choice -/

/-- `claims::verify_route` -/
def verifyRoute (db : BusyDb ρ) (channel : Int) (target : Option String) (mapped : Bool) :
    Except StoreError Unit := do
  let current ← mirroredThreadId db (some channel)
  if (mapped && (target.isNone || current != target)) || (!mapped && current.isSome) then
    .error (.integrity "original busy prompt route changed; no request accepted")
  else .ok ()

def verifyChoiceRoute (db : BusyDb ρ) (choice : BusyChoice) (requireCurrentMirror : Bool) :
    Except StoreError Unit :=
  match (db.rest.choices.find choice.choiceId).bind (·.requireCurrentMirror) with
  | none => .error (.busyChoiceUnavailable choice.choiceId)
  | some mapped => do
      verifyRoute db choice.channelId choice.targetThreadId mapped
      if requireCurrentMirror != mapped then
        .error (.integrity "busy prompt route mode changed; no request accepted")
      else .ok ()

/-! ## Owners of a choice -/

/-- `INSERT INTO discord_ingress_owner_receipts … ON CONFLICT(owner_key) DO NOTHING` -/
def insertReceipt (hooks : BusyHooks ρ) (db : BusyDb ρ) (receipt : OwnerReceipt) :
    Except StoreError (BusyDb ρ) :=
  match hooks.fenceReceipt db receipt with
  | some error => .error error
  | none =>
    if hooks.receiptIgnored db receipt.ownerKey then .ok db
    else .ok { db with
      rest := { db.rest with receipts := db.rest.receipts.insertOrIgnore receipt } }

/-- The rows of the journal that stand for this choice. -/
def busyOwned (hooks : BusyHooks ρ) (db : BusyDb ρ) (choice : BusyChoice) (row : IngressRow) :
    Bool :=
  hooks.canonicalOwner db.rest.others row.ingressId == some ("busy-choice:" ++ choice.choiceId) &&
    row.channelId == choice.channelId && row.ownerUserId == choice.ownerUserId &&
    !row.preflightRejected

def recordBusyOwner (hooks : BusyHooks ρ) (choice : BusyChoice) (jobId target : String) (now : Rat)
    (db : BusyDb ρ) : Except StoreError (BusyDb ρ) := do
  let db ← insertReceipt hooks db
    ⟨"busy-choice:" ++ choice.choiceId, "prompt", jobId, target, choice.channelId,
      choice.ownerUserId, hooks.choiceJson choice, now⟩
  let (_, db) ← updateIngress hooks.queue db (busyOwned hooks db choice)
    (fun row => row.ownBusy jobId target now) (fun _ => rfl)
  .ok db

/-! ## Admission -/

/-- `UPDATE busy_choices SET claimed_at`, with the number of rows changed. -/
def claimChoice (hooks : BusyHooks ρ) (choice : BusyChoice) (now : Rat) (db : BusyDb ρ) :
    Except StoreError (Nat × BusyDb ρ) :=
  let selected := fun row : BusyChoiceRow =>
    row.choice == choice && row.claimedAt.isNone && decide (now < row.choice.expiresAt) &&
      !hooks.choiceFrozen db choice.choiceId
  match (db.rest.choices.select selected).findSome? fun r => hooks.fenceChoice db r (r.claim now) with
  | some error => .error error
  | none => .ok (db.rest.choices.count selected, { db with
      rest := { db.rest with
        choices := db.rest.choices.update selected (fun row => row.claim now) (fun _ => rfl) } })

def confirmed (db : BusyDb ρ) (key : String) (now : Rat) : Bool :=
  (db.rest.claims.find key).any fun claim => decide (now < claim.expiresAt)

def confirm (db : BusyDb ρ) (claim : ComponentClaim) : BusyDb ρ :=
  { db with rest := { db.rest with claims := db.rest.claims.put claim } }

/-- The transaction after the choice was found to be open. -/
def takeUpIn (hooks : BusyHooks ρ) (call : BusyCall) (now : Rat) (db : BusyDb ρ) :
    Except StoreError (BusyQueueAdmission × BusyDb ρ) := do
  verifyChoiceRoute db call.choice call.requireCurrentMirror
  let (claimed, db) ← claimChoice hooks call.choice now db
  if claimed ≠ 1 then .error (.busyChoiceUnavailable call.choice.choiceId)
  else
    let (admitted, db) ← admitIn hooks.queue (call.intake now) db
    if admitted.intake.targetThreadId ≠ call.targetThreadId then
      .error (.integrity "busy prompt target changed during admission; no request accepted")
    else if !admitted.created then
      .error (.integrity ("busy queue " ++ call.jobId ++
        " already has an intake without an acceptance receipt"))
    else
      let db ← recordBusyOwner hooks call.choice call.jobId call.targetThreadId now
        (confirm db (call.confirmation now))
      .ok (⟨call.jobId, some admitted.intake⟩, db)

def admitBusyQueueIn (hooks : BusyHooks ρ) (call : BusyCall) (now : Rat) (db : BusyDb ρ) :
    Except StoreError (BusyQueueAdmission × BusyDb ρ) :=
  if call.choice.targetThreadId ≠ some call.targetThreadId then
    .error (.busyChoiceUnavailable call.choice.choiceId)
  else if confirmed db call.confirmationKey now then do
    let db ← recordBusyOwner hooks call.choice call.jobId call.targetThreadId now db
    .ok (⟨call.jobId, none⟩, db)
  else takeUpIn hooks call now db

def admitBusyQueue (hooks : BusyHooks ρ) (call : BusyCall) (db : BusyDb ρ) :
    Except StoreError BusyQueueAdmission × BusyDb ρ :=
  match call.now with
  | none => (.error (.integrity "invalid busy queue admission"), db)
  | some now =>
    if now < 0 ∨ call.confirmationKey = "" then
      (.error (.integrity "invalid busy queue admission"), db)
    else commit (admitBusyQueueIn hooks call now) db

end BusyQueue

end CodexRemote.Store

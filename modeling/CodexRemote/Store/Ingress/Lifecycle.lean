import CodexRemote.Store.Ingress.NewInput

/-! # The life of an admitted request

Each step is one update of the request's row under its key, from the states that it expects.
-/

namespace CodexRemote.Store

open Foundations

namespace Ingress

variable {ρ : Type}

def acknowledgeIn (hooks : QueueHooks ρ) (key : String) (now : Rat) (db : QueueDb ρ) :
    Except StoreError (Bool × QueueDb ρ) := do
  let (changed, db) ← updateIngress hooks db (fun r => r.ingressId == key && r.state == .staged)
    (fun r => { r with
      state := .acknowledged
      phase := "acknowledged"
      updatedAt := now }) (fun _ => rfl)
  .ok (changed = 1, db)

def acknowledge (hooks : QueueHooks ρ) (key : String) (now : Rat) (db : QueueDb ρ) :
    Except StoreError Bool × QueueDb ρ := commit (acknowledgeIn hooks key now) db

def beginConfirmationIn (hooks : QueueHooks ρ) (key : String) (now : Rat) (db : QueueDb ρ) :
    Except StoreError (Bool × QueueDb ρ) := do
  let (changed, db) ← updateIngress hooks db
    (fun r => r.ingressId == key && r.state == .owned && r.phase == "canonical_duplicate" &&
      r.ownerKind == some "prompt")
    (fun r => { r with
      phase := "confirmation_retry"
      updatedAt := now }) (fun _ => rfl)
  .ok (changed = 1, db)

def beginConfirmation (hooks : QueueHooks ρ) (key : String) (now : Rat) (db : QueueDb ρ) :
    Except StoreError Bool × QueueDb ρ := commit (beginConfirmationIn hooks key now) db

/-! ## Execution -/

/-- The room of the request was archived. -/
def cleanedUp (db : QueueDb ρ) (row : IngressRow) : Bool :=
  db.archive.blocked (some row.channelId) row.targetThreadId ||
    db.archive.recordRetired .ingressJournal row.ingressId

/-- A slash prompt runs where it was bound, while its room is mapped there. -/
def checkFrozenTarget (db : QueueDb ρ) (target : Option String) (row : IngressRow) :
    Except StoreError Unit :=
  match row.frozenSlashTarget with
  | none => .ok ()
  | some original =>
    let changed := .integrity "original slash prompt mapping changed; no execution was claimed"
    if target.any (· != original) then .error changed
    else do
      let mirrored ← mirroredThreadId db (some row.channelId)
      if mirrored ≠ some original then .error changed else .ok ()

def executeRow (hooks : QueueHooks ρ) (key phase : String) (target : Option String) (now : Rat)
    (db : QueueDb ρ) : Except StoreError (Bool × QueueDb ρ) := do
  let (changed, db) ← updateIngress hooks db
    (fun r => r.ingressId == key && (r.state == .staged || r.state == .acknowledged))
    (fun r => { r with
      state := .executing
      phase := phase
      targetThreadId := target.or r.targetThreadId
      updatedAt := now }) (fun _ => rfl)
  .ok (changed = 1, db)

def beginExecutionIn (hooks : QueueHooks ρ) (key phase : String) (target : Option String)
    (now : Rat) (db : QueueDb ρ) : Except StoreError (Bool × QueueDb ρ) :=
  match db.ingress.find key with
  | none => executeRow hooks key phase target now db
  | some record =>
    if cleanedUp db record then .ok (false, db)
    else do
      checkFrozenTarget db target record
      executeRow hooks key phase target now db

def beginExecution (hooks : QueueHooks ρ) (key phase : String) (target : Option String) (now : Rat)
    (db : QueueDb ρ) : Except StoreError Bool × QueueDb ρ :=
  commit (beginExecutionIn hooks key phase target now) db

/-! ## New threads -/

def startThread (hooks : QueueHooks ρ) (key : String) (generation : Int) (now : Rat)
    (db : QueueDb ρ) : Except StoreError (Bool × QueueDb ρ) := do
  let (changed, db) ← updateIngress hooks db
    (fun r => r.ingressId == key && (r.state == .staged || r.state == .acknowledged ||
      (r.state == .executing && r.phase == "processing")))
    (fun r => { r with
      state := .executing
      phase := "thread/start"
      targetThreadId := none
      outcome := outcomeSet r "thread_start_generation" (.integer generation)
      updatedAt := now }) (fun _ => rfl)
  .ok (changed = 1, db)

def beginThreadStartIn (hooks : QueueHooks ρ) (digests : IngressDigests) (key : String)
    (generation : Int) (now : Rat) (db : QueueDb ρ) : Except StoreError (Bool × QueueDb ρ) :=
  if generation ≤ 0 then .error (.integrity "invalid thread/start generation")
  else
    match db.ingress.find key with
    | none => startThread hooks key generation now db
    | some record =>
      if cleanedUp db record then .ok (false, db)
      else do
        let prompt ← newExecutionPrompt digests record
        if prompt.isNone then .error (.integrity "thread/start has no original New input")
        else startThread hooks key generation now db

def beginThreadStart (hooks : QueueHooks ρ) (digests : IngressDigests) (key : String)
    (generation : Int) (now : Rat) (db : QueueDb ρ) : Except StoreError Bool × QueueDb ρ :=
  commit (beginThreadStartIn hooks digests key generation now) db

def recordCreatedThreadIn (hooks : QueueHooks ρ) (key : String) (generation : Int)
    (target : String) (now : Rat) (db : QueueDb ρ) : Except StoreError (Unit × QueueDb ρ) :=
  if MutationAttempts.blank target || Discord.trim target.toList ≠ target.toList then
    .error (.invalidAppServerManagedTarget target)
  else do
    let (changed, db) ← updateIngress hooks db
      (fun r => r.ingressId == key && r.state == .executing && r.phase == "thread/start" &&
        startedUnder generation r)
      (fun r => { r with
        phase := "thread/created"
        targetThreadId := some target
        updatedAt := now }) (fun _ => rfl)
    if changed ≠ 1 then
      .error (.integrity "created thread has no matching generation-bound attempt")
    else .ok ((), db)

def recordCreatedThread (hooks : QueueHooks ρ) (key : String) (generation : Int) (target : String)
    (now : Rat) (db : QueueDb ρ) : Except StoreError Unit × QueueDb ρ :=
  commit (recordCreatedThreadIn hooks key generation target now) db

/-! ## Results -/

/-- The cancellation of a request that is recorded as cancelled -/
def cancelledOwner (db : QueueDb ρ) (row : IngressRow) : Bool :=
  row.phase == "cancelled" && db.cancellations.contains fun c =>
    row.ownerId == some c.jobId && row.targetThreadId == some c.targetThreadId &&
      c.ownerUserId == row.ownerUserId

/-- The evidence of an accepted stop: the outcome itself until there is a result, and then the
field of the result that keeps it. -/
def stopReceipt (row : IngressRow) : Except StoreError (Option Json) :=
  if row.phase == "stop_accepted" then
    match row.outcome.filter Json.isObject with
    | none => .error (.integrity "stop acceptance evidence is missing")
    | some saved => .ok (some saved)
  else .ok (row.outcome.bind (·.get "stop_receipt"))

/-- One saved field of a result; only an object can keep it. -/
def keepField (lost : StoreError) (outcome : Json) (field : String) (saved : Option Json) :
    Except StoreError Json :=
  match saved with
  | none => .ok outcome
  | some saved => if !outcome.isObject then .error lost else .ok (outcome.set field saved)

def evidenceFields : List String := ["new_creation", "new_verification", "new_input"]

def keepEvidence (row : IngressRow) (outcome : Json) : Except StoreError Json := do
  let receipt ← stopReceipt row
  let outcome ← keepField (.integrity "result must preserve stop acceptance evidence") outcome
    "stop_receipt" receipt
  evidenceFields.foldlM (fun outcome field =>
    keepField (.integrity "new result must preserve creation evidence") outcome field
      (row.outcome.bind (·.get field))) outcome

def recordResultIn (hooks : QueueHooks ρ) (key : String) (outcome : Json) (now : Rat)
    (db : QueueDb ρ) : Except StoreError (Unit × QueueDb ρ) :=
  match db.ingress.find key with
  | none => .error (.integrity ("missing ingress result: " ++ key))
  | some record =>
    if cancelledOwner db record then .error (.requestCancelled key)
    else do
      let outcome ← keepEvidence record outcome
      let (changed, db) ← updateIngress hooks db
        (fun r => r.ingressId == key && r.state != .held)
        (fun r => { r with
          state := if r.ownerId.isNone then .completed else .owned
          phase := "result_recorded"
          outcome := some outcome
          updatedAt := now }) (fun _ => rfl)
      if changed ≠ 1 then .error (.integrity ("ingress result cannot be recorded: " ++ key))
      else .ok ((), db)

def recordResult (hooks : QueueHooks ρ) (key : String) (outcome : Json) (now : Rat)
    (db : QueueDb ρ) : Except StoreError Unit × QueueDb ρ :=
  commit (recordResultIn hooks key outcome now) db

/-- `reply` is the answer of `new_reply::get_by_ingress`: whether the first reply was confirmed, and
the kind of its request. -/
def confirmIn (hooks : QueueHooks ρ)
    (reply : QueueDb ρ → String → Except StoreError (Option (Bool × IngressKind))) (key : String)
    (now : Rat) (db : QueueDb ρ) : Except StoreError (Unit × QueueDb ρ) := do
  let record ← reply db key
  if record.any fun (delivered, kind) => !delivered && kind != .action then
    .error (.integrity
      "new first reply cannot be confirmed without its normal acknowledgement receipt")
  else
    let (changed, db) ← updateIngress hooks db
      (fun r => r.ingressId == key && (r.state == .completed || r.state == .owned))
      (fun r => { r with
        confirmationDelivered := true
        updatedAt := now }) (fun _ => rfl)
    if changed ≠ 1 then .error (.integrity ("ingress confirmation has no outcome: " ++ key))
    else .ok ((), db)

def confirm (hooks : QueueHooks ρ)
    (reply : QueueDb ρ → String → Except StoreError (Option (Bool × IngressKind))) (key : String)
    (now : Rat) (db : QueueDb ρ) : Except StoreError Unit × QueueDb ρ :=
  commit (confirmIn hooks reply key now) db

/-- Routing and processing facts are frozen before any effect. -/
def recordProcessingModeIn (hooks : QueueHooks ρ) (key mode : String) (db : QueueDb ρ) :
    Except StoreError (Unit × QueueDb ρ) :=
  match db.ingress.find key with
  | none => .error (.integrity "missing admitted message custody")
  | some record =>
    if record.state ≠ .staged then
      .error (.integrity "message processing mode already frozen")
    else do
      let (_, db) ← updateIngress hooks db (·.ingressId == key)
        (fun r => { r with payload := record.payload.set "processing_mode" (.text mode) })
        (fun _ => rfl)
      .ok ((), db)

def recordProcessingMode (hooks : QueueHooks ρ) (key mode : String) (db : QueueDb ρ) :
    Except StoreError Unit × QueueDb ρ := commit (recordProcessingModeIn hooks key mode) db

end Ingress

end CodexRemote.Store

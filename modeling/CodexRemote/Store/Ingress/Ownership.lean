import CodexRemote.Store.Queue.Jobs

/-! # Owners of ingress requests -/

namespace CodexRemote.Store

open Foundations

variable {ρ : Type}

/-! ## Mirrored rooms -/

/-- `mirrored_thread_id_in`: the only thread of the room, or the only one of the project. -/
def mirroredThreadId (db : QueueDb ρ) (channelId : Option Int) : Except StoreError (Option String) :=
  match channelId.filter (· != 0) with
  | none => .ok none
  | some channelId =>
    let exact := db.archive.mirrorThreads.filter (·.discordThreadId == channelId)
    if 1 < exact.length then
      .error (.integrity ("Discord room " ++ toString channelId ++
        " is mapped to multiple Codex threads; routing refused"))
    else
      match exact with
      | thread :: _ => .ok (some thread.codexThreadId)
      | [] =>
        match db.archive.mirrorThreads.filter (·.discordChannelId == channelId) with
        | [thread] => .ok (some thread.codexThreadId)
        | _ => .ok none

/-! ## Reads and updates of the journal -/

/-- A frozen row ignores an update, except the one that retires it. -/
def ingressFrozen (db : QueueDb ρ) (new : IngressRow) : Bool :=
  db.archive.frozen .ingressJournal new.ingressId &&
    !(new.state == .held && new.phase == "cleanup_retired")

/-- `UPDATE discord_ingress_journal`, with the number of rows changed. -/
def updateIngress (hooks : QueueHooks ρ) (db : QueueDb ρ) (condition : IngressRow → Bool)
    (assign : IngressRow → IngressRow) (keeps : ∀ r, (assign r).ingressId = r.ingressId) :
    Except StoreError (Nat × QueueDb ρ) :=
  let selected := fun r : IngressRow => condition r && !ingressFrozen db (assign r)
  match (db.ingress.select selected).findSome? fun r => hooks.fenceIngress db r (assign r) with
  | some error => .error error
  | none => .ok (db.ingress.count selected, { db with ingress := db.ingress.update selected assign keeps })

/-- `ingress::stop::refused` -/
def stopRefused : StoreError :=
  .integrity "stop custody differs or could not be preserved; no stop acceptance"

def requireUnheldOrigin (db : QueueDb ρ) (event : Option Int) : Except StoreError Unit :=
  if event.isSome && db.ingress.contains (fun r => r.eventId == event && r.stopHeld) then
    .error stopRefused
  else .ok ()

def requireUnheldKey (db : QueueDb ρ) (key : String) : Except StoreError Unit :=
  if db.ingress.contains (fun r => r.ingressId == key && r.stopHeld) then .error stopRefused
  else .ok ()

def byOrigin (db : QueueDb ρ) (event : Int) : Except StoreError (Option IngressRow) :=
  match db.ingress.select (·.eventId == some event) with
  | [] => .ok none
  | [row] => .ok (some row)
  | _ => .error (.integrity "ambiguous ingress origin identity")

/-! ## Prompt owners -/

def IngressRow.own (row : IngressRow) (intake : PromptIntake) : IngressRow :=
  { row with
    state := .owned
    phase := "durable_prompt"
    ownerKind := some "prompt"
    ownerId := some intake.jobId
    targetThreadId := some intake.targetThreadId
    updatedAt := intake.updatedAt }

def linkPromptOwnerByKey (hooks : QueueHooks ρ) (db : QueueDb ρ) (ingress : IngressRow)
    (intake : PromptIntake) : Except StoreError (QueueDb ρ) := do
  requireUnheldKey db ingress.ingressId
  let prompt ← hooks.newExecutionPrompt ingress
  let newRoom := prompt == some intake.rawPrompt &&
    ingress.targetThreadId == some intake.targetThreadId &&
    (ingress.phase == "thread/created" || ingress.phase == "durable_prompt") &&
    db.archive.mirrorThreads.any fun m =>
      m.codexThreadId == intake.targetThreadId && m.discordThreadId == intake.channelId
  if (ingress.channelId != intake.channelId && !newRoom) ||
      ingress.frozenSlashTarget.any (· != intake.targetThreadId) ||
      some ingress.ownerUserId != intake.ownerUserId || ingress.state == .held ||
      ingress.ownerId.any (· != intake.jobId) then
    .error (.integrity ("ingress handoff identity changed: " ++ ingress.ingressId))
  else
    let (_, db) ← updateIngress hooks db (·.ingressId == ingress.ingressId) (·.own intake)
      (fun _ => rfl)
    .ok db

def linkPromptOwner (hooks : QueueHooks ρ) (db : QueueDb ρ) (intake : PromptIntake) :
    Except StoreError (QueueDb ρ) :=
  match intake.discordMessageId with
  | none => .ok db
  | some event => do
      match ← byOrigin db event with
      | none => .ok db
      | some ingress => linkPromptOwnerByKey hooks db ingress intake

/-! ## Evidence of a new thread's first prompt -/

def newEvidence (hooks : QueueHooks ρ) (job : NewQueueJob) : Json :=
  .object [("channel_id", .integer job.channelId),
    ("prompt_sha256", .text (hooks.sha256Hex job.prompt)), ("thread_id", .text job.targetThreadId)]

/-- One owner of the loop in `record_new_evidence`. -/
def recordEvidenceOf (hooks : QueueHooks ρ) (job : NewQueueJob) (db : QueueDb ρ) (key : String) :
    Except StoreError (QueueDb ρ) :=
  match db.ingress.find key with
  | none => .error (.integrity "missing new evidence owner")
  | some saved =>
    if saved.newCommandPrompt.isNone then .ok db
    else if saved.targetThreadId != some job.targetThreadId ||
        saved.ownerUserId != job.ownerUserId.getD 0 then
      .error (.integrity "new evidence owner identity changed")
    else do
      let evidence := newEvidence hooks job
      let rest ← hooks.promoteNewReply db saved job (hooks.sha256Hex job.prompt)
      if ((saved.outcome.bind (·.get "new_verification")).any fun old => !old.same evidence) then
        .error (.integrity "new prepared input evidence changed")
      else
        let (_, db) ← updateIngress hooks { db with rest := rest } (·.ingressId == key)
          (fun r => { r with
            outcome := some ((r.outcome.getD (.object [])).set "new_verification" evidence) })
          (fun _ => rfl)
        .ok db

def recordNewEvidence (hooks : QueueHooks ρ) (db : QueueDb ρ) (job : NewQueueJob) :
    Except StoreError (QueueDb ρ) :=
  let keys := (db.ingress.select fun r =>
    r.ownerKind == some "prompt" && r.ownerId == some job.jobId).map (·.ingressId)
  keys.foldlM (recordEvidenceOf hooks job) db

/-! ## Owners of a request that is cancelled -/

def cancellationInvalid (key : String) : StoreError :=
  .integrity ("request " ++ key ++
    " has conflicting or uncertain cancellation ownership; nothing was cancelled")

/-- The checks of one owner in `cancellation_owners`. -/
def checkCancellationOwner (db : QueueDb ρ) (job target : String) (channel owner : Int)
    (row : IngressRow) : Except StoreError Unit :=
  if row.ownerKind != some "prompt" || row.ownerId != some job || row.ownerUserId != owner ||
      row.targetThreadId != some target || !(row.state == .owned || row.state == .completed) then
    .error (cancellationInvalid row.ingressId)
  else if row.channelId == channel then .ok ()
  else
    let creation := row.outcome.bind (·.get "new_creation")
    let field := fun name => (creation.bind (·.get name)).bind Json.asInteger
    if row.newCommandPrompt.isSome && field "version" == some 1 &&
        field "origin_channel_id" == some row.channelId then do
      let mirrored ← mirroredThreadId db (some channel)
      if mirrored == some target then .ok () else .error (cancellationInvalid row.ingressId)
    else .error (cancellationInvalid row.ingressId)

/-- Validate every original owner; the answer is their keys. -/
def cancellationOwners (db : QueueDb ρ) (job : String) (event : Option Int) (target : String)
    (channel owner : Int) : Except StoreError (List String) := do
  let rows := db.ingress.select fun r =>
    r.ownerId == some job || (event.isSome && r.eventId == event)
  rows.forM (checkCancellationOwner db job target channel owner)
  .ok (rows.map (·.ingressId))

end CodexRemote.Store

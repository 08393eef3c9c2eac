import CodexRemote.Store.MutationAttempt
import CodexRemote.Store.Ingress.Ownership

/-! # What a new thread is started with

The prompt of a request for a new thread, the prepared input that replaces it when the request has
attachments, and the context in which its thread is created.  Each is written once.
-/

namespace CodexRemote.Store

open Foundations

/-- SHA-256 in hexadecimal, of a text and of the envelope of a request: its id, kind, event, room,
owner and payload. -/
structure IngressDigests where
  text : String → String
  envelope : String → IngressKind → Option Int → Int → Int → Json → String

def IngressDigests.of (digests : IngressDigests) (row : IngressRow) : String :=
  digests.envelope row.ingressId row.kind row.eventId row.channelId row.ownerUserId row.payload

namespace Ingress

variable {ρ : Type}

def hasAttachments (row : IngressRow) : Bool :=
  row.kind == .message && ((row.payload.get "attachments").bind Json.asArray).any (!·.isEmpty)

def preparedInput (row : IngressRow) : Option Json := row.outcome.bind (·.get "new_input")

/-- The prompt to execute: the prepared one, exactly where the request has attachments -/
def newExecutionPrompt (digests : IngressDigests) (row : IngressRow) :
    Except StoreError (Option String) :=
  match row.newCommandPrompt with
  | none => .ok none
  | some raw =>
    if !hasAttachments row then
      if (preparedInput row).isSome then
        .error (.integrity "prepared new attachment envelope changed")
      else .ok (some raw)
    else
      match preparedInput row with
      | none => .error (.integrity
          "new attachments have no durable prepared input; no execution permitted")
      | some prepared =>
        match ((prepared.get "prompt").bind Json.asText).filter
            (!MutationAttempts.blank ·) with
        | none => .error (.integrity "new prepared input is missing")
        | some prompt =>
          if prepared.get "version" ≠ some (.integer 1) ||
              prepared.get "source_sha256" ≠ some (.text (digests.of row)) ||
              prepared.get "prompt_sha256" ≠ some (.text (digests.text prompt)) then
            .error (.integrity "new prepared input or original envelope changed")
          else .ok (some prompt)

def inputOf (digests : IngressDigests) (row : IngressRow) (prompt : String) : Json :=
  .object [("prompt", .text prompt), ("prompt_sha256", .text (digests.text prompt)),
    ("source_sha256", .text (digests.of row)), ("version", .integer 1)]

/-- `json_set` of a field, in an empty object where there is no outcome -/
def outcomeSet (row : IngressRow) (field : String) (value : Json) : Option Json :=
  some ((row.outcome.getD (.object [])).set field value)

def recordNewInputIn (hooks : QueueHooks ρ) (digests : IngressDigests) (key raw prompt : String)
    (now : Timestamp) (db : QueueDb ρ) : Except StoreError (Unit × QueueDb ρ) :=
  if now.isNone || MutationAttempts.blank prompt then
    .error (.integrity "invalid new input preparation")
  else
    match db.ingress.find key with
    | none => .error (.integrity "new input owner is missing")
    | some row =>
      if row.newCommandPrompt ≠ some raw || !hasAttachments row then
        .error (.integrity "new input preparation does not own the original prompt and attachments")
      else
        match preparedInput row with
        | some existing =>
          if existing ≠ inputOf digests row prompt then
            .error (.integrity "new prepared input is immutable")
          else .ok ((), db)
        | none =>
          if row.state ≠ .executing || row.phase ≠ "processing" then
            .error (.integrity "new attachment input must be frozen before thread/start")
          else do
            let (_, db) ← updateIngress hooks db (·.ingressId == key)
              (fun r => { r with
                outcome := outcomeSet r "new_input" (inputOf digests row prompt)
                updatedAt := now.getD 0 }) (fun _ => rfl)
            .ok ((), db)

def recordNewInput (hooks : QueueHooks ρ) (digests : IngressDigests) (key raw prompt : String)
    (now : Timestamp) (db : QueueDb ρ) : Except StoreError Unit × QueueDb ρ :=
  commit (recordNewInputIn hooks digests key raw prompt now) db

/-- `json_extract(outcome_json,'$.thread_start_generation')=?`; truth values are numbers there. -/
def startedUnder (generation : Int) (row : IngressRow) : Bool :=
  match row.outcome.bind (·.get "thread_start_generation") with
  | some (.integer value) => value == generation
  | some (.real value) => value == generation
  | some (.bool value) => (if value then 1 else 0) == generation
  | _ => false

def creationOf (cwd : Option String) (channel : Int) : Json :=
  .object [("cwd", .ofText cwd), ("origin_channel_id", .integer channel), ("version", .integer 1)]

/-- `origin` is the answer of `mapping::new_thread_origin_in` for the room. -/
def recordNewCreationIn (hooks : QueueHooks ρ) (origin : QueueDb ρ → Int → Except StoreError Json)
    (key : String) (generation : Int) (cwd : Option String) (channel : Int) (now : Rat)
    (db : QueueDb ρ) : Except StoreError (Unit × QueueDb ρ) :=
  if cwd.any MutationAttempts.blank || channel ≤ 0 then
    .error (.integrity "invalid new creation context")
  else
    match db.ingress.find key with
    | none => .error (.integrity "new creation ingress is missing")
    | some ingress => do
        let found ← origin db channel
        if ingress.payload.get "new_origin" ≠ some found then
          .error (.integrity
            "new origin mapping changed after classification/admission; no thread/start permitted")
        else
          let (changed, db) ← updateIngress hooks db
            (fun r => r.ingressId == key && r.state == .executing && r.phase == "thread/start" &&
              startedUnder generation r && (r.outcome.bind (·.get "new_creation")).isNone &&
              r.channelId == channel)
            (fun r => { r with
              outcome := outcomeSet r "new_creation" (creationOf cwd channel)
              updatedAt := now }) (fun _ => rfl)
          if changed ≠ 1 then
            .error (.integrity "new creation context has no matching unwritten attempt")
          else .ok ((), db)

def recordNewCreation (hooks : QueueHooks ρ) (origin : QueueDb ρ → Int → Except StoreError Json)
    (key : String) (generation : Int) (cwd : Option String) (channel : Int) (now : Rat)
    (db : QueueDb ρ) : Except StoreError Unit × QueueDb ρ :=
  commit (recordNewCreationIn hooks origin key generation cwd channel now) db

end Ingress

end CodexRemote.Store

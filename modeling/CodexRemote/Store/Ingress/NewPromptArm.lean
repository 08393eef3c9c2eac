import CodexRemote.Store.Ingress.Admission
import CodexRemote.Store.Ingress.Lifecycle
import CodexRemote.Store.Ingress.StopControl

/-! # What an admission adds to a request

The stop revision and the room mapping of the moment are kept with the request.  A bare `!new`
reserves the sender's next message of the room, and that message consumes the reservation in the
transaction that admits it.
-/

namespace CodexRemote.Store

open Foundations

namespace Ingress

variable {ρ σ : Type}

def textAt (payload : Json) (path : List String) : Option String :=
  (payload.pointer path).bind Json.asText

/-- A request for a new thread, of any transport -/
def wantsOrigin (payload : Json) : Bool :=
  textAt payload ["command"] == some "new" || (payload.pointer ["plan", "Execute", "New"]).isSome ||
    textAt payload ["work", "Slash", "name"] == some "new"

def isBound (payload : Json) : Bool :=
  (payload.get "settings_binding").any Json.isObject ||
    (payload.get "lifecycle_binding").any Json.isObject

/-- `origin` is the answer of `mapping::new_thread_origin_in` for the room. -/
def captureOriginsIn (origin : StopDb σ → Int → Except StoreError Json) (db : StopDb σ)
    (original : NewIngress) : Except StoreError NewIngress := do
  let original ← (if isBound original.payload then
      (StopRevision.captureIn original.targetThreadId db.rest.revisions).map fun captured =>
        { original with payload := original.payload.set "stop_origin" captured }
    else .ok original)
  if (original.payload.get "new_origin").isNone && wantsOrigin original.payload then
    (origin db original.channelId).map fun found =>
      { original with payload := original.payload.set "new_origin" found }
  else .ok original

/-! ## The reservation of the next message -/

def reserved : String := "새 대화를 준비했습니다. 같은 방에 첫 요청을 보내주세요."

def armUsed : String :=
  "ERROR: !new 예약이 이미 사용되었거나 변경되어 이 글은 실행하지 않았습니다. !new를 다시 입력하거나 필요한 멘션을 포함해주세요."

def roomChanged : String :=
  "ERROR: !new 이후 방 연결이 변경되었습니다. 실행하지 않았습니다. !new를 다시 입력해주세요."

def respond (text : String) : Json := .object [("Respond", .text text)]

def withoutConsumption (request : NewIngress) : NewIngress :=
  if (textAt request.payload ["new_prompt_mention_arm"]).isSome then
    { request with
      targetThreadId := none
      payload := request.payload.set "plan" (respond armUsed) }
  else request

/-- The latest reservation of the sender in the room, with its event -/
def pendingArm (db : QueueDb ρ) (channel owner : Int) : Option (IngressRow × Int) :=
  let arms := db.ingress.rows.filterMap fun row =>
    if row.channelId = channel && row.ownerUserId = owner && row.kind = .message &&
        (row.payload.get "new_prompt_arm").any Json.isObject then
      row.eventId.map fun event => (row, event)
    else none
  (arms.mergeSort fun a b => b.2 ≤ a.2).head?

def isMessageOfUser (request : NewIngress) : Bool :=
  request.kind == .message && request.payload.versionOne &&
    (request.payload.get "author_is_bot").bind Json.asBool == some false

def fieldOf (value : Json) (key : String) : Json := (value.get key).getD .null

/-- The reservation still stands for this message. -/
def consumes (request : NewIngress) (arm : IngressRow) (event : Int) : Bool :=
  request.eventId.any (event < ·) &&
    fieldOf (fieldOf arm.payload "new_prompt_arm") "consumed_by" = .null &&
    (textAt request.payload ["new_prompt_mention_arm"]).all (· == arm.ingressId)

/-- The message runs in a new thread, where the room is mapped as it was at its reservation. -/
def consumed (request : NewIngress) (arm : IngressRow) : NewIngress :=
  let payload := request.payload
  let plan :=
    if fieldOf arm.payload "routing" = fieldOf payload "routing" &&
        fieldOf arm.payload "new_origin" = fieldOf payload "new_origin" then
      let prompt := (payload.pointer ["plan", "Execute", "Ask", "prompt"]).getD .null
      .object [("Execute", .object [("New", .object [("prompt", prompt)])])]
    else respond roomChanged
  { request with payload := payload.set "plan" plan }

/-- `new_prompt_arm::prepare_in`, and the key of the reservation that it consumes -/
def prepareIn (origin : QueueDb ρ → Int → Except StoreError Json) (db : QueueDb ρ)
    (request : NewIngress) : Except StoreError (NewIngress × Option String) :=
  if !isMessageOfUser request then .ok (request, none)
  else
    let raw := Discord.trim ((textAt request.payload ["content"]).getD "").toList
    if textAt request.payload ["plan", "Execute", "New", "prompt"] = some "" &&
        raw.map Char.toLower = "!new".toList then
      .ok ({ request with
        payload := (request.payload.set "new_prompt_arm" (.object [("consumed_by", .null)])).set
          "plan" (respond reserved)
        targetThreadId := none }, none)
    else if raw.head? = some '!' ||
        (request.payload.pointer ["plan", "Execute", "Ask", "prompt"]).isNone then
      .ok (request, none)
    else
      match pendingArm db request.channelId request.ownerUserId with
      | none => .ok (withoutConsumption request, none)
      | some (arm, event) =>
        if !consumes request arm event then .ok (withoutConsumption request, none)
        else do
          let payload := request.payload.set "new_prompt_arm_ref" (.text arm.ingressId)
          let payload ← (if (payload.get "new_origin").isNone then
              (origin db request.channelId).map (payload.set "new_origin")
            else .ok payload)
          .ok (consumed { request with
            payload := payload
            targetThreadId := none } arm, some arm.ingressId)

end Ingress

/-! ## The store of the requests -/

/-- What other modules prepare, check and write for a request of Discord. -/
structure IngressHooks (σ : Type) where
  stop : StopHooks σ
  digests : IngressDigests
  /-- `mapping::new_thread_origin_in` -/
  newThreadOrigin : StopDb σ → Int → Except StoreError Json
  /-- `new_reply::get_by_ingress`: whether the first reply was confirmed, and its kind -/
  newReply : StopDb σ → String → Except StoreError (Option (Bool × IngressKind))
  /-- the message is in `discord_processed_messages` -/
  processed : StopDb σ → Option Int → Bool
  /-- the triggers after an insert, which hold the new row under a phase and a reason -/
  fence : StopDb σ → IngressRow → Option (String × String)
  /-- `admission_order::record_new_in` and, for a message, `discord_processed_messages` -/
  recordNew : StopDb σ → IngressRow → Except StoreError (StopTables σ)
  /-- `RecordedAdmission::verify_in` -/
  verify : StopDb σ → IngressRow → Except StoreError Unit

def IngressHooks.queue {σ : Type} (hooks : IngressHooks σ) : QueueHooks (StopTables σ) :=
  hooks.stop.queue

def IngressHooks.admission {σ : Type} (hooks : IngressHooks σ) : AdmissionHooks (StopTables σ) where
  queue := hooks.queue
  processed := hooks.processed
  prepare := fun db request => do
    let original ← Ingress.captureOriginsIn hooks.newThreadOrigin db request
    Ingress.prepareIn hooks.newThreadOrigin db original
  fence := hooks.fence
  recordNew := hooks.recordNew
  verify := hooks.verify

end CodexRemote.Store

import CodexRemote.Discord.Text
import CodexRemote.Store.Json

/-! # The ingress journal

Rows of `discord_ingress_journal`, the requests as Discord sent them, and what their
payloads ask for.  A payload is the parsed text of its column.
-/

namespace CodexRemote.Store

inductive IngressKind where
  | message
  | interaction
  | action
deriving DecidableEq, Repr

inductive IngressState where
  | staged
  | acknowledged
  | executing
  | owned
  | completed
  | held
deriving DecidableEq, Repr

structure IngressRow where
  ingressId : String
  kind : IngressKind
  eventId : Option Int
  channelId : Int
  ownerUserId : Int
  payload : Json
  state : IngressState
  phase : String
  targetThreadId : Option String
  ownerKind : Option String
  ownerId : Option String
  outcome : Option Json
  createdAt : Rat
  updatedAt : Rat
  sourceMessageId : Option Int := none
  holdReason : String := ""
  confirmationDelivered : Bool := false
  version : Int := 1
  applicationId : Option Int := none
  runtimeId : Option String := none
deriving DecidableEq

def Json.hasText (value : Json) (path : List String) : Bool :=
  ((value.pointer path).bind Json.asText).isSome

def Json.versionOne (value : Json) : Bool := (value.get "version").bind Json.asInteger == some 1

/-- An `ask` or `interview` interaction with a prompt. -/
def slashAsks (payload : Json) : Bool :=
  let name := (payload.pointer ["work", "Slash", "name"]).bind Json.asText
  (name == some "ask" || name == some "interview") &&
    payload.hasText ["work", "Slash", "values", "prompt", "String"]

namespace IngressRow

/-- A request for a turn, in the payload version that the cancellations know. -/
def asks (row : IngressRow) : Bool :=
  row.payload.versionOne &&
    match row.kind with
    | .message => row.payload.hasText ["plan", "Execute", "Ask", "prompt"] ||
        row.payload.hasText ["plan", "Execute", "Interview", "prompt"]
    | .interaction => slashAsks row.payload
    | .action => false

/-- No owner has taken the request over, and it is not finished. -/
def unowned (row : IngressRow) : Bool :=
  row.ownerId.isNone && (row.state == .staged || row.state == .acknowledged ||
    row.state == .executing || row.state == .held)

def newCommandPrompt (row : IngressRow) : Option String :=
  match row.kind with
  | .action =>
    if (row.payload.get "command").bind Json.asText == some "new" then
      (row.payload.get "prompt").bind Json.asText
    else none
  | .message =>
    if row.payload.versionOne then
      (row.payload.pointer ["plan", "Execute", "New", "prompt"]).bind Json.asText
    else none
  | .interaction =>
    if row.payload.versionOne &&
        (row.payload.pointer ["work", "Slash", "name"]).bind Json.asText == some "new" then
      ((row.payload.pointer ["work", "Slash", "values", "prompt", "String"]).bind
        Json.asText).map fun prompt => String.ofList (Discord.trim prompt.toList)
    else none

/-- The target that an `ask` or `interview` interaction was bound to. -/
def frozenSlashTarget (row : IngressRow) : Option String :=
  if row.kind == .interaction && row.payload.versionOne && slashAsks row.payload then
    row.targetThreadId
  else none

/-- A stop of the original request is on record. -/
def stopHeld (row : IngressRow) : Bool := (row.outcome.bind (·.get "stop_hold")).isSome

/-- The outcome without what is not an object, the old value under `prior_result`. -/
def keptOutcome (row : IngressRow) : Json :=
  match row.outcome with
  | none | some .null => .object []
  | some (.object fields) => .object fields
  | some other => .object [("prior_result", other)]

/-- The outcome, or an empty object in place of what is not an object. -/
def objectOutcome (row : IngressRow) : Json := (row.outcome.filter Json.isObject).getD (.object [])

def cancelledOutcome (kept : Json) (jobId : String) : Json :=
  (kept.set "kind" (.text "request_cancelled")).set "job_id" (.text jobId)

end IngressRow

end CodexRemote.Store

import CodexRemote.Discord.GatewayIngress
import CodexRemote.Foundations.Encodings

/-! # Plans of messages

What the runtime does with a message that a user wrote: nothing, an answer, or an action.  Texts are
lists of Unicode scalars.
-/

namespace CodexRemote.Runtime

open Foundations Discord

/-! ## Prefix commands -/

inductive MirrorDetailMode where
  | send
  | all
deriving DecidableEq

inductive SkillPromptKind where
  | pro
  | interview
  | archiveUsed
deriving DecidableEq

/-- The options of `!settings` that take a value -/
inductive SettingsField where
  | model
  | effort
  | speed
deriving DecidableEq

inductive PrefixAction where
  | help
  | list (limit : Nat)
  | archivedList (limit : Nat)
  | use (reference : List Char)
  | open_ (reference : List Char) (abort : Bool)
  | status (reference : Option (List Char))
  | stop (reference : Option (List Char))
  | recover (reference : Option (List Char))
  | repair (reference : Option (List Char))
  | settings (reference model effort speed : Option (List Char))
  | autoReserve (reference : Option (List Char)) (enabled : Bool)
  | settingsOptions (reference : Option (List Char)) (field : Option SettingsField)
  | discoverCodex
  | restartCodex
  | forceRestartCodex
  | archive (reference : Option (List Char))
  | deleteArchivePreview (reference : List Char)
  | deleteArchiveConfirm (reference : List Char)
  | doctor
  | resume (reference : Option (List Char))
  | identity
  | where_
  | context (allThreads refresh : Bool) (limit : Nat)
  | usage (days : Nat)
  | runners
  | savedRequest (requestId : List Char)
  | discardRequest (jobId : List Char)
  | resources
  | retract (reference : Option (List Char))
  | bridgeSync (limit : Option Nat)
  | mirrorSync
  | mirrorList (limit : Option Nat)
  | mirrorCheck (limit : Option Nat)
  | mirrorDetail (mode : Option MirrorDetailMode)
  | approval
  | new (prompt : List Char)
  | steer (prompt : List Char)
  | qaButtons
  | skillPrompt (kind : SkillPromptKind) (request : List Char)
  | hostReboot
deriving DecidableEq

inductive PrefixPlanError where
  | usage (text : String)
  | unknown (command : List Char)
deriving DecidableEq

/-! ## The standard library -/

/-- `split_once(char::is_whitespace)`, or the text and nothing -/
def splitOnceWhitespace (text : List Char) : List Char × List Char :=
  (text.takeWhile (!isWhitespace ·), (text.dropWhile (!isWhitespace ·)).drop 1)

/-! ## Arguments -/

def optional (value : List Char) : Option (List Char) :=
  if value.isEmpty then none else some value

def required (value : List Char) (usage : String) : Except PrefixPlanError (List Char) :=
  if value.isEmpty then .error (.usage usage) else .ok value

/-- A 64-bit number between two bounds -/
def clamped (raw : List Char) (minimum maximum : Nat) : Option Nat :=
  (parseInt64 (String.ofList raw)).map fun value =>
    (max (minimum : Int) (min value.toInt maximum)).toNat

def bounded (raw : List Char) (default_ minimum maximum : Nat) : Nat :=
  (clamped raw minimum maximum).getD default_

def requiredBounded (raw : List Char) (default_ maximum : Nat) (usage : String) :
    Except PrefixPlanError Nat :=
  if raw.isEmpty then .ok default_
  else
    match clamped raw 1 maximum with
    | some value => .ok value
    | none => .error (.usage usage)

section Grammar

variable (unicode : Unicode)

def contextUsage : String := "Usage: !context [all | refresh [limit]]"

def planContext (arg : List Char) : Except PrefixPlanError PrefixAction :=
  let words := splitWhitespace (unicode.lowercase arg)
  let first := words.head?
  if first = some "refresh".toList ∨ first = some "recent".toList then
    if words.length > 2 then .error (.usage contextUsage)
    else do
      let limit ← requiredBounded (words.tail.head?.getD []) 10 30
        "Usage: !context refresh [integer limit]"
      .ok (.context false true limit)
  else
    let whole := unicode.lowercase (trim arg)
    let allThreads : Bool := whole = "all".toList ∨ whole = "*".toList
    if !words.isEmpty && !allThreads then .error (.usage contextUsage)
    else .ok (.context allThreads false (if allThreads then 20 else 10))

def planUsage (arg : List Char) : Except PrefixPlanError PrefixAction := do
  let days ← requiredBounded arg 7 30 "Usage: !usage [days]"
  .ok (.usage days)

def planRunners (arg : List Char) : Except PrefixPlanError PrefixAction :=
  if arg.isEmpty then .ok .runners
  else if arg.any isWhitespace then .error (.usage "Usage: !runners [request_id]")
  else .ok (.savedRequest arg)

def skill (kind : SkillPromptKind) (command arg : List Char) (name : String) :
    Except PrefixPlanError PrefixAction := do
  let request ← required arg ("Usage: !" ++ String.ofList command ++ " <" ++ name ++ ">")
  .ok (.skillPrompt kind request)

def planReboot (arg : List Char) : Except PrefixPlanError PrefixAction :=
  if eqIgnoreAsciiCase arg "confirm" then .ok .hostReboot
  else .error (.usage "Usage: !reset_pc confirm")

def planQa (arg : List Char) : Except PrefixPlanError PrefixAction :=
  let word := unicode.lowercase arg
  if arg.isEmpty ∨ word = "button".toList ∨ word = "buttons".toList then .ok .qaButtons
  else .error (.usage "Usage: !qa buttons")

def planDetail (arg : List Char) : Except PrefixPlanError PrefixAction :=
  let word := unicode.lowercase arg
  if word = [] then .ok (.mirrorDetail none)
  else if word = "send".toList then .ok (.mirrorDetail (some .send))
  else if word = "all".toList then .ok (.mirrorDetail (some .all))
  else .error (.usage "Usage: !detail | !detail send | !detail all")

def bridgeUsage : String := "Usage: !bridge sync [limit]"

/-- The text of the limit, after `sync` for the command `bridge` -/
def bridgeRaw (command arg : List Char) : Except PrefixPlanError (List Char) :=
  if command = "bridge".toList then
    let (subcommand, tail) := splitOnceWhitespace arg
    if !subcommand.isEmpty && !eqIgnoreAsciiCase subcommand "sync" then
      .error (.usage bridgeUsage)
    else .ok (trim tail)
  else .ok arg

def planBridge (command arg : List Char) : Except PrefixPlanError PrefixAction := do
  let raw ← bridgeRaw command arg
  if raw.isEmpty then .ok (.bridgeSync none)
  else
    let limit ← requiredBounded raw 1 100 bridgeUsage
    .ok (.bridgeSync (some limit))

def mirrorLimit (raw : List Char) (subcommand : String) : Except PrefixPlanError (Option Nat) :=
  let raw := trim raw
  if raw.isEmpty then .ok none
  else
    (requiredBounded raw 1 100 ("Usage: !mirror " ++ subcommand ++ " [limit]")).map some

def planMirror (arg : List Char) : Except PrefixPlanError PrefixAction :=
  let (subcommand, rawLimit) := splitOnceWhitespace arg
  let word := unicode.lowercase subcommand
  if (word = [] ∨ word = "sync".toList) ∧ (trim rawLimit).isEmpty then .ok .mirrorSync
  else if word = "list".toList then do
    let limit ← mirrorLimit rawLimit "list"
    .ok (.mirrorList limit)
  else if word = "check".toList ∨ word = "doctor".toList then do
    let limit ← mirrorLimit rawLimit "check"
    .ok (.mirrorCheck limit)
  else
    .error (.usage "Usage: !mirror sync | !mirror list [limit] | !mirror check [limit]")

end Grammar

/-! ## Settings -/

def settingsUsage : String :=
  "Usage: !settings [ref] [--model <model>] [--reasoning <effort>] [--effort <effort>] " ++
    "[--speed <speed>]"

def autoReserveRemoved : String :=
  "자동 Reserve 전환 기능은 제거되었습니다. 설정은 변경하지 않았습니다. 필요하면 " ++
    "!settings --model gpt-reserve 로 직접 선택하세요."

/-- The variables of the loop of `shell_words` -/
structure ShellState where
  output : List (List Char)
  current : List Char
  quote : Option Char
  escaped : Bool
  started : Bool

def shellStep (s : ShellState) (character : Char) : ShellState :=
  if s.escaped then
    { s with current := s.current ++ [character], started := true, escaped := false }
  else if character = '\\' ∧ s.quote ≠ some '\'' then { s with escaped := true }
  else if character = '\'' ∨ character = '"' then
    if s.quote = some character then { s with started := true, quote := none }
    else if s.quote = none then { s with started := true, quote := some character }
    else { s with started := true, current := s.current ++ [character] }
  else if isWhitespace character ∧ s.quote = none then
    if s.started then
      { s with output := s.output ++ [s.current], current := [], started := false }
    else s
  else { s with started := true, current := s.current ++ [character] }

def shellWords (raw : List Char) : Except PrefixPlanError (List (List Char)) :=
  let s := raw.foldl shellStep ⟨[], [], none, false, false⟩
  if s.escaped || s.quote.isSome then
    .error (.usage (settingsUsage ++ "\nERROR: No closing quotation"))
  else if s.started then .ok (s.output ++ [s.current])
  else .ok s.output

structure SettingsState where
  reference : Option (List Char)
  model : Option (List Char)
  effort : Option (List Char)
  speed : Option (List Char)
  optionQuery : Option SettingsField

def SettingsState.value (s : SettingsState) : SettingsField → Option (List Char)
  | .model => s.model
  | .effort => s.effort
  | .speed => s.speed

def SettingsState.set (s : SettingsState) (value : List Char) : SettingsField → SettingsState
  | .model => { s with model := some value }
  | .effort => { s with effort := some value }
  | .speed => { s with speed := some value }

def fieldOf (token : List Char) : Option SettingsField :=
  if token = "--model".toList then some .model
  else if token = "--reasoning".toList ∨ token = "--effort".toList then some .effort
  else if token = "--speed".toList then some .speed
  else none

def dashed (token : List Char) : Bool := ['-', '-'].isPrefixOf token

/-- The `while` loop of `plan_settings` -/
def settingsLoop (s : SettingsState) : List (List Char) → Except PrefixPlanError SettingsState
  | [] => .ok s
  | token :: tokens =>
    match fieldOf token with
    | some field =>
      if (s.value field).isSome || s.optionQuery.isSome then .error (.usage settingsUsage)
      else
        match tokens with
        | [] => .ok { s with optionQuery := some field }
        | next :: rest =>
          if dashed next then settingsLoop { s with optionQuery := some field } (next :: rest)
          else if (trim next).isEmpty then .error (.usage settingsUsage)
          else settingsLoop (s.set next field) rest
    | none =>
      if (trim token).isEmpty || dashed token || s.reference.isSome then
        .error (.usage settingsUsage)
      else settingsLoop { s with reference := some token } tokens

def planSettings (arg : List Char) : Except PrefixPlanError PrefixAction := do
  let tokens ← shellWords arg
  if tokens.any fun t => t = "--auto-reserve".toList || "--auto-reserve=".toList.isPrefixOf t then
    Except.error (PrefixPlanError.usage autoReserveRemoved)
  else
    let s ← settingsLoop ⟨none, none, none, none, none⟩ tokens
    match s.optionQuery with
    | some field =>
      if s.model.isSome || s.effort.isSome || s.speed.isSome then .error (.usage settingsUsage)
      else .ok (.settingsOptions s.reference (some field))
    | none => .ok (.settings s.reference s.model s.effort s.speed)

/-! ## Commands -/

section Parser

-- `canonicalUuid` is `uuid::Uuid::parse_str`, printed again.
variable (unicode : Unicode) (canonicalUuid : List Char → Option (List Char))

def splitCommand (commandLine : List Char) : List Char × List Char :=
  let (command, arg) := splitOnceWhitespace (trimStart commandLine)
  (unicode.lowercase (trim command), arg)

def planDiscard (commandLine job : List Char) : Except PrefixPlanError PrefixAction :=
  if (splitWhitespace commandLine).head? ≠ some "discard-request".toList ∨
      canonicalUuid job ≠ some job then
    .error (.usage "Usage: !discard-request <exact canonical job UUID>")
  else .ok (.discardRequest job)

/-- `!recover` and `!repair`, whose reference is one word -/
def planOneWord (arg : List Char) (action : Option (List Char) → PrefixAction) (usage : String) :
    Except PrefixPlanError PrefixAction :=
  if (splitWhitespace arg).length > 1 then .error (.usage usage)
  else .ok (action (optional arg))

def planForceRestart (commandLine : List Char) : Except PrefixPlanError PrefixAction :=
  if isForceRestartMessage (String.ofList ('!' :: commandLine)) then .ok .forceRestartCodex
  else .error (.usage "Usage: !restart_codex [force] or !force_restart")

/-- The arms of `plan_prefix`: the names of a command and its action -/
def prefixArms (commandLine command arg : List Char) :
    List (List String × Except PrefixPlanError PrefixAction) :=
  [(["", "help", "start"], .ok .help),
    (["list"], .ok (.list (if arg.isEmpty then 0 else bounded arg 10 1 30))),
    (["archived_list", "archive_list"], .ok (.archivedList (bounded arg 10 1 50))),
    (["use"], (required arg "Usage: !use <ref>").map .use),
    (["open", "open_abort"],
      (required arg ("Usage: !" ++ String.ofList command ++ " <ref>")).map fun reference =>
        .open_ reference (command = "open_abort".toList)),
    (["status"], .ok (.status (optional arg))),
    (["stop"], .ok (.stop (optional arg))),
    (["recover", "복구"], planOneWord arg .recover "Usage: !recover [ref]"),
    (["repair", "도구복구"], planOneWord arg .repair "Usage: !repair [ref]"),
    (["settings", "setting"], planSettings arg),
    (["discover_codex"], .ok .discoverCodex),
    (if arg.isEmpty then ["restart_codex"] else [], .ok .restartCodex),
    (["restart_codex", "force_restart"], planForceRestart commandLine),
    (["archive"], .ok (.archive (optional arg))),
    (["delete_archive"], (required arg "Usage: !delete_archive <ref>").map .deleteArchivePreview),
    (["confirm_delete_archive"],
      (required arg "Usage: !confirm_delete_archive <ref>").map .deleteArchiveConfirm),
    (["doctor"], .ok .doctor),
    (["resume"], .ok (.resume (optional arg))),
    (["chatid", "whoami"], .ok .identity),
    (["where", "map"], .ok .where_),
    (["context", "ctx"], planContext unicode arg),
    (["usage", "quota", "limit"], planUsage arg),
    (["runners", "queues"], planRunners arg),
    (["discard-request"], planDiscard canonicalUuid commandLine arg),
    (["resources", "system"], .ok .resources),
    (["retract", "unqueue"], .ok (.retract (optional arg))),
    (["bridge_sync", "resync", "sync", "bridge"], planBridge command arg),
    (["mirror"], planMirror unicode arg),
    (["detail"], planDetail unicode arg),
    (["approval", "approve"], .ok .approval),
    (["new"], .ok (.new arg)),
    (["steer"], (required arg "Usage: !steer <prompt>").map .steer),
    (["qa"], planQa unicode arg),
    (["pro"], skill .pro command arg "request"),
    (["interview", "deep_interview", "deep-interview"], skill .interview command arg "request"),
    (["archive-used"], skill .archiveUsed command arg "threshold"),
    (["reset_pc", "reboot_pc", "reset_computer"], planReboot arg)]

def planPrefix (commandLine : List Char) : Except PrefixPlanError PrefixAction :=
  let (command, argument) := splitCommand unicode commandLine
  let arm := (prefixArms unicode canonicalUuid commandLine command (trim argument)).find?
    fun arm => arm.1.any (·.toList = command)
  match arm with
  | some arm => arm.2
  | none => .error (.unknown command)

end Parser

/-! ## The answer to a message -/

def attachmentPrompt : String := "Please inspect the attached Discord file(s)."

inductive CommandAction where
  | help
  | list (limit : Nat)
  | archivedList (limit : Nat)
  | use (reference : List Char)
  | status (reference : Option (List Char))
  | settings (reference model effort speed : Option (List Char))
  | autoReserve (reference : Option (List Char)) (enabled : Bool)
  | where_
  | context (allThreads refresh : Bool) (limit : Nat)
  | usage (days : Nat)
  | new (prompt : List Char)
  | ask (prompt : List Char)
  | interview (prompt : List Char)
  | doctor
  | runners
  | savedRequest (requestId : List Char)
  | discardRequest (jobId : List Char)
  | retract (reference : Option (List Char))
  | mirrorCheck
  | mirrorInspect (limit : Option Nat) (list : Bool)
  | bridgeSync (limit : Option Int)
  | qaButtons
  | open_ (reference : List Char) (abort : Bool)
  | stop (reference : Option (List Char))
  | recover (reference : Option (List Char))
  | repair (reference : Option (List Char))
  | settingsOptions (reference : Option (List Char)) (field : Option SettingsField)
  | restartCodex
  | forceRestartCodex
  | archive (reference : Option (List Char))
  | deleteArchivePreview (reference : List Char)
  | deleteArchiveConfirm (reference : List Char)
  | resume (reference : Option (List Char))
  | identity
  | resources
  | approval
  | steer (prompt : List Char)
  | hostReboot
deriving DecidableEq

/-- The sets of users are lists in the order of the identifiers. -/
structure IncomingMessage where
  content : String
  messageContentEnabled : Bool
  channelAllowed : Bool
  userAllowed : Bool
  authorIsBot : Bool
  authorIsSelf : Bool
  authorMentionsBridge : Bool
  hasAttachments : Bool
  mirroredTarget : Bool
  mentionedUserIds : List Nat
  requiredPlainAskUserIds : List Nat

inductive MessagePlan where
  | ignore (reason : String)
  | respond (text : String)
  | execute (action : CommandAction)
deriving DecidableEq

inductive MessagePlanError where
  | prefix_ (error : PrefixPlanError)
  | unsupportedPrefix (command : String)
deriving DecidableEq

def prefixToCommand : PrefixAction → Except MessagePlanError CommandAction
  | .help => .ok .help
  | .list limit => .ok (.list (if limit = 0 then 10 else limit))
  | .archivedList limit => .ok (.archivedList limit)
  | .use reference => .ok (.use reference)
  | .status reference => .ok (.status reference)
  | .settings reference model effort speed => .ok (.settings reference model effort speed)
  | .autoReserve reference enabled => .ok (.autoReserve reference enabled)
  | .doctor | .discoverCodex => .ok .doctor
  | .where_ => .ok .where_
  | .context allThreads refresh limit => .ok (.context allThreads refresh limit)
  | .usage days => .ok (.usage days)
  | .runners => .ok .runners
  | .savedRequest requestId => .ok (.savedRequest requestId)
  | .discardRequest jobId => .ok (.discardRequest jobId)
  | .retract reference => .ok (.retract reference)
  | .bridgeSync limit => .ok (.bridgeSync (limit.map Int.ofNat))
  | .qaButtons => .ok .qaButtons
  | .new prompt => .ok (.new prompt)
  | .open_ reference abort => .ok (.open_ reference abort)
  | .stop reference => .ok (.stop reference)
  | .recover reference => .ok (.recover reference)
  | .repair reference => .ok (.repair reference)
  | .settingsOptions reference field => .ok (.settingsOptions reference field)
  | .restartCodex => .ok .restartCodex
  | .forceRestartCodex => .ok .forceRestartCodex
  | .archive reference => .ok (.archive reference)
  | .deleteArchivePreview reference => .ok (.deleteArchivePreview reference)
  | .deleteArchiveConfirm reference => .ok (.deleteArchiveConfirm reference)
  | .resume reference => .ok (.resume reference)
  | .identity => .ok .identity
  | .resources => .ok .resources
  | .mirrorSync => .ok (.bridgeSync none)
  | .mirrorList limit => .ok (.mirrorInspect limit true)
  | .mirrorCheck limit => .ok (.mirrorInspect limit false)
  | .mirrorDetail _ => .error (.unsupportedPrefix "detail")
  | .approval => .ok .approval
  | .steer prompt => .ok (.steer prompt)
  | .hostReboot => .ok .hostReboot
  | .skillPrompt .interview request => .ok (.interview request)
  | .skillPrompt .pro request => .ok (.ask ("!pro ".toList ++ request))
  | .skillPrompt .archiveUsed request =>
    .ok (.ask ("Use $archive-used with this threshold:\n\n".toList ++ request))

/-- `replace(pattern, "")`, with the characters of a match that are still to be passed -/
def removeFrom (pattern : List Char) : Nat → List Char → List Char
  | _, [] => []
  | passed + 1, _ :: rest => removeFrom pattern passed rest
  | 0, c :: rest =>
    if pattern.isPrefixOf (c :: rest) then removeFrom pattern (pattern.length - 1) rest
    else c :: removeFrom pattern 0 rest

def stripRequiredMentions (content : List Char) (ids : List Nat) : List Char :=
  trim (ids.foldl (fun result id =>
    let result := removeFrom ("<@" ++ toString id ++ ">").toList 0 result
    removeFrom ("<@!" ++ toString id ++ ">").toList 0 result) content)

/-- The end of `plan_message` -/
def planPrompt (input : IncomingMessage) (prompt : List Char) : MessagePlan :=
  if prompt.isEmpty then
    if input.hasAttachments then .execute (.ask attachmentPrompt.toList)
    else .ignore "empty_content"
  else .execute (.ask prompt)

/-- The part of `plan_message` for a text that is no command -/
def planAsk (input : IncomingMessage) (content : List Char) : MessagePlan :=
  if !input.mirroredTarget && !input.requiredPlainAskUserIds.isEmpty then
    if !input.mentionedUserIds.any (input.requiredPlainAskUserIds.contains ·) then
      .ignore "required_mention_missing"
    else
      let prompt := stripRequiredMentions content input.requiredPlainAskUserIds
      if prompt.isEmpty && !input.hasAttachments then .respond "Add a prompt after the mention."
      else planPrompt input prompt
  else planPrompt input content

def isDiscard : CommandAction → Bool
  | .discardRequest _ => true
  | _ => false

/-- The part of `plan_message` for a command -/
def planCommand (unicode : Unicode) (canonicalUuid : List Char → Option (List Char))
    (input : IncomingMessage) (command : List Char) : Except MessagePlanError MessagePlan := do
  let planned ← (planPrefix unicode canonicalUuid command).mapError .prefix_
  let action ← prefixToCommand planned
  if input.authorIsBot && isDiscard action then .ok (.ignore "discard_request_requires_human")
  else .ok (.execute action)

/-- The part of `plan_message` after its checks -/
def planContent (unicode : Unicode) (canonicalUuid : List Char → Option (List Char))
    (input : IncomingMessage) (content : List Char) : Except MessagePlanError MessagePlan :=
  match content with
  | '!' :: command => planCommand unicode canonicalUuid input command
  | _ => .ok (planAsk input content)

def planMessage (unicode : Unicode) (canonicalUuid : List Char → Option (List Char))
    (input : IncomingMessage) : Except MessagePlanError MessagePlan :=
  if !input.messageContentEnabled then .ok (.ignore "message_content_disabled")
  else if !input.channelAllowed then .ok (.ignore "channel_not_allowed")
  else if !input.userAllowed then .ok (.ignore "user_not_allowed")
  else if input.authorIsSelf then .ok (.ignore "self_authored")
  else if input.authorIsBot && !input.authorMentionsBridge then
    .ok (.ignore "bot_author_without_bridge_mention")
  else
    let content := trim input.content.toList
    if input.authorIsBot && isEmergencyMessage (String.ofList content) then
      .ok (.ignore "force_restart_requires_human")
    else
      planContent unicode canonicalUuid input content

end CodexRemote.Runtime

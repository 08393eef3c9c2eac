import CodexRemote.Discord.Text
import CodexRemote.Foundations.Encodings

/-! # Component ids

The custom ids that Discord hands back when a component is used, and what each of
them stands for.
-/

namespace CodexRemote.Discord

open Foundations

def maxCustomIdChars : Nat := 100

inductive BusyAction where
  | steer
  | queue
  | stop
  | ignore
deriving DecidableEq, Repr

inductive ApprovalAnswer where
  | approve
  | approveSession
  | reject
  | cancel
deriving DecidableEq, Repr

inductive AbandonDecision where
  | abandonOnly
  | keepHeld
deriving DecidableEq, Repr

inductive PublicationDecision where
  | approveExact
  | keepHeld
deriving DecidableEq, Repr

inductive ComponentId where
  | asyncTextInput (questionId : String)
  | asyncTextAnswer (questionId text : String)
  | recoveryAbandonDecision (proposalId : String) (revision : Int64) (decision : AbandonDecision)
  | recoveryPublicationDecision (proposalId : String) (revision : Int64)
      (decision : PublicationDecision)
  | asyncChoice (questionId : String) (option : Nat)
  | busy (choiceId : String) (action : BusyAction)
  | approval (threadId : String) (answer : ApprovalAnswer)
  | boundApproval (threadFingerprint requestFingerprint : String) (answer : ApprovalAnswer)
  | input (threadId value : String)
  | boundInput (threadFingerprint requestFingerprint value : String)
deriving DecidableEq, Repr

inductive ComponentError where
  | tooLong
  | invalid
deriving DecidableEq, Repr

/-- `str::trim` -/
def trimmedText (text : String) : String := String.ofList (trim text.toList)

def bounded (value : String) : Except ComponentError String :=
  if value.length ≤ maxCustomIdChars then .ok value else .error .tooLong

/-- What passes is ASCII, so that its scalars are its bytes. -/
def validFingerprint (value : String) (length : Nat) : Bool :=
  value.length == length && value.toList.all lowerHexdigit

def validChoiceId (value : String) : Bool := validFingerprint value 24

def safeInputValue (value : String) : Bool :=
  1 ≤ value.length && value.length ≤ 20 &&
    value.toList.all fun c => c.isAlphanum || c == '_' || c == '.' || c == '-'

def parseBusyAction (value : String) : Option BusyAction :=
  match trimmedText value with
  | "steer" => some .steer
  | "queue" => some .queue
  | "stop" => some .stop
  | "ignore" => some .ignore
  | _ => none

def parseBoundApproval (value : String) : Option ApprovalAnswer :=
  match value with
  | "1" => some .approve
  | "2" => some .approveSession
  | "3" => some .reject
  | "cancel" => some .cancel
  | _ => none

def parseApproval (value : String) : Option ApprovalAnswer :=
  parseBoundApproval (trimmedText value)

/-- A recovery decision: the proposal, its revision and one of two letters. -/
def parseDecision {δ : Type} (kind : String → Int64 → δ → ComponentId) (a h : δ)
    (id revision choice : String) : Option ComponentId :=
  (parseInt64 revision).bind fun number =>
    if !validFingerprint id 32 || number ≤ 0 || toString number != revision then none
    else match choice with
      | "a" => some (kind id number a)
      | "h" => some (kind id number h)
      | _ => none

/-- `recovery_abandonment::parse` -/
def parseAbandonment : String → String → String → Option ComponentId :=
  parseDecision .recoveryAbandonDecision .abandonOnly .keepHeld

/-- `recovery_publication::parse` -/
def parsePublication : String → String → String → Option ComponentId :=
  parseDecision .recoveryPublicationDecision .approveExact .keepHeld

/-- The match of `parse_component_id`, on what stands between the colons. -/
def parseParts (parts : List String) : Option ComponentId :=
  match parts with
  | ["codex_async_other", question] =>
    if validFingerprint question 64 then some (.asyncTextInput question) else none
  | ["codex_discard", "v1", proposal, revision, decision] =>
    parseAbandonment proposal revision decision
  | ["codex_pub", "v1", proposal, revision, decision] =>
    parsePublication proposal revision decision
  | ["codex_async", question, option] =>
    if validFingerprint question 64 then
      (parseUnsigned (2 ^ 64) option).bind fun index =>
        if index < 25 && toString index == option then some (.asyncChoice question index)
        else none
    else none
  | ["codex_busy", choiceId, action] =>
    if validChoiceId choiceId then (parseBusyAction action).map (.busy choiceId) else none
  | ["codex_approval", threadId, answer] =>
    if trimmedText threadId != "" then
      (parseApproval answer).map (.approval (trimmedText threadId))
    else none
  | ["codex_approval", "v2", thread, request, answer] =>
    if validFingerprint thread 16 && validFingerprint request 32 then
      (parseBoundApproval answer).map (.boundApproval thread request)
    else none
  | ["codex_input", threadId, value] =>
    if trimmedText threadId != "" && safeInputValue (trimmedText value) then
      some (.input (trimmedText threadId) (trimmedText value))
    else none
  | ["codex_input", "v2", thread, request, value] =>
    if validFingerprint thread 16 && validFingerprint request 32 && safeInputValue value then
      some (.boundInput thread request value)
    else none
  | _ => none

/-- `custom_id.split(':')` -/
def colonParts (customId : String) : List String :=
  (customId.toList.splitOn ':').map String.ofList

def parseComponentId (customId : String) : Option ComponentId :=
  if maxCustomIdChars < customId.length then none else parseParts (colonParts customId)

def formatInputChoice (threadId value : String) : Except ComponentError String :=
  let value := trimmedText value
  if trimmedText threadId == "" || !safeInputValue value then .error .invalid
  else bounded ("codex_input:" ++ trimmedText threadId ++ ":" ++ value)

/-- The component that `route_component` finds behind the id of a used component; a select
menu sends the values that were chosen. -/
def routeComponent (customId : String) (values : List String) : Option ComponentId :=
  match "codex_async_select:".toList.isPrefixOf? customId.toList with
  | some question =>
    match values with
    | [value] =>
      parseComponentId ("codex_async:" ++ String.ofList question ++ ":" ++ value)
    | _ => none
  | none => parseComponentId customId

end CodexRemote.Discord

import CodexRemote.Discord.Components

/-! # Rows of components

What is sent with a question or a busy notice: buttons, and one select menu.
-/

namespace CodexRemote.Discord

open Foundations

inductive ButtonStyle where
  | primary
  | secondary
  | success
  | danger
deriving DecidableEq, Repr

structure Button where
  customId : String
  label : String
  style : ButtonStyle
  disabled : Bool
deriving DecidableEq, Repr

structure SelectOption where
  label : String
  value : String
deriving DecidableEq, Repr

structure SelectMenu where
  customId : String
  minValues : Nat
  maxValues : Nat
  options : List SelectOption
  placeholder : String
deriving DecidableEq, Repr

inductive RowItem where
  | button (pressed : Button)
  | select (menu : SelectMenu)
deriving DecidableEq, Repr

def RowItem.button? : RowItem → Option Button
  | .button pressed => some pressed
  | .select _ => none

def RowItem.select? : RowItem → Option SelectMenu
  | .button _ => none
  | .select menu => some menu

structure ActionRow where
  components : List RowItem
deriving DecidableEq, Repr

def buttonRow (buttons : List Button) : ActionRow := ⟨buttons.map .button⟩

def ActionRow.buttons (row : ActionRow) : List Button := row.components.filterMap RowItem.button?

def ActionRow.selects (row : ActionRow) : List SelectMenu := row.components.filterMap RowItem.select?

/-! ## Fingerprints -/

inductive ComponentRequestId where
  | string (value : String)
  | integer (value : Int64)
deriving DecidableEq, Repr

/-- `to_be_bytes` -/
def beBytes (value : UInt64) : List UInt8 :=
  ([56, 48, 40, 32, 24, 16, 8, 0] : List UInt64).map fun shift => (value >>> shift).toUInt8

section Rows

variable (sha256 : List UInt8 → Vector UInt8 32)

def threadFingerprint (threadId : String) : Except ComponentError String :=
  let threadId := trimmedText threadId
  if threadId == "" then .error .invalid
  else .ok (hexEncode ((sha256 (utf8Bytes "cdr-discord/component-thread/v2" ++
    beBytes (.ofNat threadId.utf8ByteSize) ++ utf8Bytes threadId)).toList.take 8))

def requestFingerprint (generation : UInt64) (occurrence : Vector UInt8 16)
    (requestId : ComponentRequestId) : String :=
  let request := match requestId with
    | .string value =>
      utf8Bytes "\x00request-string" ++ beBytes (.ofNat value.utf8ByteSize) ++ utf8Bytes value
    | .integer value => utf8Bytes "\x00request-integer" ++ beBytes value.toUInt64
  hexEncode ((sha256 (utf8Bytes "cdr-discord/component-request-binding/v3" ++
    utf8Bytes "\x00generation" ++ beBytes generation ++
    utf8Bytes "\x00occurrence" ++ occurrence.toList ++ request)).toList.take 16)

/-! ## Rows -/

def busyButtonRow (choiceId : String) (allowSteer : Bool) : Except ComponentError ActionRow :=
  if !validChoiceId choiceId then .error .invalid
  else do
    let buttons ← [
      (if allowSteer then "Steer now" else "Steer (check)", "steer", ButtonStyle.primary),
      ("Queue next", "queue", .secondary),
      ("Stop reply", "stop", .danger),
      ("Ignore", "ignore", .secondary)].mapM fun (label, action, style) => do
        let customId ← bounded ("codex_busy:" ++ choiceId ++ ":" ++ action)
        pure { customId, label, style, disabled := false : Button }
    pure (buttonRow buttons)

/-- The four answers to an approval, under ids that begin with `start`. -/
def approvalRow (start : String) : Except ComponentError ActionRow := do
  let buttons ← [
    ("Approve", "1", ButtonStyle.success),
    ("Approve session", "2", .primary),
    ("Reject", "3", .danger),
    ("Cancel", "cancel", .secondary)].mapM fun (label, answer, style) => do
      let customId ← bounded (start ++ ":" ++ answer)
      pure { customId, label, style, disabled := false : Button }
  pure (buttonRow buttons)

def approvalButtonRow (threadId : String) : Except ComponentError ActionRow :=
  if trimmedText threadId == "" then .error .invalid
  else approvalRow ("codex_approval:" ++ trimmedText threadId)

def boundApprovalButtonRow (threadId : String) (generation : UInt64)
    (occurrence : Vector UInt8 16) (requestId : ComponentRequestId) :
    Except ComponentError ActionRow := do
  let thread ← threadFingerprint sha256 threadId
  let request := requestFingerprint sha256 generation occurrence requestId
  approvalRow ("codex_approval:v2:" ++ thread ++ ":" ++ request)

/-- A button for each of the first five options, with the id that `format` gives its value. -/
def inputRow (format : String → Except ComponentError String) (options : List (String × String)) :
    Except ComponentError ActionRow := do
  let buttons ← (options.take 5).mapM fun (value, label) =>
    let label := String.ofList ((trimmedText label).toList.take 80)
    if label == "" then .error .invalid
    else do
      let customId ← format value
      pure { customId, label, style := .primary, disabled := false : Button }
  pure (buttonRow buttons)

def inputButtonRow (threadId : String) (options : List (String × String)) :
    Except ComponentError ActionRow :=
  if options.isEmpty then .error .invalid
  else inputRow (formatInputChoice threadId) options

def boundInputButtonRow (threadId : String) (generation : UInt64) (occurrence : Vector UInt8 16)
    (requestId : ComponentRequestId) (options : List (String × String)) :
    Except ComponentError ActionRow :=
  if options.isEmpty then .error .invalid
  else do
    let thread ← threadFingerprint sha256 threadId
    let request := requestFingerprint sha256 generation occurrence requestId
    inputRow (fun value =>
      if !safeInputValue (trimmedText value) then .error .invalid
      else bounded ("codex_input:v2:" ++ thread ++ ":" ++ request ++ ":" ++ trimmedText value))
      options

end Rows

/-! ## Questions that are answered later -/

def asyncChoiceButton (id : String) (index : Nat) (option : String) : Button :=
  let label := toString (index + 1) ++ ". " ++ option
  { customId := "codex_async:" ++ id ++ ":" ++ toString index
    label := if 80 < label.length then String.ofList (label.toList.take 79) ++ "…" else label
    style := .primary
    disabled := false }

def asyncChoiceRows (id : String) (options : List String) :
    Except ComponentError (List ActionRow) :=
  if !validFingerprint id 64 || options.isEmpty || 25 < options.length ||
      options.any (fun option => trimmedText option == "") then .error .invalid
  else .ok (((options.mapIdx (asyncChoiceButton id)).toChunks 5).map buttonRow)

def asyncSelectOption (index : Nat) (option : String) : SelectOption where
  label := String.ofList ((toString (index + 1) ++ ". " ++ option).toList.take 100)
  value := toString index

def asyncSelect (id : String) (options : List String) : SelectMenu where
  customId := "codex_async_select:" ++ id
  minValues := 1
  maxValues := 1
  options := options.mapIdx asyncSelectOption
  placeholder := "답변 선택"

def asyncOther (id : String) (options : List String) : Button where
  customId := "codex_async_other:" ++ id
  label := if options.isEmpty then "답변 입력" else "다른 답변 입력"
  style := .secondary
  disabled := false

/-- The free-text button joins the last row where that has room for another button. -/
def pushOther (rows : List ActionRow) (other : Button) : List ActionRow :=
  match rows.getLast? with
  | some row =>
    if row.components.length < 5 && row.components.all (·.button?.isSome) then
      rows.dropLast ++ [⟨row.components ++ [.button other]⟩]
    else rows ++ [buttonRow [other]]
  | none => rows ++ [buttonRow [other]]

def asyncAnswerRows (id : String) (options : List String) :
    Except ComponentError (List ActionRow) :=
  if !validFingerprint id 64 then .error .invalid
  else do
    let choices := if options.isEmpty then .ok [] else asyncChoiceRows id options
    let rows ← choices
    let rows := if options.length == 25 then [⟨[.select (asyncSelect id options)]⟩] else rows
    pure (pushOther rows (asyncOther id options))

/-! ## Recovery decisions -/

/-- The two buttons of a recovery decision. -/
def decisionRows (kind : String) (approve : String × ButtonStyle) (hold : String) (id : String)
    (revision : Int64) : Except ComponentError (List ActionRow) :=
  if !validFingerprint id 32 || revision ≤ 0 then .error .invalid
  else do
    let buttons ← [
      ("a", approve.1, approve.2),
      ("h", hold, ButtonStyle.secondary)].mapM fun (choice, label, style) => do
        let customId ←
          bounded (kind ++ ":v1:" ++ id ++ ":" ++ toString revision ++ ":" ++ choice)
        pure { customId, label, style, disabled := false : Button }
    pure [buttonRow buttons]

def abandonmentDecisionRows : String → Int64 → Except ComponentError (List ActionRow) :=
  decisionRows "codex_discard" ("Abandon saved request only", .danger) "Keep held"

def publicationDecisionRows : String → Int64 → Except ComponentError (List ActionRow) :=
  decisionRows "codex_pub" ("Approve exact recovery intent", .primary) "Keep recovery held"

end CodexRemote.Discord

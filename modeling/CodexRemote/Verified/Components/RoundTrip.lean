import CodexRemote.Verified.Components.Ids

/-! # Component ids round trip

Every id that a row builder puts on a button is read back as what the button was built
for, and every choice of the one select menu is routed to its option.
-/

namespace CodexRemote.Verified.Components

open Foundations Discord

/-! ## Rows -/

@[simp] theorem buttonRow_buttons (buttons : List Button) :
    (buttonRow buttons).buttons = buttons := by
  simp only [buttonRow, ActionRow.buttons, List.filterMap_map]
  show buttons.filterMap some = buttons
  exact List.filterMap_some

@[simp] theorem buttonRow_selects (buttons : List Button) : (buttonRow buttons).selects = [] := by
  simp [buttonRow, ActionRow.selects, List.filterMap_map, RowItem.select?]

/-- The ids on the buttons of some rows. -/
def buttonIds (rows : List ActionRow) : List String :=
  (rows.flatMap ActionRow.buttons).map Button.customId

theorem parsed_row (buttons : List Button) :
    (buttonIds [buttonRow buttons]).map parseComponentId =
      buttons.map fun button => parseComponentId button.customId := by
  simp [buttonIds]

theorem busy_words : ["steer", "queue", "stop", "ignore"].map parseBusyAction =
    [some .steer, some .queue, some .stop, some .ignore] := by decide

theorem busy_words_plain : ∀ word ∈ ["steer", "queue", "stop", "ignore"], ':' ∉ word.toList := by
  decide

variable {row : ActionRow} {options : List String} {question : String}

theorem busy_round_trip {choiceId : String} {allowSteer : Bool}
    (built : busyButtonRow choiceId allowSteer = .ok row) :
    (buttonIds [row]).map parseComponentId =
      [BusyAction.steer, .queue, .stop, .ignore].map fun action =>
        some (.busy choiceId action) := by
  simp only [busyButtonRow] at built
  split at built
  · cases built
  · next valid =>
    simp only [Bool.not_eq_true, Bool.not_eq_false'] at valid
    obtain ⟨buttons, made, last⟩ := bind_ok.1 built
    cases last
    rw [parsed_row, mapM_map (fun button => parseComponentId button.customId)
      (fun spec => (parseBusyAction spec.2.1).map (.busy choiceId)) ?_ made]
    · show (["steer", "queue", "stop", "ignore"].map parseBusyAction).map _ = _
      rw [busy_words]
      rfl
    · intro spec member button ran
      obtain ⟨id, fits, last⟩ := bind_ok.1 ran
      cases last
      have word : spec.2.1 ∈ ["steer", "queue", "stop", "ignore"] :=
        List.mem_map_of_mem (f := fun spec => spec.2.1) member
      exact parse_busy valid (busy_words_plain _ word) fits

/-- The answers of the approval buttons, in the order of the row. -/
def approvalAnswers : List ApprovalAnswer := [.approve, .approveSession, .reject, .cancel]

theorem approval_words : ["1", "2", "3", "cancel"].map parseBoundApproval =
    approvalAnswers.map some := by decide

theorem approval_words_trimmed : ["1", "2", "3", "cancel"].map parseApproval =
    approvalAnswers.map some := by decide

theorem approval_words_plain : ∀ word ∈ ["1", "2", "3", "cancel"], ':' ∉ word.toList := by decide

/-- A row of answers reads back as the ids under `start` do, each for itself. -/
theorem approvalRow_read {start : String} (meant : String → Option ComponentId)
    (each : ∀ word id, ':' ∉ word.toList → bounded (start ++ ":" ++ word) = .ok id →
      parseComponentId id = meant word)
    (built : approvalRow start = .ok row) :
    (buttonIds [row]).map parseComponentId = ["1", "2", "3", "cancel"].map meant := by
  obtain ⟨buttons, made, last⟩ := bind_ok.1 built
  cases last
  rw [parsed_row, mapM_map (fun button => parseComponentId button.customId)
    (fun spec => meant spec.2.1) ?_ made]
  · rfl
  · intro spec member button ran
    obtain ⟨id, fits, last⟩ := bind_ok.1 ran
    cases last
    have word : spec.2.1 ∈ ["1", "2", "3", "cancel"] :=
      List.mem_map_of_mem (f := fun spec => spec.2.1) member
    exact each _ id (approval_words_plain _ word) fits

theorem approval_round_trip {threadId : String} (plain : ':' ∉ (trimmedText threadId).toList)
    (built : approvalButtonRow threadId = .ok row) :
    (buttonIds [row]).map parseComponentId =
      approvalAnswers.map fun answer => some (.approval (trimmedText threadId) answer) := by
  simp only [approvalButtonRow] at built
  split at built
  · cases built
  · next named =>
    have read := approvalRow_read
      (fun word => (parseApproval word).map (.approval (trimmedText threadId)))
      (fun word id apart fits => parse_approval (by simpa using named) plain apart fits) built
    rw [read]
    show (["1", "2", "3", "cancel"].map parseApproval).map _ = _
    rw [approval_words_trimmed]
    rfl

section Bound

variable {sha256 : List UInt8 → Vector UInt8 32} {threadId thread : String}
  {generation : UInt64} {occurrence : Vector UInt8 16} {requestId : ComponentRequestId}

theorem bound_approval_round_trip (print : threadFingerprint sha256 threadId = .ok thread)
    (built : boundApprovalButtonRow sha256 threadId generation occurrence requestId = .ok row) :
    (buttonIds [row]).map parseComponentId = approvalAnswers.map fun answer =>
      some (.boundApproval thread (requestFingerprint sha256 generation occurrence requestId)
        answer) := by
  obtain ⟨_, same, rest⟩ := bind_ok.1 built
  cases print.symm.trans same
  have read := approvalRow_read (fun word => (parseBoundApproval word).map
      (.boundApproval thread (requestFingerprint sha256 generation occurrence requestId)))
    (fun word id apart fits => parse_bound_approval (threadFingerprint_valid print)
      (requestFingerprint_valid generation occurrence requestId) apart fits) rest
  rw [read]
  show (["1", "2", "3", "cancel"].map parseBoundApproval).map _ = _
  rw [approval_words]
  rfl

/-- A row of options reads back as the ids that `format` makes do, each for itself. -/
theorem inputRow_read {format : String → Except ComponentError String}
    {options : List (String × String)} (meant : String → Option ComponentId)
    (each : ∀ value id, format value = .ok id → parseComponentId id = meant value)
    (built : inputRow format options = .ok row) :
    (buttonIds [row]).map parseComponentId = (options.take 5).map fun option => meant option.1 := by
  obtain ⟨buttons, made, last⟩ := bind_ok.1 built
  cases last
  rw [parsed_row, mapM_map (fun button => parseComponentId button.customId)
    (fun option => meant option.1) ?_ made]
  intro option member button ran
  obtain ⟨value, label⟩ := option
  simp only at ran
  split at ran
  · cases ran
  · obtain ⟨id, fits, last⟩ := bind_ok.1 ran
    cases last
    exact each _ id fits

theorem input_round_trip {options : List (String × String)}
    (plain : ':' ∉ (trimmedText threadId).toList)
    (built : inputButtonRow threadId options = .ok row) :
    (buttonIds [row]).map parseComponentId = (options.take 5).map fun option =>
      some (.input (trimmedText threadId) (trimmedText option.1)) := by
  simp only [inputButtonRow] at built
  split at built
  · cases built
  · exact inputRow_read (fun value => some (.input (trimmedText threadId) (trimmedText value)))
      (fun _ _ fits => parse_input plain fits) built

theorem bound_input_round_trip {options : List (String × String)}
    (print : threadFingerprint sha256 threadId = .ok thread)
    (built : boundInputButtonRow sha256 threadId generation occurrence requestId options =
      .ok row) :
    (buttonIds [row]).map parseComponentId = (options.take 5).map fun option =>
      some (.boundInput thread (requestFingerprint sha256 generation occurrence requestId)
        (trimmedText option.1)) := by
  simp only [boundInputButtonRow] at built
  split at built
  · cases built
  · obtain ⟨_, same, rest⟩ := bind_ok.1 built
    cases print.symm.trans same
    refine inputRow_read (fun value => some (.boundInput thread
      (requestFingerprint sha256 generation occurrence requestId) (trimmedText value)))
      (fun value id fits => ?_) rest
    split at fits
    · cases fits
    · next safe =>
      simp only [Bool.not_eq_true, Bool.not_eq_false'] at safe
      exact parse_bound_input (threadFingerprint_valid print)
        (requestFingerprint_valid generation occurrence requestId) safe fits

end Bound

/-! ## Questions that are answered later -/

theorem chunks_flatten {α : Type} (size : Nat) (items : List α) :
    (items.toChunks size).flatten = items := by
  have go : ∀ (size : Nat) (rest : List α) (open_ : Array α) (done : Array (List α)),
      (List.toChunks.go size rest open_ done).flatten =
        done.toList.flatten ++ open_.toList ++ rest := by
    intro size rest
    induction rest with
    | nil =>
      intro open_ done
      simp [List.toChunks.go]
    | cons item rest ih =>
      intro open_ done
      simp only [List.toChunks.go]
      split
      · simp [ih]
      · simp [ih]
  cases items with
  | nil => simp [List.toChunks]
  | cons item items =>
    cases size with
    | zero => simp [List.toChunks]
    | succ size => simp [List.toChunks, go]

theorem asyncChoiceRows_ok {rows : List ActionRow}
    (built : asyncChoiceRows question options = .ok rows) :
    validFingerprint question 64 = true ∧ options.length ≤ 25 ∧
      rows.flatMap ActionRow.buttons = options.mapIdx (asyncChoiceButton question) ∧
      rows.flatMap ActionRow.selects = [] := by
  simp only [asyncChoiceRows] at built
  split at built
  · cases built
  · next checks =>
    cases built
    simp only [Bool.or_eq_true, not_or, Bool.not_eq_true, Bool.not_eq_false',
      decide_eq_false_iff_not, Nat.not_lt] at checks
    refine ⟨checks.1.1.1, checks.1.2, ?_, ?_⟩
    · simp [List.flatMap_map, List.flatMap_id', chunks_flatten]
    · simp [List.flatMap_map]

theorem choices_read (valid : validFingerprint question 64 = true) (few : options.length ≤ 25) :
    (options.mapIdx (asyncChoiceButton question)).map
        (fun button => parseComponentId button.customId) =
      (List.range options.length).map fun index => some (.asyncChoice question index) := by
  apply List.ext_getElem
  · simp
  · intro index inside _
    simp only [List.length_map, List.length_mapIdx] at inside
    simp only [List.getElem_map, List.getElem_mapIdx, List.getElem_range]
    exact parse_async_choice valid (by omega)

theorem async_choice_round_trip
    {rows : List ActionRow} (built : asyncChoiceRows question options = .ok rows) :
    (buttonIds rows).map parseComponentId =
      (List.range options.length).map fun index => some (.asyncChoice question index) := by
  obtain ⟨valid, few, buttons, -⟩ := asyncChoiceRows_ok built
  rw [buttonIds, buttons, List.map_map]
  exact choices_read valid few

/-- The free-text button comes last, and the rest is as it was. -/
theorem pushOther_spec (rows : List ActionRow) (other : Button) :
    (pushOther rows other).flatMap ActionRow.buttons =
        rows.flatMap ActionRow.buttons ++ [other] ∧
      (pushOther rows other).flatMap ActionRow.selects = rows.flatMap ActionRow.selects := by
  cases last : rows.getLast? with
  | none => simp [pushOther, last]
  | some row =>
    simp only [pushOther, last]
    split
    · have whole : rows = rows.dropLast ++ [row] :=
        (List.dropLast_append_getLast? row last).symm
      have joined : (⟨row.components ++ [.button other]⟩ : ActionRow).buttons =
          row.buttons ++ [other] ∧
          (⟨row.components ++ [.button other]⟩ : ActionRow).selects = row.selects := by
        simp [ActionRow.buttons, ActionRow.selects, RowItem.button?, RowItem.select?]
      constructor
      · rw [congrArg (List.flatMap ActionRow.buttons) whole]
        simp [joined]
      · rw [congrArg (List.flatMap ActionRow.selects) whole]
        simp [joined]
    · simp

theorem asyncAnswerRows_ok {rows : List ActionRow}
    (built : asyncAnswerRows question options = .ok rows) :
    validFingerprint question 64 = true ∧ options.length ≤ 25 ∧
      rows.flatMap ActionRow.buttons =
        (if options.length = 25 then [] else options.mapIdx (asyncChoiceButton question)) ++
          [asyncOther question options] ∧
      rows.flatMap ActionRow.selects =
        if options.length = 25 then [asyncSelect question options] else [] := by
  simp only [asyncAnswerRows] at built
  split at built
  · cases built
  · next checked =>
    simp only [Bool.not_eq_true, Bool.not_eq_false'] at checked
    obtain ⟨choices, made, last⟩ := bind_ok.1 built
    cases last
    -- without options there are no rows of choices yet
    have rows_of : options.length ≤ 25 ∧
        choices.flatMap ActionRow.buttons = options.mapIdx (asyncChoiceButton question) ∧
        choices.flatMap ActionRow.selects = [] := by
      split at made
      · next none_ =>
        cases made
        rw [List.isEmpty_iff] at none_
        simp [none_]
      · exact (asyncChoiceRows_ok made).2
    obtain ⟨few, buttons, selects⟩ := rows_of
    obtain ⟨pushed, kept⟩ := pushOther_spec
      (if options.length == 25 then [⟨[.select (asyncSelect question options)]⟩] else choices)
      (asyncOther question options)
    refine ⟨checked, few, ?_, ?_⟩
    · rw [pushed]
      split
      · next full =>
        rw [if_pos (by simpa using full)]
        rfl
      · next fewer => rw [if_neg (by simpa using fewer), buttons]
    · rw [kept]
      split
      · next full =>
        rw [if_pos (by simpa using full)]
        rfl
      · next fewer => rw [if_neg (by simpa using fewer), selects]

theorem async_answer_round_trip
    {rows : List ActionRow} (built : asyncAnswerRows question options = .ok rows) :
    (buttonIds rows).map parseComponentId =
      ((if options.length = 25 then []
        else (List.range options.length).map (ComponentId.asyncChoice question)) ++
          [ComponentId.asyncTextInput question]).map some := by
  obtain ⟨valid, few, buttons, -⟩ := asyncAnswerRows_ok built
  have other : parseComponentId (asyncOther question options).customId =
      some (.asyncTextInput question) := parse_async_other valid
  rw [buttonIds, buttons, List.map_map, List.map_append, List.map_append]
  congr 1
  · split
    · rfl
    · rw [List.map_map]
      exact choices_read valid few
  · simp [other]

theorem asyncSelect_values (options : List String) :
    (options.mapIdx asyncSelectOption).map SelectOption.value =
      (List.range options.length).map toString := by
  have value : ∀ index option, (asyncSelectOption index option).value = toString index :=
    fun _ _ => rfl
  apply List.ext_getElem
  · simp
  · intro index _ _
    rw [List.getElem_map, List.getElem_mapIdx, value, List.getElem_map, List.getElem_range]

/-- The menu of a question offers its options, and sends each of them under its own index. -/
theorem async_select_routed {rows : List ActionRow}
    {menu : SelectMenu} (built : asyncAnswerRows question options = .ok rows)
    (shown : menu ∈ rows.flatMap ActionRow.selects) :
    menu.options.map (fun choice => routeComponent menu.customId [choice.value]) =
      (List.range options.length).map fun index => some (.asyncChoice question index) := by
  obtain ⟨valid, few, -, selects⟩ := asyncAnswerRows_ok built
  rw [selects] at shown
  split at shown
  · rw [List.mem_singleton] at shown
    subst shown
    have routed : ∀ index ∈ List.range options.length,
        routeComponent (asyncSelect question options).customId [toString index] =
          some (.asyncChoice question index) := by
      intro index inside
      rw [List.mem_range] at inside
      exact route_async_select valid (by omega)
    have sent : (asyncSelect question options).options.map
          (fun choice => routeComponent (asyncSelect question options).customId [choice.value]) =
        ((options.mapIdx asyncSelectOption).map SelectOption.value).map
          (fun value => routeComponent (asyncSelect question options).customId [value]) := by
      rw [List.map_map]
      rfl
    rw [sent, asyncSelect_values, List.map_map]
    exact List.map_congr_left routed
  · simp at shown

/-! ## Recovery decisions -/

theorem decision_round_trip {δ : Type} {head : String} {approve : String × ButtonStyle}
    {hold id : String} {revision : Int64} {kind : String → Int64 → δ → ComponentId} {a h : δ}
    {rows : List ActionRow}
    (reads : ∀ choice, parseParts [head, "v1", id, toString revision, choice] =
      parseDecision kind a h id (toString revision) choice)
    (word : ':' ∉ head.toList) (built : decisionRows head approve hold id revision = .ok rows) :
    (buttonIds rows).map parseComponentId = [some (kind id revision a), some (kind id revision h)] := by
  simp only [decisionRows] at built
  split at built
  · cases built
  · next checks =>
    simp only [Bool.or_eq_true, not_or, Bool.not_eq_true, Bool.not_eq_false',
      decide_eq_true_eq] at checks
    obtain ⟨valid, positive⟩ := checks
    obtain ⟨buttons, made, last⟩ := bind_ok.1 built
    cases last
    rw [parsed_row, mapM_map (fun button => parseComponentId button.customId)
      (fun spec => parseDecision kind a h id (toString revision) spec.1) ?_ made]
    · have choices := @parse_decision δ kind a h id revision valid positive
      simp [choices]
    · intro spec member button ran
      obtain ⟨printed, fits, last⟩ := bind_ok.1 ran
      cases last
      have choice : spec.1 ∈ ["a", "h"] := List.mem_map_of_mem (f := Prod.fst) member
      have apart : ∀ choice ∈ ["a", "h"], ':' ∉ choice.toList := by decide
      obtain ⟨joined, short⟩ := bounded_ok fits
      subst joined
      rw [parse_joined [head, "v1", id, toString revision, spec.1] short]
      · exact reads spec.1
      · simp
      · simp
      · have others := colon_not_revision revision
        simp only [List.mem_cons, List.not_mem_nil, or_false]
        intro part member
        obtain rfl | rfl | rfl | rfl | rfl := member
        · exact word
        · decide
        · exact colon_not_fingerprint valid
        · exact others
        · exact apart _ choice

/-! ## All builders -/

/-- A call of one of the builders. -/
inductive BuilderCall where
  | busy (choiceId : String) (allowSteer : Bool)
  | approval (threadId : String)
  | boundApproval (threadId : String) (generation : UInt64) (occurrence : Vector UInt8 16)
      (requestId : ComponentRequestId)
  | input (threadId : String) (options : List (String × String))
  | boundInput (threadId : String) (generation : UInt64) (occurrence : Vector UInt8 16)
      (requestId : ComponentRequestId) (options : List (String × String))
  | inputChoice (threadId value : String)
  | asyncChoice (question : String) (options : List String)
  | asyncAnswer (question : String) (options : List String)
  | abandonment (proposal : String) (revision : Int64)
  | publication (proposal : String) (revision : Int64)

/-- The rows that a call returns; the id of `format_input_choice` stands on a button alone. -/
def BuilderCall.rows (sha256 : List UInt8 → Vector UInt8 32) :
    BuilderCall → Except ComponentError (List ActionRow)
  | .busy choiceId allowSteer => (busyButtonRow choiceId allowSteer).map ([·])
  | .approval threadId => (approvalButtonRow threadId).map ([·])
  | .boundApproval threadId generation occurrence requestId =>
    (boundApprovalButtonRow sha256 threadId generation occurrence requestId).map ([·])
  | .input threadId options => (inputButtonRow threadId options).map ([·])
  | .boundInput threadId generation occurrence requestId options =>
    (boundInputButtonRow sha256 threadId generation occurrence requestId options).map ([·])
  | .inputChoice threadId value =>
    (formatInputChoice threadId value).map fun id => [buttonRow [⟨id, value, .primary, false⟩]]
  | .asyncChoice question options => asyncChoiceRows question options
  | .asyncAnswer question options => asyncAnswerRows question options
  | .abandonment proposal revision => abandonmentDecisionRows proposal revision
  | .publication proposal revision => publicationDecisionRows proposal revision

/-- What the buttons of a call were built for, in their order. -/
def BuilderCall.meant (sha256 : List UInt8 → Vector UInt8 32) : BuilderCall → List ComponentId
  | .busy choiceId _ => [BusyAction.steer, .queue, .stop, .ignore].map (.busy choiceId)
  | .approval threadId => approvalAnswers.map (.approval (trimmedText threadId))
  | .boundApproval threadId generation occurrence requestId =>
    match threadFingerprint sha256 threadId with
    | .ok thread => approvalAnswers.map
        (.boundApproval thread (requestFingerprint sha256 generation occurrence requestId))
    | .error _ => []
  | .input threadId options => (options.take 5).map fun option =>
    .input (trimmedText threadId) (trimmedText option.1)
  | .boundInput threadId generation occurrence requestId options =>
    match threadFingerprint sha256 threadId with
    | .ok thread => (options.take 5).map fun option => .boundInput thread
        (requestFingerprint sha256 generation occurrence requestId) (trimmedText option.1)
    | .error _ => []
  | .inputChoice threadId value => [.input (trimmedText threadId) (trimmedText value)]
  | .asyncChoice question options => (List.range options.length).map (.asyncChoice question)
  | .asyncAnswer question options =>
    (if options.length = 25 then []
      else (List.range options.length).map (ComponentId.asyncChoice question)) ++
        [.asyncTextInput question]
  | .abandonment proposal revision =>
    [.recoveryAbandonDecision proposal revision .abandonOnly,
      .recoveryAbandonDecision proposal revision .keepHeld]
  | .publication proposal revision =>
    [.recoveryPublicationDecision proposal revision .approveExact,
      .recoveryPublicationDecision proposal revision .keepHeld]

/-- A thread id that is written into an id as it is holds no colon. -/
def BuilderCall.PlainThread : BuilderCall → Prop
  | .approval threadId | .input threadId _ | .inputChoice threadId _ =>
    ':' ∉ (trimmedText threadId).toList
  | _ => True

theorem fingerprinted {sha256 : List UInt8 → Vector UInt8 32} {threadId : String} {β : Type}
    {next : String → Except ComponentError β} {b : β}
    (result : (threadFingerprint sha256 threadId >>= next) = .ok b) :
    ∃ thread, threadFingerprint sha256 threadId = .ok thread :=
  (bind_ok.1 result).imp fun _ both => both.1

theorem BuilderCall.read {sha256 : List UInt8 → Vector UInt8 32} {call : BuilderCall}
    {rows : List ActionRow} (plain : call.PlainThread) (built : call.rows sha256 = .ok rows) :
    (buttonIds rows).map parseComponentId = (call.meant sha256).map some := by
  cases call with
  | busy choiceId allowSteer =>
    obtain ⟨row, made, one⟩ := map_ok.1 built
    subst one
    rw [busy_round_trip made]
    rfl
  | approval threadId =>
    obtain ⟨row, made, one⟩ := map_ok.1 built
    subst one
    rw [approval_round_trip plain made]
    rfl
  | boundApproval threadId generation occurrence requestId =>
    obtain ⟨row, made, one⟩ := map_ok.1 built
    subst one
    obtain ⟨thread, print⟩ := fingerprinted made
    rw [bound_approval_round_trip print made, BuilderCall.meant, print]
    rfl
  | input threadId options =>
    obtain ⟨row, made, one⟩ := map_ok.1 built
    subst one
    rw [input_round_trip plain made, BuilderCall.meant, List.map_map]
    rfl
  | boundInput threadId generation occurrence requestId options =>
    obtain ⟨row, made, one⟩ := map_ok.1 built
    subst one
    have print : ∃ thread, threadFingerprint sha256 threadId = .ok thread := by
      simp only [boundInputButtonRow] at made
      split at made
      · cases made
      · exact fingerprinted made
    obtain ⟨thread, print⟩ := print
    rw [bound_input_round_trip print made, BuilderCall.meant, print, List.map_map]
    rfl
  | inputChoice threadId value =>
    obtain ⟨id, made, one⟩ := map_ok.1 built
    subst one
    rw [parsed_row, BuilderCall.meant, List.map_singleton, parse_input plain made]
    rfl
  | asyncChoice question options =>
    rw [async_choice_round_trip built, BuilderCall.meant, List.map_map]
    rfl
  | asyncAnswer question options => exact async_answer_round_trip built
  | abandonment proposal revision =>
    exact decision_round_trip (fun _ => rfl) (by decide) built
  | publication proposal revision =>
    exact decision_round_trip (fun _ => rfl) (by decide) built

/-- Every button reads back as what it was built for, provided that a thread id written out
holds no colon; the choices of a menu are routed to their options. -/
theorem component_ids_round_trip (sha256 : List UInt8 → Vector UInt8 32) (call : BuilderCall)
    (rows : List ActionRow) (plain : call.PlainThread) (built : call.rows sha256 = .ok rows) :
    (buttonIds rows).map parseComponentId = (call.meant sha256).map some ∧
      ∀ question options, call = .asyncAnswer question options →
        ∀ menu ∈ rows.flatMap ActionRow.selects,
          menu.options.map (fun choice => routeComponent menu.customId [choice.value]) =
            (List.range options.length).map fun index => some (.asyncChoice question index) := by
  refine ⟨call.read plain built, ?_⟩
  intro question options answers menu shown
  subst answers
  exact async_select_routed built shown

def exampleQuestion : String := String.ofList (List.replicate 64 'a')

def exampleOptions : List String := List.replicate 25 "same"

/-- A thread id that spells the rest of a bound id. -/
def exampleThread : String := "v2:0123456789abcdef:0123456789abcdef0123456789abcdef"

def exampleSha256 (_ : List UInt8) : Vector UInt8 32 := .replicate 32 0xAB

theorem validFingerprint_replicate (n : Nat) :
    validFingerprint (String.ofList (List.replicate n 'a')) n = true := by
  rw [validFingerprint, String.length_ofList, String.toList_ofList, List.length_replicate,
    List.all_replicate, beq_self_eq_true, Bool.true_and]
  split
  · rfl
  · decide

theorem exampleQuestion_valid : validFingerprint exampleQuestion 64 = true :=
  validFingerprint_replicate 64

theorem exampleRows_built : asyncAnswerRows exampleQuestion exampleOptions =
    .ok (pushOther [⟨[.select (asyncSelect exampleQuestion exampleOptions)]⟩]
      (asyncOther exampleQuestion exampleOptions)) := by
  have named : exampleOptions.any (fun option => trimmedText option == "") = false := by
    rw [exampleOptions, List.any_replicate]
    decide
  have choices : asyncChoiceRows exampleQuestion exampleOptions =
      .ok (((exampleOptions.mapIdx (asyncChoiceButton exampleQuestion)).toChunks 5).map buttonRow) := by
    refine if_neg ?_
    rw [exampleQuestion_valid, named]
    decide
  refine (if_neg (by rw [exampleQuestion_valid]; decide)).trans ?_
  exact bind_ok.2 ⟨_, (if_neg (by decide)).trans choices, rfl⟩

theorem full_question_read :
    (buttonIds (pushOther [⟨[.select (asyncSelect exampleQuestion exampleOptions)]⟩]
      (asyncOther exampleQuestion exampleOptions))).map parseComponentId =
        [some (.asyncTextInput exampleQuestion)] ∧
      (asyncSelect exampleQuestion exampleOptions).options.map (fun choice =>
          routeComponent ("codex_async_select:" ++ exampleQuestion) [choice.value]) =
        (List.range 25).map fun index => some (.asyncChoice exampleQuestion index) := by
  have read := component_ids_round_trip exampleSha256
    (.asyncAnswer exampleQuestion exampleOptions) _ trivial exampleRows_built
  exact ⟨read.1, read.2 _ _ rfl (asyncSelect exampleQuestion exampleOptions)
    (List.mem_cons_self ..)⟩

/-- A row that leaves seven characters for the answers is built. -/
theorem approvalRow_built {start : String} (short : start.length ≤ 93) :
    ∃ row, approvalRow start = .ok row := by
  have fits : ∀ answer : String, answer.length ≤ 6 →
      bounded (start ++ ":" ++ answer) = .ok (start ++ ":" ++ answer) := by
    intro answer few
    have colon : ":".length = 1 := rfl
    refine if_pos ?_
    rw [String.length_append, String.length_append, maxCustomIdChars]
    omega
  refine ⟨_, bind_ok.2 ⟨_, (mapM_total ?_).choose_spec, rfl⟩⟩
  simp only [List.forall_mem_cons]
  exact ⟨⟨_, bind_ok.2 ⟨_, fits "1" (by decide), rfl⟩⟩, ⟨_, bind_ok.2 ⟨_, fits "2" (by decide), rfl⟩⟩,
    ⟨_, bind_ok.2 ⟨_, fits "3" (by decide), rfl⟩⟩, ⟨_, bind_ok.2 ⟨_, fits "cancel" (by decide), rfl⟩⟩,
    List.forall_mem_nil _⟩

theorem menu_id_misread (valid : validFingerprint question 64 = true) :
    parseComponentId ("codex_async_select:" ++ question) = none := by
  have size := fingerprint_length valid
  have start : "codex_async_select:".length = 19 := rfl
  rw [parse_joined ["codex_async_select", question]]
  · rfl
  · rw [String.length_append, maxCustomIdChars]
    omega
  · simp
  · simp
  · simp only [List.forall_mem_cons]
    exact ⟨by decide, colon_not_fingerprint valid, List.forall_mem_nil _⟩

/-- The id of a full question's menu is no component id, and an approval row for a thread id
with colons in it can be read as one that is bound to a request. -/
theorem menu_and_colons_misread :
    (∃ rows, asyncAnswerRows exampleQuestion exampleOptions = .ok rows ∧
      ∃ menu ∈ rows.flatMap ActionRow.selects, parseComponentId menu.customId = none) ∧
    (approvalButtonRow exampleThread).toOption.map
        (fun row => (buttonIds [row]).map parseComponentId) =
      some (approvalAnswers.map fun answer =>
        some (.boundApproval "0123456789abcdef" "0123456789abcdef0123456789abcdef" answer)) := by
  constructor
  · exact ⟨_, exampleRows_built, asyncSelect exampleQuestion exampleOptions,
      List.mem_cons_self .., menu_id_misread exampleQuestion_valid⟩
  · have start : "codex_approval:" ++ trimmedText exampleThread =
        "codex_approval:v2:" ++ "0123456789abcdef" ++ ":" ++ "0123456789abcdef0123456789abcdef" := by
      decide +kernel
    have named : (trimmedText exampleThread == "") = false := by decide +kernel
    obtain ⟨row, made⟩ : ∃ row, approvalRow ("codex_approval:" ++ trimmedText exampleThread) =
        .ok row := by
      rw [start]
      exact approvalRow_built (by decide +kernel)
    have built : approvalButtonRow exampleThread = .ok row := by
      rw [approvalButtonRow, named, if_neg Bool.false_ne_true, made]
    have read := approvalRow_read (fun word => (parseBoundApproval word).map
        (.boundApproval "0123456789abcdef" "0123456789abcdef0123456789abcdef"))
      (fun word id apart fits => parse_bound_approval (by decide +kernel) (by decide +kernel) apart
        (start ▸ fits)) made
    rw [built, Except.toOption, Option.map_some, read]
    show some ((["1", "2", "3", "cancel"].map parseBoundApproval).map _) = _
    rw [approval_words]
    rfl

end CodexRemote.Verified.Components

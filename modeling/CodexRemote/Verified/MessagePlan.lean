import CodexRemote.Foundations.Trimmed
import CodexRemote.Runtime.MessagePlan
import CodexRemote.Verified.Components.Ids
import CodexRemote.Verified.ThreadRef

/-! # The emergency lane and the planner

The gateway counts the words of a message and compares them without their case; the planner cuts
off a command, trims what is left and turns the command into small letters.  Both say the same of
the commands that restart and recover.
-/

namespace CodexRemote.Verified.MessagePlan

open Foundations Discord CodexRemote.Runtime
open Verified.Components (trim_idempotent)

variable {unicode : Unicode} {canonicalUuid : List Char → Option (List Char)}

/-! ## Words -/

theorem words_white {c : Char} (white : isWhitespace c = true) (text : List Char) :
    splitWhitespace (c :: text) = splitWhitespace text := by
  rw [splitWhitespace, List.splitOnP_cons_eq_if_modifyHead, if_pos white, List.filter_cons_of_neg (by simp)]
  rfl

theorem words_whites {gap : List Char} (white : ∀ c ∈ gap, isWhitespace c = true)
    (text : List Char) : splitWhitespace (gap ++ text) = splitWhitespace text := by
  induction gap with
  | nil => rfl
  | cons c gap ih =>
    rw [List.cons_append, words_white (white c (List.mem_cons_self ..)),
      ih fun d member => white d (List.mem_cons_of_mem _ member)]

theorem words_append_white {c : Char} (white : isWhitespace c = true) (text : List Char) :
    splitWhitespace (text ++ [c]) = splitWhitespace text := by
  have ends : (text ++ c :: []).splitOnP isWhitespace = text.splitOnP isWhitespace ++ [[]] :=
    List.splitOnP_append_cons text [] white
  rw [splitWhitespace, ends, List.filter_append]
  simp [splitWhitespace]

theorem words_trimEnd (text : List Char) : splitWhitespace (trimEnd text) = splitWhitespace text := by
  obtain ⟨gap, whole, white⟩ := rdropWhile_gap isWhitespace text
  have ended : ∀ gap : List Char, (∀ c ∈ gap, isWhitespace c = true) →
      splitWhitespace (trimEnd text ++ gap) = splitWhitespace (trimEnd text) := by
    intro gap
    induction gap using List.reverseRecOn with
    | nil => intro _; rw [List.append_nil]
    | append_singleton gap c ih =>
      intro white
      rw [← List.append_assoc, words_append_white (white c (by simp))]
      exact ih fun d member => white d (by simp [member])
  have back := ended gap white
  rw [show trimEnd text = text.rdropWhile isWhitespace from rfl, ← whole] at back
  exact back.symm

theorem words_trimStart (text : List Char) :
    splitWhitespace (trimStart text) = splitWhitespace text := by
  obtain ⟨gap, whole, white⟩ := dropWhile_gap isWhitespace text
  conv_rhs => rw [whole, words_whites white]
  rfl

theorem words_trim (text : List Char) : splitWhitespace (trim text) = splitWhitespace text := by
  rw [trim, words_trimEnd, words_trimStart]

/-- The first word of a text that begins with one, and what follows it -/
theorem words_splitOnceWhitespace {text : List Char} (visible : ∀ c, text.head? = some c → isWhitespace c = false) :
    splitWhitespace text =
      (if (splitOnceWhitespace text).1 = [] then [] else [(splitOnceWhitespace text).1]) ++
        splitWhitespace (splitOnceWhitespace text).2 := by
  have word : ∀ c ∈ (splitOnceWhitespace text).1, isWhitespace c = false := fun c member => by
    simpa using List.mem_takeWhile_imp member
  have whole := @List.takeWhile_append_dropWhile _ (!isWhitespace ·) text
  cases rest : text.dropWhile (!isWhitespace ·) with
  | nil =>
    rw [rest, List.append_nil] at whole
    have all : (splitOnceWhitespace text).1 = text := whole
    have none_ : (splitOnceWhitespace text).2 = [] := by rw [splitOnceWhitespace, rest]; rfl
    rw [none_, all]
    rw [all] at word
    rw [splitWhitespace, List.splitOnP_eq_singleton word]
    by_cases empty : text = []
    · subst empty
      rfl
    · simp [empty, splitWhitespace]
  | cons c after =>
    have white : isWhitespace c = true := by
      have stops := List.head?_dropWhile_not (!isWhitespace ·) text
      rw [rest] at stops
      simpa using stops
    have filled : (splitOnceWhitespace text).1 ≠ [] := by
      intro empty
      have front : text = c :: after := by
        rw [← whole, rest]
        exact congrArg (· ++ c :: after) empty
      have seen := visible c (by rw [front]; rfl)
      rw [white] at seen
      cases seen
    have second : (splitOnceWhitespace text).2 = after := by rw [splitOnceWhitespace, rest]; rfl
    have shape : text = (splitOnceWhitespace text).1 ++ c :: after := by
      rw [← rest]
      exact whole.symm
    rw [if_neg filled, second]
    conv_lhs => rw [shape, splitWhitespace, List.splitOnP_append_cons_of_forall_mem word c white]
    rw [List.filter_cons_of_pos (by simpa using filled)]
    rfl

/-- What the planner cuts off is the first word, in small letters, and the other words follow. -/
theorem splitCommand_words (line : List Char) :
    (splitCommand unicode line).1 = unicode.lowercase ((splitWhitespace line).head?.getD []) ∧
      splitWhitespace (trim (splitCommand unicode line).2) = (splitWhitespace line).tail := by
  have visible : ∀ c, (trimStart line).head? = some c → isWhitespace c = false := by
    intro c first
    have stops := List.head?_dropWhile_not isWhitespace line
    rw [show line.dropWhile isWhitespace = trimStart line from rfl, first] at stops
    simpa using stops
  have words := words_splitOnceWhitespace visible
  rw [words_trimStart] at words
  have command : trim (splitOnceWhitespace (trimStart line)).1 = (splitOnceWhitespace (trimStart line)).1 :=
    trim_visible fun c member => by simpa using List.mem_takeWhile_imp member
  have cut : splitCommand unicode line =
      (unicode.lowercase (splitOnceWhitespace (trimStart line)).1, (splitOnceWhitespace (trimStart line)).2) := by
    rw [splitCommand]
    dsimp only
    rw [command]
  rw [cut, words, words_trim]
  by_cases empty : (splitOnceWhitespace (trimStart line)).1 = []
  · -- without a first word nothing follows it
    have none_ : trimStart line = [] := by
      cases shape : trimStart line with
      | nil => rfl
      | cons c rest =>
        have filled := visible c (by rw [shape]; rfl)
        rw [shape, splitOnceWhitespace, List.takeWhile_cons_of_pos (by simp [filled])] at empty
        cases empty
    rw [none_]
    exact ⟨rfl, rfl⟩
  · rw [if_neg empty]
    exact ⟨rfl, rfl⟩

/-! ## Letters -/

/-- Small ASCII letters but `k` -/
def plain (word : List Char) : Bool := word.all fun c => c.val < 128 && c != 'k'

/-- A word of plain letters is compared without the case either way. -/
theorem lowercase_plain_iff {word : String} (letters : plain word.toList = true) (name : List Char) :
    unicode.lowercase name = word.toList ↔ eqIgnoreAsciiCase name word = true := by
  simp only [plain, List.all_eq_true, Bool.and_eq_true, decide_eq_true_eq, bne_iff_ne] at letters
  rw [eqIgnoreAsciiCase, decide_eq_true_eq]
  constructor
  · intro same
    have ascii := unicode.ascii_of_lowercase name (by rw [same]; exact letters)
    rw [← unicode.lowercase_ascii name ascii, same]
  · intro same
    have ascii : ∀ c ∈ name, c.val < 128 := by
      intro c member
      have small := (letters c.toLower (same ▸ List.mem_map_of_mem member)).1
      obtain unchanged | ⟨known, -⟩ := toLower_cases c
      · rwa [unchanged] at small
      · exact UInt32.lt_iff_toNat_lt.2 known
    rw [unicode.lowercase_ascii name ascii, same]

theorem lowercase_hangul_iff {word : String} (hangul : word.toList.all isHangul = true)
    (name : List Char) : unicode.lowercase name = word.toList ↔ name = word.toList := by
  rw [List.all_eq_true] at hangul
  constructor
  · intro same
    rw [← unicode.lowercase_hangul name (unicode.hangul_of_lowercase name (by rw [same]; exact hangul)), same]
  · rintro rfl
    exact unicode.lowercase_hangul _ hangul

/-! ## Quiet arms -/

def emergency : PrefixAction → Bool
  | .recover _ | .repair _ | .forceRestartCodex => true
  | _ => false

/-- An answer of a parser that is no command of the emergency lane -/
def Quiet (answer : Except PrefixPlanError PrefixAction) : Prop :=
  ∀ action, answer = .ok action → emergency action = false

@[simp] theorem quiet_ok {action : PrefixAction} :
    Quiet (.ok action) ↔ emergency action = false :=
  ⟨fun quiet => quiet action rfl, fun other _ same => Except.ok.inj same ▸ other⟩

@[simp] theorem quiet_error (error : PrefixPlanError) : Quiet (.error error) :=
  fun _ same => nomatch same

theorem Quiet.bind {α : Type} {answer : Except PrefixPlanError α}
    {f : α → Except PrefixPlanError PrefixAction} (quiet : ∀ x, Quiet (f x)) :
    Quiet (answer >>= f) := by
  cases answer with
  | error error => exact quiet_error error
  | ok x => exact quiet x

theorem Quiet.map {α : Type} {answer : Except PrefixPlanError α} {f : α → PrefixAction}
    (quiet : ∀ x, emergency (f x) = false) : Quiet (answer.map f) := by
  cases answer with
  | error error => exact quiet_error error
  | ok x => exact quiet_ok.2 (quiet x)

theorem quiet_ite {p : Prop} [Decidable p] {a b : Except PrefixPlanError PrefixAction}
    (first : Quiet a) (second : Quiet b) : Quiet (if p then a else b) := by
  by_cases holds : p
  · rwa [if_pos holds]
  · rwa [if_neg holds]

theorem quiet_context (arg : List Char) : Quiet (planContext unicode arg) :=
  quiet_ite (quiet_ite (quiet_error _) (Quiet.bind fun _ => quiet_ok.2 rfl))
    (quiet_ite (quiet_error _) (quiet_ok.2 rfl))

theorem quiet_usage (arg : List Char) : Quiet (planUsage arg) := Quiet.bind fun _ => quiet_ok.2 rfl

theorem quiet_runners (arg : List Char) : Quiet (planRunners arg) :=
  quiet_ite (quiet_ok.2 rfl) (quiet_ite (quiet_error _) (quiet_ok.2 rfl))

theorem quiet_skill (kind : SkillPromptKind) (command arg : List Char) (name : String) :
    Quiet (skill kind command arg name) := Quiet.bind fun _ => quiet_ok.2 rfl

theorem quiet_reboot (arg : List Char) : Quiet (planReboot arg) :=
  quiet_ite (quiet_ok.2 rfl) (quiet_error _)

theorem quiet_qa (arg : List Char) : Quiet (planQa unicode arg) :=
  quiet_ite (quiet_ok.2 rfl) (quiet_error _)

theorem quiet_detail (arg : List Char) : Quiet (planDetail unicode arg) :=
  quiet_ite (quiet_ok.2 rfl) (quiet_ite (quiet_ok.2 rfl) (quiet_ite (quiet_ok.2 rfl) (quiet_error _)))

theorem quiet_bridge (command arg : List Char) : Quiet (planBridge command arg) :=
  Quiet.bind fun _ => quiet_ite (quiet_ok.2 rfl) (Quiet.bind fun _ => quiet_ok.2 rfl)

theorem quiet_mirror (arg : List Char) : Quiet (planMirror unicode arg) :=
  quiet_ite (quiet_ok.2 rfl) (quiet_ite (Quiet.bind fun _ => quiet_ok.2 rfl)
    (quiet_ite (Quiet.bind fun _ => quiet_ok.2 rfl) (quiet_error _)))

theorem quiet_settings (arg : List Char) : Quiet (planSettings arg) := by
  refine Quiet.bind fun _ => quiet_ite (quiet_error _) (Quiet.bind fun s => ?_)
  cases s.optionQuery with
  | none => exact quiet_ok.2 rfl
  | some field => exact quiet_ite (quiet_error _) (quiet_ok.2 rfl)

theorem quiet_discard (line job : List Char) : Quiet (planDiscard canonicalUuid line job) :=
  quiet_ite (quiet_error _) (quiet_ok.2 rfl)

theorem quiet_required (arg : List Char) (usage : String) (action : List Char → PrefixAction)
    (quiet : ∀ reference, emergency (action reference) = false) :
    Quiet ((required arg usage).map action) := Quiet.map quiet

/-! ## The arms of the emergency lane -/

def recoverArm (arg : List Char) : List String × Except PrefixPlanError PrefixAction :=
  (["recover", "복구"], planOneWord arg .recover "Usage: !recover [ref]")

def repairArm (arg : List Char) : List String × Except PrefixPlanError PrefixAction :=
  (["repair", "도구복구"], planOneWord arg .repair "Usage: !repair [ref]")

def forceArm (line : List Char) : List String × Except PrefixPlanError PrefixAction :=
  (["restart_codex", "force_restart"], planForceRestart line)

variable {arg command line : List Char} {action : CommandAction} {input : IncomingMessage}

/-- All other arms are quiet. -/
theorem arm_cases {arm : List String × Except PrefixPlanError PrefixAction}
    (member : arm ∈ prefixArms unicode canonicalUuid line command arg) :
    arm = recoverArm arg ∨ arm = repairArm arg ∨ arm = forceArm line ∨ Quiet arm.2 := by
  have each : ∀ arm ∈ prefixArms unicode canonicalUuid line command arg,
      arm = recoverArm arg ∨ arm = repairArm arg ∨ arm = forceArm line ∨ Quiet arm.2 := by
    simp only [prefixArms, List.forall_mem_cons]
    have quiet : ∀ {names : List String} {answer : Except PrefixPlanError PrefixAction},
        Quiet answer → (names, answer) = recoverArm arg ∨ (names, answer) = repairArm arg ∨
          (names, answer) = forceArm line ∨ Quiet answer := fun known => .inr (.inr (.inr known))
    exact ⟨quiet (quiet_ok.2 rfl), quiet (quiet_ok.2 rfl), quiet (quiet_ok.2 rfl),
      quiet (quiet_required _ _ _ fun _ => rfl), quiet (quiet_required _ _ _ fun _ => rfl),
      quiet (quiet_ok.2 rfl), quiet (quiet_ok.2 rfl), .inl rfl, .inr (.inl rfl),
      quiet (quiet_settings _), quiet (quiet_ok.2 rfl), quiet (quiet_ok.2 rfl),
      .inr (.inr (.inl rfl)), quiet (quiet_ok.2 rfl), quiet (quiet_required _ _ _ fun _ => rfl),
      quiet (quiet_required _ _ _ fun _ => rfl), quiet (quiet_ok.2 rfl), quiet (quiet_ok.2 rfl),
      quiet (quiet_ok.2 rfl), quiet (quiet_ok.2 rfl), quiet (quiet_context _),
      quiet (quiet_usage _), quiet (quiet_runners _), quiet (quiet_discard _ _),
      quiet (quiet_ok.2 rfl), quiet (quiet_ok.2 rfl), quiet (quiet_bridge _ _),
      quiet (quiet_mirror _), quiet (quiet_detail _), quiet (quiet_ok.2 rfl),
      quiet (quiet_ok.2 rfl), quiet (quiet_required _ _ _ fun _ => rfl), quiet (quiet_qa _),
      quiet (quiet_skill _ _ _ _), quiet (quiet_skill _ _ _ _), quiet (quiet_skill _ _ _ _),
      quiet (quiet_reboot _), List.forall_mem_nil _⟩
  exact each arm member

/-- Where the planner looks for a command -/
def armOf (unicode : Unicode) (canonicalUuid : List Char → Option (List Char))
    (line command arg : List Char) : Option (List String × Except PrefixPlanError PrefixAction) :=
  (prefixArms unicode canonicalUuid line command arg).find? fun arm => arm.1.any (·.toList = command)

theorem planPrefix_arm (line : List Char) :
    planPrefix unicode canonicalUuid line =
      match armOf unicode canonicalUuid line (splitCommand unicode line).1
        (trim (splitCommand unicode line).2) with
      | some arm => arm.2
      | none => .error (.unknown (splitCommand unicode line).1) := rfl

theorem armOf_recover (known : command = "recover".toList ∨ command = "복구".toList) :
    armOf unicode canonicalUuid line command arg = some (recoverArm arg) := by
  obtain rfl | rfl := known <;> rfl

theorem armOf_repair (known : command = "repair".toList ∨ command = "도구복구".toList) :
    armOf unicode canonicalUuid line command arg = some (repairArm arg) := by
  obtain rfl | rfl := known <;> rfl

/-- A restart without an argument is an arm of its own. -/
theorem armOf_force
    (known : command = "force_restart".toList ∨ (command = "restart_codex".toList ∧ arg ≠ [])) :
    armOf unicode canonicalUuid line command arg = some (forceArm line) := by
  obtain rfl | ⟨rfl, filled⟩ := known
  · cases arg <;> rfl
  · cases arg with
    | nil => exact absurd rfl filled
    | cons => rfl

/-! ## The words of the emergency lane -/

/-- The test of `is_emergency_message` besides that of a forced restart -/
def recoveryWords (words : List (List Char)) : Bool :=
  let name := words.head?.getD []
  (eqIgnoreAsciiCase name "recover" || name = "복구".toList ||
    eqIgnoreAsciiCase name "repair" || name = "도구복구".toList) && words.tail.length ≤ 1

theorem message_words (whole : trim ('!' :: line) = '!' :: line) :
    commandWords (String.ofList ('!' :: line)) = some (splitWhitespace line) := by
  rw [commandWords, String.toList_ofList, whole]
  rfl

theorem emergency_iff (whole : trim ('!' :: line) = '!' :: line) :
    isEmergencyMessage (String.ofList ('!' :: line)) = true ↔
      isForceRestartMessage (String.ofList ('!' :: line)) = true ∨
        recoveryWords (splitWhitespace line) = true := by
  rw [isEmergencyMessage, message_words whole, Bool.or_eq_true]
  rfl

theorem recover_words_iff {words : List (List Char)} :
    recoveryWords words = true ↔
      ((unicode.lowercase (words.head?.getD []) = "recover".toList ∨
          unicode.lowercase (words.head?.getD []) = "복구".toList) ∨
        (unicode.lowercase (words.head?.getD []) = "repair".toList ∨
          unicode.lowercase (words.head?.getD []) = "도구복구".toList)) ∧
        words.tail.length ≤ 1 := by
  rw [lowercase_plain_iff rfl, lowercase_hangul_iff rfl, lowercase_plain_iff rfl,
    lowercase_hangul_iff rfl]
  simp only [recoveryWords, Bool.and_eq_true, Bool.or_eq_true, decide_eq_true_eq, or_assoc]

/-- What a forced restart is called, and with which argument -/
theorem force_words {line : List Char} (whole : trim ('!' :: line) = '!' :: line)
    (force : isForceRestartMessage (String.ofList ('!' :: line)) = true) :
    unicode.lowercase ((splitWhitespace line).head?.getD []) = "force_restart".toList ∨
      (unicode.lowercase ((splitWhitespace line).head?.getD []) = "restart_codex".toList ∧
        (splitWhitespace line).tail ≠ []) := by
  rw [lowercase_plain_iff rfl, lowercase_plain_iff rfl]
  rw [isForceRestartMessage, message_words whole] at force
  simp only [Bool.and_eq_true, Bool.or_eq_true] at force
  obtain ⟨-, ⟨name, -⟩ | ⟨name, argument⟩⟩ := force
  · exact .inl name
  · refine .inr ⟨name, fun none_ => ?_⟩
    rw [none_] at argument
    cases argument

theorem planOneWord_ok {make : Option (List Char) → PrefixAction}
    {usage : String} {action : PrefixAction} :
    planOneWord arg make usage = .ok action ↔
      (splitWhitespace arg).length ≤ 1 ∧ action = make (optional arg) := by
  rw [planOneWord]
  by_cases many : (splitWhitespace arg).length > 1
  · rw [if_pos many]
    exact iff_of_false nofun fun few => absurd few.1 (Nat.not_le.2 many)
  · rw [if_neg many, Except.ok.injEq, eq_comm]
    exact (and_iff_right (Nat.le_of_not_lt many)).symm

theorem planForceRestart_ok {action : PrefixAction} :
    planForceRestart line = .ok action ↔
      isForceRestartMessage (String.ofList ('!' :: line)) = true ∧ action = .forceRestartCodex := by
  rw [planForceRestart]
  by_cases force : isForceRestartMessage (String.ofList ('!' :: line)) = true
  · rw [if_pos force, Except.ok.injEq, eq_comm]
    exact (and_iff_right force).symm
  · rw [if_neg force]
    exact iff_of_false nofun fun both => force both.1

/-! ## The planner's commands -/

/-- An action of the emergency lane was planned by its arm. -/
theorem plan_cases {action : PrefixAction}
    (planned : planPrefix unicode canonicalUuid line = .ok action)
    (urgent : emergency action = true) :
    (isForceRestartMessage (String.ofList ('!' :: line)) = true ∧ action = .forceRestartCodex) ∨
      (recoveryWords (splitWhitespace line) = true ∧ action ≠ .forceRestartCodex) := by
  obtain ⟨command, rest⟩ := @splitCommand_words unicode line
  rw [planPrefix_arm] at planned
  cases found : armOf unicode canonicalUuid line (splitCommand unicode line).1
      (trim (splitCommand unicode line).2) with
  | none =>
    rw [found] at planned
    cases planned
  | some arm =>
    rw [found] at planned
    have named := List.find?_some found
    have few : ∀ {make : Option (List Char) → PrefixAction} {usage : String},
        planOneWord (trim (splitCommand unicode line).2) make usage = .ok action →
          (splitWhitespace line).tail.length ≤ 1 ∧
            action = make (optional (trim (splitCommand unicode line).2)) := by
      intro make usage ran
      rw [← rest]
      exact planOneWord_ok.1 ran
    obtain rfl | rfl | rfl | quiet := arm_cases (List.mem_of_find?_eq_some found)
    · obtain ⟨one, rfl⟩ := few planned
      simp only [recoverArm, List.any_cons, List.any_nil, Bool.or_false, Bool.or_eq_true,
        decide_eq_true_eq, command, eq_comm (a := String.toList _)] at named
      exact .inr ⟨(@recover_words_iff unicode _).2 ⟨.inl named, one⟩, PrefixAction.noConfusion⟩
    · obtain ⟨one, rfl⟩ := few planned
      simp only [repairArm, List.any_cons, List.any_nil, Bool.or_false, Bool.or_eq_true,
        decide_eq_true_eq, command, eq_comm (a := String.toList _)] at named
      exact .inr ⟨(@recover_words_iff unicode _).2 ⟨.inr named, one⟩, PrefixAction.noConfusion⟩
    · exact .inl (planForceRestart_ok.1 planned)
    · rw [quiet action planned] at urgent
      cases urgent

theorem plan_force (whole : trim ('!' :: line) = '!' :: line)
    (force : isForceRestartMessage (String.ofList ('!' :: line)) = true) :
    planPrefix unicode canonicalUuid line = .ok .forceRestartCodex := by
  obtain ⟨command, rest⟩ := @splitCommand_words unicode line
  have known := @force_words unicode line whole force
  rw [← command, ← rest] at known
  rw [planPrefix_arm, armOf_force]
  · exact planForceRestart_ok.2 ⟨force, rfl⟩
  · obtain name | ⟨name, filled⟩ := known
    · exact .inl name
    · refine .inr ⟨name, fun none_ => filled ?_⟩
      rw [none_]
      rfl

theorem plan_recovery (words : recoveryWords (splitWhitespace line) = true) :
    ∃ action, planPrefix unicode canonicalUuid line = .ok action ∧ emergency action = true := by
  obtain ⟨command, rest⟩ := @splitCommand_words unicode line
  obtain ⟨known, one⟩ := (@recover_words_iff unicode _).1 words
  rw [← command, ← rest] at *
  obtain recover | repair := known
  · refine ⟨.recover (optional (trim (splitCommand unicode line).2)), ?_, rfl⟩
    rw [planPrefix_arm, armOf_recover recover]
    exact planOneWord_ok.2 ⟨one, rfl⟩
  · refine ⟨.repair (optional (trim (splitCommand unicode line).2)), ?_, rfl⟩
    rw [planPrefix_arm, armOf_repair repair]
    exact planOneWord_ok.2 ⟨one, rfl⟩

/-! ## Messages -/

/-- The messages of a human that pass the checks of `planMessage` before their text is read.
The switch for message content is the first of them: no text is seen with it off. -/
def Heard (input : IncomingMessage) : Prop :=
  input.messageContentEnabled = true ∧ input.channelAllowed = true ∧ input.userAllowed = true ∧
    input.authorIsSelf = false ∧ input.authorIsBot = false

/-- The actions of the emergency lane -/
def urgentAction : CommandAction → Bool
  | .recover _ | .repair _ | .forceRestartCodex => true
  | _ => false

theorem prefixToCommand_urgent {planned : PrefixAction}
    (mapped : prefixToCommand planned = .ok action) :
    urgentAction action = emergency planned ∧
      (action = .forceRestartCodex ↔ planned = .forceRestartCodex) := by
  cases planned with
  | skillPrompt kind request =>
    cases kind <;>
    · cases mapped
      exact ⟨rfl, nofun, nofun⟩
  | mirrorDetail mode => cases mapped
  | forceRestartCodex =>
    cases mapped
    exact ⟨rfl, fun _ => rfl, fun _ => rfl⟩
  | _ =>
    cases mapped
    exact ⟨rfl, nofun, nofun⟩

/-- What the planner makes of a command -/
def Commands (unicode : Unicode) (canonicalUuid : List Char → Option (List Char))
    (line : List Char) (action : CommandAction) : Prop :=
  ∃ planned, planPrefix unicode canonicalUuid line = .ok planned ∧
    prefixToCommand planned = .ok action

theorem commands_urgent_iff {line : List Char} (whole : trim ('!' :: line) = '!' :: line) :
    (∃ action, Commands unicode canonicalUuid line action ∧ urgentAction action = true) ↔
      isEmergencyMessage (String.ofList ('!' :: line)) = true := by
  rw [emergency_iff whole]
  constructor
  · rintro ⟨action, ⟨planned, parsed, mapped⟩, urgent⟩
    rw [(prefixToCommand_urgent mapped).1] at urgent
    exact (plan_cases parsed urgent).imp And.left And.left
  · rintro (force | words)
    · exact ⟨.forceRestartCodex, ⟨.forceRestartCodex, plan_force whole force, rfl⟩, rfl⟩
    · obtain ⟨planned, parsed, urgent⟩ := plan_recovery words
      obtain ⟨action, mapped⟩ : ∃ action, prefixToCommand planned = .ok action := by
        cases planned with
        | recover reference => exact ⟨_, rfl⟩
        | repair reference => exact ⟨_, rfl⟩
        | forceRestartCodex => exact ⟨_, rfl⟩
        | _ => cases urgent
      exact ⟨action, ⟨planned, parsed, mapped⟩, (prefixToCommand_urgent mapped).1.trans urgent⟩

theorem commands_force_iff {line : List Char} (whole : trim ('!' :: line) = '!' :: line) :
    Commands unicode canonicalUuid line .forceRestartCodex ↔
      isForceRestartMessage (String.ofList ('!' :: line)) = true := by
  constructor
  · rintro ⟨planned, parsed, mapped⟩
    obtain rfl := (prefixToCommand_urgent mapped).2.1 rfl
    obtain ⟨force, -⟩ | ⟨-, other⟩ := plan_cases parsed rfl
    · exact force
    · exact absurd rfl other
  · intro force
    exact ⟨.forceRestartCodex, plan_force whole force, rfl⟩

theorem planPrompt_calm {prompt : List Char}
    (asked : planPrompt input prompt = .execute action) : urgentAction action = false := by
  rw [planPrompt] at asked
  split at asked
  · split at asked
    · cases asked
      rfl
    · cases asked
  · cases asked
    rfl

theorem planAsk_calm {content : List Char}
    (asked : planAsk input content = .execute action) : urgentAction action = false := by
  rw [planAsk] at asked
  split at asked
  · split at asked
    · cases asked
    · dsimp only at asked
      split at asked
      · cases asked
      · exact planPrompt_calm asked
  · exact planPrompt_calm asked

theorem planCommand_ok :
    planCommand unicode canonicalUuid input line = .ok (.execute action) ↔
      Commands unicode canonicalUuid line action ∧
        (input.authorIsBot && isDiscard action) = false := by
  rw [planCommand, Commands]
  cases planPrefix unicode canonicalUuid line with
  | error refused => exact iff_of_false nofun fun both => nomatch both.1
  | ok planned =>
    simp only [Except.mapError, bind, Except.bind, Except.ok.injEq, exists_eq_left']
    cases prefixToCommand planned with
    | error refused => exact iff_of_false nofun fun both => nomatch both.1
    | ok made =>
      simp only [Except.ok.injEq]
      by_cases discards : (input.authorIsBot && isDiscard made) = true
      · rw [if_pos discards]
        refine iff_of_false nofun ?_
        rintro ⟨rfl, kept⟩
        rw [discards] at kept
        cases kept
      · rw [if_neg discards, Except.ok.injEq, MessagePlan.execute.injEq]
        refine ⟨?_, And.left⟩
        rintro rfl
        exact ⟨rfl, eq_false_of_ne_true discards⟩

/-- A text of one message is a command, or nothing in it is urgent. -/
theorem content_cases (content : String) :
    (∃ line, trim content.toList = '!' :: line ∧ trim ('!' :: line) = '!' :: line ∧
        isEmergencyMessage content = isEmergencyMessage (String.ofList ('!' :: line)) ∧
        isForceRestartMessage content = isForceRestartMessage (String.ofList ('!' :: line))) ∨
      ((∀ line, trim content.toList ≠ '!' :: line) ∧ isEmergencyMessage content = false ∧
        isForceRestartMessage content = false) := by
  have whole := trim_idempotent content.toList
  have same : commandWords (String.ofList (trim content.toList)) = commandWords content := by
    rw [commandWords, commandWords, String.toList_ofList, whole]
  by_cases command : ∃ line, trim content.toList = '!' :: line
  · obtain ⟨line, shape⟩ := command
    rw [shape] at whole same
    refine .inl ⟨line, shape, whole, ?_, ?_⟩
    · rw [isEmergencyMessage, isEmergencyMessage, isForceRestartMessage, isForceRestartMessage, same]
    · rw [isForceRestartMessage, isForceRestartMessage, same]
  · have plain : ∀ line, trim content.toList ≠ '!' :: line := fun line shape => command ⟨line, shape⟩
    have none_ : commandWords content = none := by
      rw [commandWords]
      split
      · next line shape => exact absurd shape (plain line)
      · rfl
    refine .inr ⟨plain, ?_, ?_⟩
    · rw [isEmergencyMessage, isForceRestartMessage, none_]
      rfl
    · rw [isForceRestartMessage, none_]

theorem planContent_ask {content : List Char} (plain : ∀ line, content ≠ '!' :: line) :
    planContent unicode canonicalUuid input content = .ok (planAsk input content) := by
  rw [planContent]
  exact plain

/-- The plan for a message that a human wrote -/
theorem heard_plan (heard : Heard input) :
    planMessage unicode canonicalUuid input =
      planContent unicode canonicalUuid input (trim input.content.toList) := by
  obtain ⟨enabled, channel, user, other, human⟩ := heard
  simp only [planMessage, enabled, channel, user, other, human, Bool.not_true, Bool.false_eq_true,
    if_false, Bool.false_and]

/-- What is executed for a message that a human wrote -/
theorem heard_urgent_iff (heard : Heard input) :
    (∃ action, planMessage unicode canonicalUuid input = .ok (.execute action) ∧
        urgentAction action = true) ↔ isEmergencyMessage input.content = true := by
  rw [heard_plan heard]
  obtain ⟨line, shape, whole, same, -⟩ | ⟨plain, calm, -⟩ := content_cases input.content
  · have human : (∀ action, (input.authorIsBot && isDiscard action) = false) := by
      intro action
      rw [heard.2.2.2.2]
      rfl
    rw [same, ← @commands_urgent_iff unicode canonicalUuid line whole, shape]
    show (∃ action, planCommand unicode canonicalUuid input line = _ ∧ _) ↔ _
    simp only [planCommand_ok, human, and_true]
  · rw [calm, planContent_ask plain]
    refine iff_of_false ?_ Bool.false_ne_true
    rintro ⟨action, asked, urgent⟩
    rw [planAsk_calm (Except.ok.inj asked)] at urgent
    cases urgent

theorem heard_force_iff (heard : Heard input) :
    planMessage unicode canonicalUuid input = .ok (.execute .forceRestartCodex) ↔
      isForceRestartMessage input.content = true := by
  rw [heard_plan heard]
  obtain ⟨line, shape, whole, -, same⟩ | ⟨plain, -, calm⟩ := content_cases input.content
  · rw [same, ← @commands_force_iff unicode canonicalUuid line whole, shape]
    show planCommand unicode canonicalUuid input line = _ ↔ _
    rw [planCommand_ok]
    refine and_iff_left ?_
    rw [heard.2.2.2.2]
    rfl
  · rw [calm, planContent_ask plain]
    refine iff_of_false (fun asked => ?_) Bool.false_ne_true
    cases planAsk_calm (Except.ok.inj asked)

/-- A bot's message of the emergency lane is ignored before it is planned. -/
theorem bot_calm (bot : input.authorIsBot = true)
    (planned : planMessage unicode canonicalUuid input = .ok (.execute action)) :
    urgentAction action = false := by
  simp only [planMessage] at planned
  split at planned
  · cases planned
  split at planned
  · cases planned
  split at planned
  · cases planned
  split at planned
  · cases planned
  split at planned
  · cases planned
  split at planned
  · cases planned
  · next lane =>
    rw [bot, Bool.true_and, Bool.not_eq_true] at lane
    obtain ⟨line, shape, whole, -, -⟩ | ⟨plain, -, -⟩ := content_cases input.content
    · rw [shape] at planned lane
      have made := (planCommand_ok.1 planned).1
      by_contra urgent
      rw [(commands_urgent_iff whole).1 ⟨action, made, eq_true_of_ne_false urgent⟩] at lane
      cases lane
    · rw [planContent_ask plain] at planned
      exact planAsk_calm (Except.ok.inj planned)

theorem unheard_content (disabled : input.messageContentEnabled = false) :
    planMessage unicode canonicalUuid input = .ok (.ignore "message_content_disabled") := by
  simp [planMessage, disabled]

/-- The emergency lane holds the messages for which the planner executes one of its commands. -/
theorem emergency_lane_agrees (unicode : Unicode) (canonicalUuid : List Char → Option (List Char)) :
    (∀ input, Heard input →
      (isEmergencyMessage input.content = true ↔
        ∃ action, planMessage unicode canonicalUuid input = .ok (.execute action) ∧
          urgentAction action = true)) ∧
      (∀ input, Heard input →
        (isForceRestartMessage input.content = true ↔
          planMessage unicode canonicalUuid input = .ok (.execute .forceRestartCodex))) ∧
      (∀ input action, input.authorIsBot = true →
        planMessage unicode canonicalUuid input = .ok (.execute action) →
          urgentAction action = false) ∧
      ∀ input, input.messageContentEnabled = false →
        planMessage unicode canonicalUuid input = .ok (.ignore "message_content_disabled") :=
  ⟨fun _ heard => (heard_urgent_iff heard).symm, fun _ heard => (heard_force_iff heard).symm,
    fun _ _ => bot_calm, fun _ => unheard_content⟩

/-- A recovery in Korean, with a wide space before the reference -/
def koreanRecovery : IncomingMessage :=
  { content := " ! 복구　worker "
    messageContentEnabled := true
    channelAllowed := true
    userAllowed := true
    authorIsBot := false
    authorIsSelf := false
    authorMentionsBridge := false
    hasAttachments := false
    mirroredTarget := false
    mentionedUserIds := []
    requiredPlainAskUserIds := [] }

theorem korean_recovery_planned :
    ∃ action, planMessage asciiUnicode (fun _ => none) koreanRecovery = .ok (.execute action) ∧
      urgentAction action = true :=
  ((emergency_lane_agrees asciiUnicode fun _ => none).1 koreanRecovery
    ⟨rfl, rfl, rfl, rfl, rfl⟩).1 (by decide)

end CodexRemote.Verified.MessagePlan

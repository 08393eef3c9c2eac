import Mathlib.Data.List.DropRight
import CodexRemote.Discord.ComponentRows
import CodexRemote.Foundations.Transactions

/-! # Reading component ids

Ids are joined from parts by colons.  Where no part holds a colon itself, the parser
finds the parts again, and each format then reads as what it was written for.
-/

namespace CodexRemote.Verified.Components

open Foundations Discord

/-! ## Trimmed text -/

theorem trim_idempotent (text : List Char) : trim (trim text) = trim text := by
  have start : trimStart (trim text) = trim text := by
    cases shape : trim text with
    | nil => rfl
    | cons c rest =>
      have part : c :: rest <+: trimStart text := by
        rw [← shape]
        exact List.rdropWhile_prefix ..
      obtain ⟨tail, whole⟩ := part
      have visible : ¬ isWhitespace c = true := by
        have first := List.head?_dropWhile_not isWhitespace text
        have shape : text.dropWhile isWhitespace = c :: rest ++ tail := whole.symm
        rw [shape] at first
        simpa using first
      exact List.dropWhile_cons_of_neg visible
  show trimEnd (trimStart (trim text)) = trim text
  rw [start]
  exact List.rdropWhile_idempotent ..

@[simp] theorem trimmedText_trimmed (text : String) :
    trimmedText (trimmedText text) = trimmedText text := by
  simp [trimmedText, trim_idempotent]

/-! ## Colons -/

variable {id value : String}

/-- An id that was put together from parts without a colon falls into these parts again. -/
theorem parse_joined (parts : List String) (short : id.length ≤ maxCustomIdChars)
    (joined : id.toList = [':'].intercalate (parts.map String.toList)) (filled : parts ≠ [])
    (plain : ∀ part ∈ parts, ':' ∉ part.toList) :
    parseComponentId id = parseParts parts := by
  have split_ : colonParts id = parts := by
    rw [colonParts, joined, List.splitOn_intercalate]
    · simp
    · intro part member
      obtain ⟨text, source, shape⟩ := List.mem_map.1 member
      subst shape
      exact plain text source
    · simpa using filled
  simp [parseComponentId, split_, Nat.not_lt.2 short]

theorem bounded_ok (built : bounded value = .ok id) :
    value = id ∧ id.length ≤ maxCustomIdChars := by
  simp only [bounded] at built
  split at built
  · next short =>
    cases built
    exact ⟨rfl, short⟩
  · cases built

theorem colon_not_fingerprint {length : Nat}
    (valid : validFingerprint value length = true) : ':' ∉ value.toList := by
  intro colon
  simp only [validFingerprint, Bool.and_eq_true] at valid
  have digit := List.all_eq_true.1 valid.2 ':' colon
  revert digit
  decide

theorem fingerprint_length {length : Nat}
    (valid : validFingerprint value length = true) : value.length = length := by
  simp only [validFingerprint, Bool.and_eq_true, beq_iff_eq] at valid
  exact valid.1

theorem colon_not_safe (safe : safeInputValue value = true) :
    ':' ∉ value.toList := by
  intro colon
  simp only [safeInputValue, Bool.and_eq_true] at safe
  have letter := List.all_eq_true.1 safe.2 ':' colon
  revert letter
  decide

theorem colon_not_printed (n : Nat) : ':' ∉ (toString n).toList := by
  intro colon
  have digits : (toString n).toList = Nat.toDigits 10 n := Nat.toList_repr
  rw [digits] at colon
  have digit := isDigit_toDigits colon
  revert digit
  decide

/-! ## What each id stands for -/

theorem parse_busy {choiceId action : String} (valid : validChoiceId choiceId = true)
    (word : ':' ∉ action.toList)
    (built : bounded ("codex_busy:" ++ choiceId ++ ":" ++ action) = .ok id) :
    parseComponentId id = (parseBusyAction action).map (.busy choiceId) := by
  obtain ⟨joined, short⟩ := bounded_ok built
  subst joined
  have reads : parseParts ["codex_busy", choiceId, action] =
      if validChoiceId choiceId then (parseBusyAction action).map (.busy choiceId) else none := rfl
  rw [parse_joined ["codex_busy", choiceId, action] short]
  · rw [reads, if_pos valid]
  · simp
  · simp
  · simp [colon_not_fingerprint valid, word]

theorem parse_approval {threadId answer : String} (named : trimmedText threadId ≠ "")
    (plain : ':' ∉ (trimmedText threadId).toList) (word : ':' ∉ answer.toList)
    (built : bounded ("codex_approval:" ++ trimmedText threadId ++ ":" ++ answer) = .ok id) :
    parseComponentId id =
      (parseApproval answer).map (.approval (trimmedText threadId)) := by
  obtain ⟨joined, short⟩ := bounded_ok built
  subst joined
  have reads : ∀ thread, parseParts ["codex_approval", thread, answer] =
      if trimmedText thread != "" then (parseApproval answer).map (.approval (trimmedText thread))
      else none := fun _ => rfl
  rw [parse_joined ["codex_approval", trimmedText threadId, answer] short]
  · simp [reads, named]
  · simp
  · simp
  · simp [plain, word]

theorem parse_bound_approval {thread request answer : String}
    (threadValid : validFingerprint thread 16 = true)
    (requestValid : validFingerprint request 32 = true) (word : ':' ∉ answer.toList)
    (built : bounded ("codex_approval:v2:" ++ thread ++ ":" ++ request ++ ":" ++ answer) =
      .ok id) :
    parseComponentId id = (parseBoundApproval answer).map (.boundApproval thread request) := by
  obtain ⟨joined, short⟩ := bounded_ok built
  subst joined
  have reads : parseParts ["codex_approval", "v2", thread, request, answer] =
      if validFingerprint thread 16 && validFingerprint request 32 then
        (parseBoundApproval answer).map (.boundApproval thread request)
      else none := rfl
  rw [parse_joined ["codex_approval", "v2", thread, request, answer] short]
  · simp [reads, threadValid, requestValid]
  · simp
  · simp
  · simp [colon_not_fingerprint threadValid, colon_not_fingerprint requestValid, word]

theorem parse_input {threadId : String} (plain : ':' ∉ (trimmedText threadId).toList)
    (built : formatInputChoice threadId value = .ok id) :
    parseComponentId id = some (.input (trimmedText threadId) (trimmedText value)) := by
  simp only [formatInputChoice] at built
  split at built
  · cases built
  · next checks =>
    simp only [Bool.or_eq_true, not_or, Bool.not_eq_true, Bool.not_eq_false', beq_eq_false_iff_ne]
      at checks
    obtain ⟨joined, short⟩ := bounded_ok built
    subst joined
    have reads : ∀ thread value, parseParts ["codex_input", thread, value] =
        if trimmedText thread != "" && safeInputValue (trimmedText value) then
          some (.input (trimmedText thread) (trimmedText value))
        else none := fun _ _ => rfl
    rw [parse_joined ["codex_input", trimmedText threadId, trimmedText value] short]
    · simp [reads, checks]
    · simp
    · simp
    · simp [plain, colon_not_safe checks.2]

theorem parse_bound_input {thread request : String}
    (threadValid : validFingerprint thread 16 = true)
    (requestValid : validFingerprint request 32 = true) (safe : safeInputValue value = true)
    (built : bounded ("codex_input:v2:" ++ thread ++ ":" ++ request ++ ":" ++ value) = .ok id) :
    parseComponentId id = some (.boundInput thread request value) := by
  obtain ⟨joined, short⟩ := bounded_ok built
  subst joined
  have reads : parseParts ["codex_input", "v2", thread, request, value] =
      if validFingerprint thread 16 && validFingerprint request 32 && safeInputValue value then
        some (.boundInput thread request value)
      else none := rfl
  rw [parse_joined ["codex_input", "v2", thread, request, value] short]
  · simp [reads, threadValid, requestValid, safe]
  · simp
  · simp
  · simp [colon_not_fingerprint threadValid, colon_not_fingerprint requestValid,
      colon_not_safe safe]

theorem printed_short : ∀ index < 25, (toString index : String).length ≤ 2 := by decide

theorem parse_async_choice {question : String} {index : Nat}
    (valid : validFingerprint question 64 = true) (small : index < 25) :
    parseComponentId ("codex_async:" ++ question ++ ":" ++ toString index) =
      some (.asyncChoice question index) := by
  have short : ("codex_async:" ++ question ++ ":" ++ toString index).length ≤
      maxCustomIdChars := by
    have digits := printed_short index small
    simp only [String.length_append, fingerprint_length valid, maxCustomIdChars]
    have word : "codex_async:".length = 12 := by decide
    have colon : ":".length = 1 := by decide
    omega
  have reads : ∀ option, parseParts ["codex_async", question, option] =
      if validFingerprint question 64 then
        (parseUnsigned (2 ^ 64) option).bind fun index =>
          if index < 25 && toString index == option then some (.asyncChoice question index)
          else none
      else none := fun _ => rfl
  have number : parseUnsigned (2 ^ 64) (toString index) = some index :=
    parseUnsigned_repr (by omega)
  rw [parse_joined ["codex_async", question, toString index] short]
  · rw [reads, if_pos valid, number]
    simp [small]
  · simp
  · simp
  · have digits := colon_not_printed index
    simp only [List.mem_cons, List.not_mem_nil, or_false]
    intro part member
    obtain rfl | rfl | rfl := member
    · decide
    · exact colon_not_fingerprint valid
    · exact digits

theorem parse_async_other {question : String} (valid : validFingerprint question 64 = true) :
    parseComponentId ("codex_async_other:" ++ question) = some (.asyncTextInput question) := by
  have short : ("codex_async_other:" ++ question).length ≤ maxCustomIdChars := by
    simp only [String.length_append, fingerprint_length valid, maxCustomIdChars]
    decide
  have reads : parseParts ["codex_async_other", question] =
      if validFingerprint question 64 then some (.asyncTextInput question) else none := rfl
  rw [parse_joined ["codex_async_other", question] short]
  · rw [reads, if_pos valid]
  · simp
  · simp
  · simp [colon_not_fingerprint valid]

/-- Whatever is chosen in the menu of a question is routed to that option. -/
theorem route_async_select {question : String} {index : Nat}
    (valid : validFingerprint question 64 = true) (small : index < 25) :
    routeComponent ("codex_async_select:" ++ question) [toString index] =
      some (.asyncChoice question index) := by
  have tail : "codex_async_select:".toList.isPrefixOf? ("codex_async_select:" ++ question).toList =
      some question.toList := by
    rw [List.isPrefixOf?_eq_some_iff_append_eq, String.toList_append]
  simp only [routeComponent, tail, String.ofList_toList]
  exact parse_async_choice valid small

theorem colon_not_revision (revision : Int64) : ':' ∉ (toString revision).toList := by
  intro colon
  have printed : toString revision = toString revision.toInt := rfl
  rw [printed] at colon
  cases value : revision.toInt with
  | ofNat n =>
    rw [value] at colon
    exact colon_not_printed n colon
  | negSucc n =>
    rw [value] at colon
    have signed : toString (Int.negSucc n) = "-" ++ toString (n + 1) := rfl
    rw [signed, String.toList_append, List.mem_append] at colon
    obtain sign | digit := colon
    · revert sign
      decide
    · exact colon_not_printed (n + 1) digit

theorem parse_decision {δ : Type} {kind : String → Int64 → δ → ComponentId} {a h : δ}
    {id : String} {revision : Int64} (valid : validFingerprint id 32 = true)
    (positive : ¬ revision ≤ 0) :
    parseDecision kind a h id (toString revision) "a" = some (kind id revision a) ∧
      parseDecision kind a h id (toString revision) "h" = some (kind id revision h) := by
  simp [parseDecision, parseInt64_toString, valid, positive]

/-! ## Fingerprints -/

theorem validFingerprint_hexEncode (bytes : List UInt8) :
    validFingerprint (hexEncode bytes) (2 * bytes.length) = true := by
  simp only [validFingerprint, length_hexEncode, hexEncode_digits, Bool.and_true, beq_self_eq_true]

section Fingerprints

variable {sha256 : List UInt8 → Vector UInt8 32}

theorem threadFingerprint_valid {threadId thread : String}
    (result : threadFingerprint sha256 threadId = .ok thread) :
    validFingerprint thread 16 = true := by
  simp only [threadFingerprint] at result
  split at result
  · cases result
  · cases result
    have valid := validFingerprint_hexEncode ((sha256 (utf8Bytes "cdr-discord/component-thread/v2" ++
      beBytes (.ofNat (trimmedText threadId).utf8ByteSize) ++
      utf8Bytes (trimmedText threadId))).toList.take 8)
    rw [List.length_take, Vector.length_toList] at valid
    exact valid

theorem requestFingerprint_valid (generation : UInt64) (occurrence : Vector UInt8 16)
    (requestId : ComponentRequestId) :
    validFingerprint (requestFingerprint sha256 generation occurrence requestId) 32 = true := by
  have valid : ∀ digest : Vector UInt8 32,
      validFingerprint (hexEncode (digest.toList.take 16)) 32 = true := by
    intro digest
    have whole := validFingerprint_hexEncode (digest.toList.take 16)
    rw [List.length_take, Vector.length_toList] at whole
    exact whole
  exact valid _

end Fingerprints

end CodexRemote.Verified.Components

import Mathlib.Data.List.TakeWhile

/-! # Splitting text into Discord messages

Strings are handled as lists of Unicode scalars, which is what the limits count.
-/

namespace CodexRemote.Discord

def discordMaxLen : Nat := 1900
def chunkMarkerBudget : Nat := 32

/-- `char::is_whitespace`: the Unicode `White_Space` property. -/
def isWhitespace (c : Char) : Bool :=
  (9 ≤ c.val && c.val ≤ 13) || c.val == 0x20 || c.val == 0x85 || c.val == 0xA0 ||
    c.val == 0x1680 || (0x2000 ≤ c.val && c.val ≤ 0x200A) || c.val == 0x2028 ||
    c.val == 0x2029 || c.val == 0x202F || c.val == 0x205F || c.val == 0x3000

def trimStart (text : List Char) : List Char := text.dropWhile isWhitespace

def trimEnd (text : List Char) : List Char := (text.reverse.dropWhile isWhitespace).reverse

def trim (text : List Char) : List Char := trimEnd (trimStart text)

/-! ## Letters -/

/-- The letters of the Korean commands -/
def isHangul (c : Char) : Bool := 0xAC00 ≤ c.val && c.val ≤ 0xD7A3

/-- `str::to_lowercase` and `char::is_alphanumeric`, with what is known of their tables.  A capital
sigma is final before a colon and digits as it is at the end of a text, and `k` alone is the small
letter of a sign that is not ASCII. -/
structure Unicode where
  lowercase : List Char → List Char
  isAlphanumeric : Char → Bool
  lowercase_ascii : ∀ text, (∀ c ∈ text, c.val < 128) → lowercase text = text.map Char.toLower
  lowercase_hangul : ∀ text, (∀ c ∈ text, isHangul c) → lowercase text = text
  lowercase_numbered : ∀ text digits, (∀ c ∈ digits, c.isDigit) →
    lowercase (text ++ ':' :: digits) = lowercase text ++ ':' :: digits
  ascii_of_lowercase : ∀ text, (∀ c ∈ lowercase text, c.val < 128 ∧ c ≠ 'k') →
    ∀ c ∈ text, c.val < 128
  hangul_of_lowercase : ∀ text, (∀ c ∈ lowercase text, isHangul c) → ∀ c ∈ text, isHangul c
  alphanumeric_visible : ∀ c, isAlphanumeric c → isWhitespace c = false

theorem lower_small : ∀ n < 128, (Char.ofNat n).toLower.toNat < 128 ∧
    ((Char.ofNat n).isDigit = true → (Char.ofNat n).toLower = Char.ofNat n) := by decide

theorem toLower_cases (c : Char) : c.toLower = c ∨ (c.toNat < 128 ∧ c.toLower.toNat < 128) := by
  by_cases capital : c.val ≥ 'A'.val ∧ c.val ≤ 'Z'.val
  · right
    obtain ⟨low, high⟩ := capital
    rw [UInt32.le_iff_toNat_le] at high
    have small : c.toNat < 128 := by
      have last : 'Z'.val.toNat < 128 := by decide
      show c.val.toNat < 128
      omega
    have known := (lower_small c.toNat small).1
    rw [Char.ofNat_toNat] at known
    exact ⟨small, known⟩
  · left
    unfold Char.toLower
    rw [dif_neg capital]

theorem small_of_alphanum {c : Char} (alphanumeric : c.isAlphanum = true) : c.toNat < 128 := by
  unfold Char.isAlphanum Char.isAlpha Char.isUpper Char.isLower Char.isDigit at alphanumeric
  simp only [Bool.or_eq_true, Bool.and_eq_true, decide_eq_true_eq, UInt32.le_iff_toNat_le,
    ge_iff_le] at alphanumeric
  have nine : '9'.val.toNat < 128 := by decide
  have capital : 'Z'.val.toNat < 128 := by decide
  have last : 'z'.val.toNat < 128 := by decide
  show c.val.toNat < 128
  omega

theorem alphanum_visible : ∀ n < 128, (Char.ofNat n).isAlphanum = true →
    isWhitespace (Char.ofNat n) = false := by decide

theorem toLower_digit {c : Char} (digit : c.isDigit = true) : c.toLower = c := by
  have small : c.toNat < 128 := small_of_alphanum (by rw [Char.isAlphanum, digit, Bool.or_true])
  have known := (lower_small c.toNat small).2
  rw [Char.ofNat_toNat] at known
  exact known digit

theorem hangul_large {c : Char} (hangul : isHangul c = true) : ¬ c.toNat < 128 := by
  simp only [isHangul, Bool.and_eq_true, decide_eq_true_eq, UInt32.le_iff_toNat_le] at hangul
  have first : (0xAC00 : UInt32).toNat = 44032 := by decide
  show ¬ c.val.toNat < 128
  omega

/-- The tables for texts without other letters -/
def asciiUnicode : Unicode where
  lowercase := List.map Char.toLower
  isAlphanumeric := Char.isAlphanum
  lowercase_ascii _ _ := rfl
  lowercase_hangul text all := by
    refine (List.map_congr_left fun c member => ?_).trans (List.map_id text)
    obtain same | ⟨small, -⟩ := toLower_cases c
    · exact same
    · exact absurd small (hangul_large (all c member))
  lowercase_numbered text digits all := by
    have same : digits.map Char.toLower = digits.map id :=
      List.map_congr_left fun c member => toLower_digit (all c member)
    rw [List.map_append, List.map_cons, same, List.map_id]
    rfl
  ascii_of_lowercase text all c member := by
    obtain same | ⟨small, -⟩ := toLower_cases c
    · rw [← same]
      exact (all _ (List.mem_map_of_mem member)).1
    · exact UInt32.lt_iff_toNat_lt.2 small
  hangul_of_lowercase text all c member := by
    have hangul := all _ (List.mem_map_of_mem member)
    obtain same | ⟨-, small⟩ := toLower_cases c
    · rwa [same] at hangul
    · exact absurd small (hangul_large hangul)
  alphanumeric_visible c alphanumeric := by
    have known := alphanum_visible c.toNat (small_of_alphanum alphanumeric)
    rw [Char.ofNat_toNat] at known
    exact known alphanumeric

/-! ## Cutting -/

/-- `rfind('\n')`, as a count of scalars. -/
def rfindNewline (text : List Char) : Option Nat :=
  (text.reverse.findIdx? (· == '\n')).map fun fromEnd => text.length - 1 - fromEnd

/-- Where `split_message` cuts: at the last newline of the prefix, unless that is its start. -/
def splitAt (limit : Nat) (remaining : List Char) : Nat :=
  ((rfindNewline (remaining.take limit)).filter (0 < ·)).getD (remaining.take limit).length

theorem splitAt_pos {limit : Nat} {remaining : List Char} (positive : 0 < limit)
    (long : limit < remaining.length) : 0 < splitAt limit remaining := by
  unfold splitAt
  cases found : (rfindNewline (remaining.take limit)).filter (0 < ·) with
  | some index =>
    rw [Option.filter_eq_some_iff] at found
    simpa using found.2
  | none =>
    simp only [Option.getD_none, List.length_take]
    omega

theorem trimStart_length_le (text : List Char) : (trimStart text).length ≤ text.length :=
  (List.dropWhile_sublist _).length_le

/-- A text that trims to nothing is whitespace. -/
theorem white_of_trim {text : List Char} (none_ : trim text = []) :
    ∀ c ∈ text, isWhitespace c = true := by
  rw [trim, trimEnd, List.reverse_eq_nil_iff, List.dropWhile_eq_nil_iff] at none_
  have start : trimStart text = [] := by
    cases shape : trimStart text with
    | nil => rfl
    | cons c rest =>
      have visible := List.head?_dropWhile_not isWhitespace text
      rw [show text.dropWhile isWhitespace = c :: rest from shape] at visible
      have white := none_ c (by rw [shape]; simp)
      simp [white] at visible
  rwa [trimStart, List.dropWhile_eq_nil_iff] at start

theorem trim_white_append {white : List Char} (blank : ∀ c ∈ white, isWhitespace c = true)
    (text : List Char) : trim (white ++ text) = trim text := by
  have start : trimStart (white ++ text) = trimStart text := by
    rw [trimStart, List.dropWhile_append_of_pos blank]
    rfl
  rw [trim, start]
  rfl

theorem trimEnd_append_white (text : List Char) {white : List Char}
    (blank : ∀ c ∈ white, isWhitespace c = true) : trimEnd (text ++ white) = trimEnd text := by
  rw [trimEnd, List.reverse_append, List.dropWhile_append_of_pos (by simpa using blank)]
  rfl

theorem trim_append_white (text : List Char) {white : List Char}
    (blank : ∀ c ∈ white, isWhitespace c = true) : trim (text ++ white) = trim text := by
  by_cases all : ∀ c ∈ text, isWhitespace c = true
  · have right := trim_white_append all white
    have left := trim_white_append all []
    have none_ := trim_white_append blank []
    rw [List.append_nil] at left none_
    rw [right, left, none_]
  · have start : trimStart (text ++ white) = trimStart text ++ white := by
      rw [trimStart, List.dropWhile_append, if_neg]
      · rfl
      · rw [List.isEmpty_iff, List.dropWhile_eq_nil_iff]
        exact all
    rw [trim, start, trimEnd_append_white _ blank]
    rfl

theorem trim_visible {text : List Char} (visible : ∀ c ∈ text, isWhitespace c = false) :
    trim text = text := by
  have start : ∀ text : List Char, (∀ c ∈ text, isWhitespace c = false) →
      text.dropWhile isWhitespace = text := by
    intro text visible
    cases text with
    | nil => rfl
    | cons c rest => rw [List.dropWhile_cons_of_neg (by simp [visible c (List.mem_cons_self ..)])]
  rw [trim, trimStart, start text visible, trimEnd,
    start _ fun c member => visible c (List.mem_reverse.1 member), List.reverse_reverse]

/-- The `while` loop of `split_message`. -/
def splitLoop (limit : Nat) (positive : 0 < limit) (remaining : List Char) : List (List Char) :=
  if _long : limit < remaining.length then
    let index := splitAt limit remaining
    trim (remaining.take index) :: splitLoop limit positive (trimStart (remaining.drop index))
  else if remaining.isEmpty then [] else [remaining]
termination_by remaining.length
decreasing_by
  have shorter := trimStart_length_le (remaining.drop (splitAt limit remaining))
  have cut := splitAt_pos positive ‹_›
  rw [List.length_drop] at shorter
  omega

def splitMessage (text : String) (limit : Nat) (positive : 0 < limit) : List String :=
  let remaining := trim text.toList
  if remaining.isEmpty then ["(no output)"]
  else (splitLoop limit positive remaining).map String.ofList

def splitDeliveryChunks (text : String) (markersEnabled : Bool) : List String :=
  if !markersEnabled then splitMessage text discordMaxLen (by decide)
  else
    let chunks := splitMessage text (discordMaxLen - chunkMarkerBudget) (by decide)
    if chunks.length ≤ 1 then chunks
    else chunks.mapIdx fun index chunk =>
      "[" ++ toString (index + 1) ++ "/" ++ toString chunks.length ++ "]\n" ++ chunk

/-- The `while` loop of `split_exact_delivery_chunks` -/
def exactLoop (limit : Nat) (positive : 0 < limit) (remaining : List Char) : List (List Char) :=
  if _more : remaining.isEmpty then []
  else remaining.take limit :: exactLoop limit positive (remaining.drop limit)
termination_by remaining.length
decreasing_by
  have some_ : 0 < remaining.length := List.length_pos_iff.2 (by simpa using _more)
  rw [List.length_drop]
  omega

def exactLimit (markersEnabled : Bool) : Nat :=
  discordMaxLen - if markersEnabled then chunkMarkerBudget else 0

theorem exactLimit_pos (markersEnabled : Bool) : 0 < exactLimit markersEnabled := by
  cases markersEnabled <;> decide

/-- Split a saved structured payload without trimming meaningful whitespace. -/
def splitExactDeliveryChunks (text : String) (markersEnabled : Bool) : List String :=
  if text.isEmpty then ["(no output)"]
  else
    let chunks := (exactLoop (exactLimit markersEnabled) (exactLimit_pos markersEnabled)
      text.toList).map String.ofList
    if markersEnabled && 1 < chunks.length then
      chunks.mapIdx fun index chunk =>
        "[" ++ toString (index + 1) ++ "/" ++ toString chunks.length ++ "]\n" ++ chunk
    else chunks

/-! ## Requests that create a Discord message -/

/-- `twilight_http::error::ErrorType`, as far as the sending path looks at it. -/
inductive HttpErrorType where
  | buildingRequest
  | creatingHeader
  | json
  | unauthorized
  | validation
  | response (status : Nat)
  | other
deriving DecidableEq, Repr

inductive IdempotentMessageError where
  | contentEmpty
  | contentTooLong (actual maximum : Nat)
  | request (kind : HttpErrorType) (text : String)
  | receipt (text : String)
deriving DecidableEq, Repr

def IdempotentMessageError.toText : IdempotentMessageError → String
  | .contentEmpty => "Discord message content must not be empty"
  | .contentTooLong actual maximum =>
    "Discord message content has " ++ toString actual ++ " characters; maximum is " ++
      toString maximum
  | .request _ text => "Discord HTTP request failed: " ++ text
  | .receipt text => "Discord message receipt decode failed: " ++ text

/-- The request builder of the HTTP client, for a channel and a payload whose nonce comes
from the domain, the logical key and the chunk index. -/
abbrev RequestBuilder :=
  Nat → String → String → String → Nat → Except IdempotentMessageError Unit

/-- `idempotent_message_request_with_components`, without components -/
def idempotentMessageRequest (build : RequestBuilder) (channel : Nat)
    (content domain logicalKey : String) (chunkIndex : Nat) : Except IdempotentMessageError Unit :=
  if (trim content.toList).isEmpty then .error .contentEmpty
  else if content.length > discordMaxLen then
    .error (.contentTooLong content.length discordMaxLen)
  else build channel content domain logicalKey chunkIndex

def retryableRejection : IdempotentMessageError → Bool
  | .request (.response status) _ => status == 429
  | _ => false

def definitelyRejected : IdempotentMessageError → Bool
  | .contentEmpty | .contentTooLong _ _ => true
  | .request kind _ =>
    match kind with
    | .buildingRequest | .creatingHeader | .json | .unauthorized | .validation => true
    | .response status => [400, 401, 403, 404, 405, 413, 415, 422, 429].contains status
    | .other => false
  | .receipt _ => false

end CodexRemote.Discord

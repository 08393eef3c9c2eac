import Mathlib.Tactic.Field

/-! # Encodings

Bytes as hexadecimal digits, as base64 with canonical padding, and as UTF-8 text; lists of words as
one text; numbers as decimal numerals.
-/

namespace CodexRemote.Foundations

/-! ## Hexadecimal digits -/

/-- A digit or a letter from a to f, in lower case. -/
def lowerHexdigit (c : Char) : Bool := c.isDigit || ('a' ≤ c && c ≤ 'f')

def hexEncode (bytes : List UInt8) : String :=
  String.ofList (bytes.flatMap fun byte =>
    [Nat.digitChar (byte.toNat / 16), Nat.digitChar (byte.toNat % 16)])

theorem lowerHexdigit_digitChar : ∀ digit < 16, lowerHexdigit (Nat.digitChar digit) = true := by
  decide

theorem length_hexEncode (bytes : List UInt8) :
    (hexEncode bytes).length = 2 * bytes.length := by
  simp [hexEncode, List.length_flatMap, Nat.mul_comm]

theorem hexEncode_digits (bytes : List UInt8) :
    (hexEncode bytes).toList.all lowerHexdigit = true := by
  rw [List.all_eq_true]
  intro c member
  simp only [hexEncode, String.toList_ofList, List.mem_flatMap] at member
  obtain ⟨byte, -, digit⟩ := member
  have small := byte.toNat_lt
  simp only [List.mem_cons, List.not_mem_nil, or_false] at digit
  obtain high | low := digit
  · rw [high]
    exact lowerHexdigit_digitChar _ (by omega)
  · rw [low]
    exact lowerHexdigit_digitChar _ (by omega)

/-! ## UTF-8 -/

def utf8Bytes (text : String) : List UInt8 := text.toUTF8.data.toList

/-- The text that the bytes spell. -/
def utf8Text (bytes : List UInt8) : Option String := String.fromUTF8? ⟨bytes.toArray⟩

/-- What reads as a text is that text's bytes. -/
theorem utf8Bytes_of_text {bytes : List UInt8} {text : String} (read : utf8Text bytes = some text) :
    utf8Bytes text = bytes := by
  simp only [utf8Text, String.fromUTF8?] at read
  split at read
  · cases read
    rfl
  · cases read

theorem valid_append_iff {front back : ByteArray} (valid : front.IsValidUTF8) :
    (front ++ back).IsValidUTF8 ↔ back.IsValidUTF8 := by
  obtain ⟨chars, rfl⟩ := valid
  induction chars with
  | nil => simp
  | cons c chars ih =>
    rw [List.utf8Encode_cons, ByteArray.append_assoc,
      ByteArray.isValidUTF8_utf8Encode_singleton_append_iff, ih]

/-- Bytes after a text read as they do alone. -/
theorem utf8Text_append {front back : List UInt8} {text : String}
    (read : utf8Text front = some text) :
    utf8Text (front ++ back) = (utf8Text back).map (text ++ ·) := by
  have joined : (⟨(front ++ back).toArray⟩ : ByteArray) = ⟨front.toArray⟩ ++ ⟨back.toArray⟩ := by
    apply ByteArray.ext
    simp
  simp only [utf8Text, String.fromUTF8?] at read ⊢
  split at read
  · next valid =>
    cases read
    rw [joined]
    by_cases more : (⟨back.toArray⟩ : ByteArray).IsValidUTF8
    · rw [dif_pos ((valid_append_iff valid).2 more), dif_pos more]
      rfl
    · rw [dif_neg (fun whole => more ((valid_append_iff valid).1 whole)), dif_neg more]
      rfl
  · cases read

/-! ## Base64 -/

def base64Char (digit : Nat) : Char :=
  if digit < 26 then Char.ofNat (65 + digit)
  else if digit < 52 then Char.ofNat (97 + (digit - 26))
  else if digit < 62 then Char.ofNat (48 + (digit - 52))
  else if digit = 62 then '+' else '/'

def base64Digit (c : Char) : Option Nat :=
  if 'A' ≤ c ∧ c ≤ 'Z' then some (c.toNat - 65)
  else if 'a' ≤ c ∧ c ≤ 'z' then some (c.toNat - 97 + 26)
  else if '0' ≤ c ∧ c ≤ '9' then some (c.toNat - 48 + 52)
  else if c = '+' then some 62
  else if c = '/' then some 63
  else none

def base64Chars : List UInt8 → List Char
  | [] => []
  | [a] => [base64Char (a.toNat / 4), base64Char (a.toNat % 4 * 16), '=', '=']
  | [a, b] =>
    [base64Char (a.toNat / 4), base64Char (a.toNat % 4 * 16 + b.toNat / 16),
      base64Char (b.toNat % 16 * 4), '=']
  | a :: b :: c :: rest =>
    base64Char (a.toNat / 4) :: base64Char (a.toNat % 4 * 16 + b.toNat / 16) ::
      base64Char (b.toNat % 16 * 4 + c.toNat / 64) :: base64Char (c.toNat % 64) ::
      base64Chars rest

def base64Encode (bytes : List UInt8) : String := String.ofList (base64Chars bytes)

/-- A last group with padding; the bits that spell no byte are zero. -/
def base64Tail (w x y : Char) : Option (List UInt8) :=
  match base64Digit w, base64Digit x with
  | some p, some q =>
    if y = '=' then if q % 16 = 0 then some [.ofNat (p * 4 + q / 16)] else none
    else match base64Digit y with
      | some r =>
        if r % 4 = 0 then some [.ofNat (p * 4 + q / 16), .ofNat (q % 16 * 16 + r / 4)] else none
      | none => none
  | _, _ => none

def base64Bytes : List Char → Option (List UInt8)
  | [] => some []
  | w :: x :: y :: z :: rest =>
    if z = '=' ∧ rest = [] then base64Tail w x y
    else match base64Digit w, base64Digit x, base64Digit y, base64Digit z, base64Bytes rest with
      | some p, some q, some r, some s, some bytes =>
        some (.ofNat (p * 4 + q / 16) :: .ofNat (q % 16 * 16 + r / 4) ::
          .ofNat (r % 4 * 64 + s) :: bytes)
      | _, _, _, _, _ => none
  | _ => none

def base64Decode (text : String) : Option (List UInt8) := base64Bytes text.toList

theorem base64Digit_char : ∀ digit < 64, base64Digit (base64Char digit) = some digit := by
  decide

theorem base64Char_ne_padding : ∀ digit < 64, base64Char digit ≠ '=' := by
  decide

theorem base64Bytes_chars (bytes : List UInt8) : base64Bytes (base64Chars bytes) = some bytes := by
  induction bytes using base64Chars.induct with
  | case1 => rfl
  | case2 a =>
    have small := a.toNat_lt
    have byte : a.toNat / 4 * 4 + a.toNat % 4 * 16 / 16 = a.toNat := by omega
    have clear : a.toNat % 4 * 16 % 16 = 0 := by omega
    simp only [base64Chars, base64Bytes, base64Tail, and_self, if_true, clear, byte,
      base64Digit_char _ (show a.toNat / 4 < 64 by omega),
      base64Digit_char _ (show a.toNat % 4 * 16 < 64 by omega), UInt8.ofNat_toNat]
  | case3 a b =>
    have := a.toNat_lt
    have := b.toNat_lt
    have first : a.toNat / 4 * 4 + (a.toNat % 4 * 16 + b.toNat / 16) / 16 = a.toNat := by omega
    have second : (a.toNat % 4 * 16 + b.toNat / 16) % 16 * 16 + b.toNat % 16 * 4 / 4 = b.toNat := by
      omega
    have clear : b.toNat % 16 * 4 % 4 = 0 := by omega
    simp only [base64Chars, base64Bytes, base64Tail, and_self, if_true,
      base64Digit_char _ (show a.toNat / 4 < 64 by omega),
      base64Digit_char _ (show a.toNat % 4 * 16 + b.toNat / 16 < 64 by omega),
      base64Digit_char _ (show b.toNat % 16 * 4 < 64 by omega),
      base64Char_ne_padding _ (show b.toNat % 16 * 4 < 64 by omega), if_false, clear, first, second,
      UInt8.ofNat_toNat]
  | case4 a b c rest ih =>
    have := a.toNat_lt
    have := b.toNat_lt
    have := c.toNat_lt
    have first : a.toNat / 4 * 4 + (a.toNat % 4 * 16 + b.toNat / 16) / 16 = a.toNat := by omega
    have second : (a.toNat % 4 * 16 + b.toNat / 16) % 16 * 16 +
        (b.toNat % 16 * 4 + c.toNat / 64) / 4 = b.toNat := by omega
    have third : (b.toNat % 16 * 4 + c.toNat / 64) % 4 * 64 + c.toNat % 64 = c.toNat := by omega
    simp only [base64Chars, base64Bytes, ih,
      base64Digit_char _ (show a.toNat / 4 < 64 by omega),
      base64Digit_char _ (show a.toNat % 4 * 16 + b.toNat / 16 < 64 by omega),
      base64Digit_char _ (show b.toNat % 16 * 4 + c.toNat / 64 < 64 by omega),
      base64Digit_char _ (show c.toNat % 64 < 64 by omega),
      base64Char_ne_padding _ (show c.toNat % 64 < 64 by omega), false_and, if_false, first, second,
      third, UInt8.ofNat_toNat]

theorem base64Decode_encode (bytes : List UInt8) :
    base64Decode (base64Encode bytes) = some bytes := by
  rw [base64Decode, base64Encode, String.toList_ofList]
  exact base64Bytes_chars bytes

example : base64Encode [77, 97, 110, 77] = "TWFuTQ==" := by decide

/-! ## Words in one text

A list of words as one list of characters: each character of a word is marked, and each word is
closed.  Splitting reads the words back.
-/

def joinWord (word : List Char) : List Char := word.flatMap (fun c => ['+', c]) ++ ['.']

def joinWords (words : List (List Char)) : List Char := words.flatMap joinWord

/-- One more character of the first word -/
def extendFirst (c : Char) : List (List Char) → List (List Char)
  | [] => [[c]]
  | word :: words => (c :: word) :: words

def splitWords : List Char → List (List Char)
  | [] => []
  | '+' :: c :: rest => extendFirst c (splitWords rest)
  | _ :: rest => [] :: splitWords rest

theorem splitWords_joinWord (word rest : List Char) :
    splitWords (joinWord word ++ rest) = word :: splitWords rest := by
  induction word with
  | nil => simp [joinWord, splitWords]
  | cons c word ih =>
    have step : joinWord (c :: word) ++ rest = '+' :: c :: (joinWord word ++ rest) := by
      simp [joinWord]
    rw [step, splitWords, ih, extendFirst]

theorem splitWords_joinWords (words : List (List Char)) : splitWords (joinWords words) = words := by
  induction words with
  | nil => rfl
  | cons word words ih =>
    show splitWords (joinWord word ++ joinWords words) = _
    rw [splitWords_joinWord, ih]

/-! ## Words of integers and of options -/

/-- The magnitude in unary, under the sign -/
def intWord : Int → List Char
  | .ofNat n => List.replicate n '+'
  | .negSucc n => List.replicate (n + 1) '-'

def wordInt : List Char → Int
  | '-' :: rest => .negSucc rest.length
  | word => .ofNat word.length

theorem wordInt_intWord (value : Int) : wordInt (intWord value) = value := by
  cases value with
  | ofNat n => cases n <;> simp [intWord, wordInt, List.replicate_succ]
  | negSucc n => simp [intWord, wordInt, List.replicate_succ]

def optionWord (word : Option (List Char)) : List Char := word.elim [] ('=' :: ·)

def wordOption : List Char → Option (List Char)
  | [] => none
  | _ :: word => some word

theorem wordOption_optionWord (word : Option (List Char)) :
    wordOption (optionWord word) = word := by
  cases word <;> rfl

/-! ## Decimal numerals

Reading back what was printed: the parsers accept a sign and digits, and refuse what
does not fit.
-/

/-- The number that a non-empty list of digits stands for. -/
def digitsValue (digits : List Char) : Option Nat :=
  if digits.isEmpty || !digits.all Char.isDigit then none
  else some (Nat.ofDigitChars 10 digits 0)

/-- An unsigned number below `bound`, with an optional plus sign. -/
def parseUnsigned (bound : Nat) (text : String) : Option Nat :=
  let digits := match text.toList with
    | '+' :: rest => rest
    | all => all
  (digitsValue digits).filter (· < bound)

/-- A number with an optional sign. -/
def parseSigned (text : String) : Option Int :=
  match text.toList with
  | '-' :: rest => (digitsValue rest).map fun value => -(value : Int)
  | '+' :: rest => (digitsValue rest).map Int.ofNat
  | all => (digitsValue all).map Int.ofNat

def parseInt64 (text : String) : Option Int64 :=
  ((parseSigned text).filter fun value => -2 ^ 63 ≤ value && value < 2 ^ 63).map Int64.ofInt

theorem isDigit_toDigits {n : Nat} {c : Char} (member : c ∈ Nat.toDigits 10 n) :
    c.isDigit = true :=
  Nat.isDigit_of_mem_toDigits (by decide) (by decide) member

@[simp] theorem digitsValue_toDigits (n : Nat) : digitsValue (Nat.toDigits 10 n) = some n := by
  have digits : (Nat.toDigits 10 n).all Char.isDigit = true :=
    List.all_eq_true.2 fun _ member => isDigit_toDigits member
  have filled : (Nat.toDigits 10 n).isEmpty = false := by simp
  simp only [digitsValue, digits, filled]
  simp

/-- A printed natural number does not begin with a sign. -/
theorem toDigits_unsigned {n : Nat} {c : Char} {rest : List Char}
    (shape : Nat.toDigits 10 n = c :: rest) : c ≠ '-' ∧ c ≠ '+' := by
  have digit : c.isDigit = true :=
    @isDigit_toDigits n c (by rw [shape]; exact List.mem_cons_self ..)
  constructor
  · intro minus
    subst minus
    cases digit
  · intro plus
    subst plus
    cases digit

theorem parseUnsigned_repr {bound n : Nat} (small : n < bound) :
    parseUnsigned bound n.repr = some n := by
  simp only [parseUnsigned, Nat.toList_repr]
  split
  · next rest shape => exact absurd rfl (toDigits_unsigned shape).2
  · simp [small]

theorem parseSigned_repr (n : Nat) : parseSigned n.repr = some (n : Int) := by
  simp only [parseSigned, Nat.toList_repr]
  split
  · next rest shape => exact absurd rfl (toDigits_unsigned shape).1
  · next rest shape => exact absurd rfl (toDigits_unsigned shape).2
  · simp

theorem parseSigned_toString (value : Int) : parseSigned (toString value) = some value := by
  cases value with
  | ofNat n => exact parseSigned_repr n
  | negSucc n =>
    have shape : (toString (Int.negSucc n)).toList = '-' :: Nat.toDigits 10 (n + 1) := by
      show ("-" ++ (n + 1).repr).toList = _
      simp
    simp only [parseSigned, shape, digitsValue_toDigits]
    rfl

theorem parseInt64_toString (value : Int64) : parseInt64 (toString value) = some value := by
  have low := value.le_toInt
  have high := value.toInt_lt
  have read : parseSigned (toString value) = some value.toInt := parseSigned_toString _
  have fits : -2 ^ 63 ≤ value.toInt ∧ value.toInt < 2 ^ 63 := ⟨low, high⟩
  simp only [parseInt64, read, Option.filter_some, decide_eq_true fits.1, decide_eq_true fits.2]
  simp

end CodexRemote.Foundations

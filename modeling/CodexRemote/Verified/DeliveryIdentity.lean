import CodexRemote.Foundations.Sizes
import CodexRemote.Runtime.Delivery
import CodexRemote.Store.CompletionWork

/-! # What a logical key identifies

The fields of a length-prefixed key can be read back from it, whatever characters they are made of,
so that the text for a turn begins the keys of that turn's receipts and no others.
-/

namespace CodexRemote.Verified.DeliveryIdentity

open Foundations CodexRemote.Runtime
open Store (turnLogical heldCommentary startsWith)

/-! ## Keys of texts -/

theorem toDigits_injective : Function.Injective (Nat.toDigits 10) := by
  intro a b same
  have read := congrArg digitsValue same
  simpa only [digitsValue_toDigits, Option.some.injEq] using read

theorem colon_not_digit (n : Nat) : ':' ∉ Nat.toDigits 10 n := by
  intro member
  cases isDigit_toDigits member

/-- The fields of a text's key -/
def textFields : List (List Char) → List Char :=
  Sizes.fields Char.utf8Size (Nat.toDigits 10) ':' ';'

theorem textFields_begin {parts others : List (List Char)} :
    textFields parts <+: textFields others ↔ parts <+: others :=
  Sizes.fields_begin Char.utf8Size_pos toDigits_injective colon_not_digit

theorem utf8ByteSize_total (text : String) :
    text.utf8ByteSize = Sizes.total Char.utf8Size text.toList := by
  have sum : ∀ chars, String.utf8Len chars = Sizes.total Char.utf8Size chars := by
    intro chars
    induction chars with
    | nil => rfl
    | cons c chars ih => rw [String.utf8Len_cons, Sizes.total_cons, ih, Nat.add_comm]
  rw [← sum, ← String.utf8ByteSize_ofList, String.ofList_toList]

theorem lengthPrefixed_field (part : String) :
    (part.utf8ByteSize.repr ++ ":" ++ part ++ ";").toList =
      Sizes.field Char.utf8Size (Nat.toDigits 10) ':' ';' part.toList := by
  simp [Sizes.field, utf8ByteSize_total]

theorem lengthPrefixedKey_toList (parts : List String) :
    (lengthPrefixedKey parts).toList = textFields (parts.map String.toList) := by
  have step : ∀ key : String,
      (parts.foldl (fun key part => key ++ part.utf8ByteSize.repr ++ ":" ++ part ++ ";") key).toList =
        key.toList ++ textFields (parts.map String.toList) := by
    induction parts with
    | nil => simp [textFields, Sizes.fields]
    | cons part parts ih =>
      intro key
      have field := lengthPrefixed_field part
      simp only [String.toList_append] at field
      rw [List.foldl_cons, ih]
      simp only [String.toList_append, List.append_assoc, textFields, Sizes.fields, List.map_cons,
        List.flatMap_cons] at field ⊢
      rw [← field]
      simp only [List.append_assoc]
  simpa [lengthPrefixedKey] using step ""

theorem lengthPrefixedKey_injective : Function.Injective lengthPrefixedKey := by
  intro parts others same
  have fields := congrArg String.toList same
  rw [lengthPrefixedKey_toList, lengthPrefixedKey_toList] at fields
  have texts := Sizes.fields_injective Char.utf8Size_pos toDigits_injective colon_not_digit fields
  exact List.map_injective_iff.2 (fun _ _ => String.toList_inj.1) texts

/-! ## Keys of bytes -/

def digitBytes (n : Nat) : List UInt8 := (Nat.toDigits 10 n).map fun c => UInt8.ofNat c.toNat

/-- The key of byte strings, a byte being of size one -/
def lengthPrefixedBytes : List (List UInt8) → List UInt8 :=
  Sizes.fields (fun _ => 1) digitBytes 58 59

theorem digitBytes_read (n : Nat) :
    (digitBytes n).map (fun byte => Char.ofNat byte.toNat) = Nat.toDigits 10 n := by
  rw [digitBytes, List.map_map]
  refine (List.map_congr_left fun c member => ?_).trans (List.map_id _)
  have digit := isDigit_toDigits member
  have small : c.toNat < 256 := by
    simp only [Char.isDigit, Bool.and_eq_true, decide_eq_true_eq, UInt32.le_iff_toNat_le] at digit
    have nine : '9'.val.toNat < 256 := by decide
    show c.val.toNat < 256
    omega
  show Char.ofNat (UInt8.ofNat c.toNat).toNat = c
  rw [UInt8.toNat_ofNat_of_lt' small, Char.ofNat_toNat]

theorem digitBytes_injective : Function.Injective digitBytes := by
  intro a b same
  apply toDigits_injective
  rw [← digitBytes_read, same, digitBytes_read]

theorem colon_not_digitByte (n : Nat) : 58 ∉ digitBytes n := by
  intro member
  have read := List.mem_map_of_mem (f := fun byte : UInt8 => Char.ofNat byte.toNat) member
  rw [digitBytes_read] at read
  exact colon_not_digit n read

theorem lengthPrefixedBytes_injective : Function.Injective lengthPrefixedBytes :=
  Sizes.fields_injective (fun _ => Nat.one_pos) digitBytes_injective colon_not_digitByte

theorem utf8Bytes_append (a b : String) : utf8Bytes (a ++ b) = utf8Bytes a ++ utf8Bytes b := by
  simp [utf8Bytes, String.toUTF8_eq_toByteArray]

theorem utf8Bytes_length (text : String) : (utf8Bytes text).length = text.utf8ByteSize := by
  simp [utf8Bytes, String.toUTF8_eq_toByteArray]

theorem utf8Bytes_digits (n : Nat) : utf8Bytes n.repr = digitBytes n := by
  have encoded : ∀ digits : List Char, (∀ c ∈ digits, c.isDigit = true) →
      digits.flatMap String.utf8EncodeChar = digits.map fun c => UInt8.ofNat c.toNat := by
    intro digits all
    induction digits with
    | nil => rfl
    | cons c digits ih =>
      have digit := all c (List.mem_cons_self ..)
      have small : c.val.toNat ≤ 127 := by
        simp only [Char.isDigit, Bool.and_eq_true, decide_eq_true_eq,
          UInt32.le_iff_toNat_le] at digit
        have nine : '9'.val.toNat ≤ 127 := by decide
        omega
      rw [List.flatMap_cons, ih fun d member => all d (List.mem_cons_of_mem _ member),
        String.utf8EncodeChar, if_pos small]
      rfl
  have digits := encoded (Nat.toDigits 10 n) fun c => isDigit_toDigits
  rw [digitBytes, ← digits, utf8Bytes, String.toUTF8_eq_toByteArray]
  simp [Nat.repr, List.utf8Encode]

/-- The key of texts, in bytes, is the key of their bytes. -/
theorem utf8Bytes_key (parts : List String) :
    utf8Bytes (lengthPrefixedKey parts) = lengthPrefixedBytes (parts.map utf8Bytes) := by
  have field : ∀ part : String, utf8Bytes (part.utf8ByteSize.repr ++ ":" ++ part ++ ";") =
      Sizes.field (fun _ => 1) digitBytes 58 59 (utf8Bytes part) := by
    intro part
    have size : Sizes.total (fun _ => 1) (utf8Bytes part) = part.utf8ByteSize := by
      rw [← utf8Bytes_length, Sizes.total]
      simp
    have colon : utf8Bytes ":" = [58] := by decide
    have semicolon : utf8Bytes ";" = [59] := by decide
    rw [Sizes.field, size, utf8Bytes_append, utf8Bytes_append, utf8Bytes_append, utf8Bytes_digits,
      colon, semicolon, List.append_assoc, List.append_assoc]
    rfl
  have step : ∀ key : String,
      utf8Bytes (parts.foldl (fun key part => key ++ part.utf8ByteSize.repr ++ ":" ++ part ++ ";")
          key) = utf8Bytes key ++ lengthPrefixedBytes (parts.map utf8Bytes) := by
    induction parts with
    | nil => exact fun _ => (List.append_nil _).symm
    | cons part parts ih =>
      intro key
      have here := field part
      simp only [utf8Bytes_append] at here
      rw [List.foldl_cons, ih]
      simp only [utf8Bytes_append, List.append_assoc, lengthPrefixedBytes, Sizes.fields,
        List.map_cons, List.flatMap_cons] at here ⊢
      rw [← here]
      simp only [List.append_assoc]
  have empty : utf8Bytes "" = [] := by decide
  have whole := step ""
  rwa [empty, List.nil_append] at whole

/-! ## The text for a turn -/

theorem turnLogical_toList (thread turn : String) :
    (turnLogical thread turn).toList = textFields [thread.toList, turn.toList] := by
  have threadField := lengthPrefixed_field thread
  have turnField := lengthPrefixed_field turn
  simp only [String.toList_append] at threadField turnField
  simp only [turnLogical, String.toList_append, textFields, Sizes.fields, List.flatMap_cons,
    List.flatMap_nil, List.append_nil, ← threadField, ← turnField, List.append_assoc]
  rfl

/-- The text for a turn begins the keys whose first fields are that turn. -/
theorem turn_begins_iff (thread turn identityThread identityTurn : String)
    (following : List String) :
    (turnLogical thread turn).toList <+:
        (lengthPrefixedKey (identityThread :: identityTurn :: following)).toList ↔
      thread = identityThread ∧ turn = identityTurn := by
  rw [turnLogical_toList, lengthPrefixedKey_toList, textFields_begin]
  simp only [List.map_cons, List.cons_prefix_cons, List.nil_prefix, and_true, String.toList_inj]

theorem instr_eq_one_iff (text part : List Char) : instr text part = 1 ↔ part <+: text := by
  rw [instr.eq_def, ← List.isPrefixOf_iff_prefix]
  by_cases front : part.isPrefixOf text = true
  · rw [if_pos front]
    exact iff_of_true rfl front
  · rw [if_neg front]
    refine iff_of_false ?_ front
    cases text with
    | nil => exact Nat.zero_ne_one
    | cons c rest =>
      dsimp only
      cases instr rest part with
      | zero => exact Nat.zero_ne_one
      | succ n =>
        show n + 1 + 1 ≠ 1
        omega

/-! ## Receipts of another turn -/

/-- The test of the held receipts, which asks whether the key begins with the turn's text -/
theorem held_commentary_iff (channel : Int) (target turn : String) (r : Store.ReceiptParts) :
    heldCommentary channel target turn r = true ↔
      r.channel = some channel ∧ r.domain = some commentaryNonceDomain ∧
        ∃ logical, r.logical = some logical ∧
          instr logical.toList (turnLogical target turn).toList = 1 := by
  simp only [heldCommentary, Bool.and_eq_true, beq_iff_eq, Option.any_eq_true, startsWith,
    List.isPrefixOf_iff_prefix, instr_eq_one_iff, and_assoc]
  rfl

/-- Keys identify their fields, in texts and in bytes, which agree, and the receipt of a commentary
holds back the rows of its own turn and channel only. -/
theorem logical_keys_identify (sha256 : List UInt8 → List UInt8) :
    Function.Injective lengthPrefixedKey ∧ Function.Injective lengthPrefixedBytes ∧
      (∀ parts, utf8Bytes (lengthPrefixedKey parts) = lengthPrefixedBytes (parts.map utf8Bytes)) ∧
      (∀ thread turn identityThread identityTurn : String, ∀ following : List String,
        (turnLogical thread turn).toList <+:
            (lengthPrefixedKey (identityThread :: identityTurn :: following)).toList ↔
          thread = identityThread ∧ turn = identityTurn) ∧
      (∀ thread turn identityThread identityTurn text : String,
        instr (CompletionDeliveryIdentity.commentary sha256 identityThread identityTurn
            text).logicalKey.toList (turnLogical thread turn).toList = 1 ↔
          thread = identityThread ∧ turn = identityTurn) ∧
      ∀ (channel held : Int) (thread turn identityThread identityTurn text : String),
        heldCommentary channel thread turn ⟨some held,
            some (CompletionDeliveryIdentity.commentary sha256 identityThread identityTurn text).domain,
            some (CompletionDeliveryIdentity.commentary sha256 identityThread identityTurn
              text).logicalKey⟩ = true ↔
          held = channel ∧ thread = identityThread ∧ turn = identityTurn := by
  have begins := fun thread turn identityThread identityTurn text =>
    (instr_eq_one_iff (CompletionDeliveryIdentity.commentary sha256 identityThread identityTurn
      text).logicalKey.toList (turnLogical thread turn).toList).trans
        (turn_begins_iff thread turn identityThread identityTurn _)
  refine ⟨lengthPrefixedKey_injective, lengthPrefixedBytes_injective, utf8Bytes_key, turn_begins_iff,
    begins, ?_⟩
  intro channel held thread turn identityThread identityTurn text
  rw [held_commentary_iff]
  constructor
  · rintro ⟨same, -, logical, key, first⟩
    rw [← Option.some.inj key] at first
    exact ⟨Option.some.inj same, (begins ..).1 first⟩
  · rintro ⟨rfl, turns⟩
    exact ⟨rfl, rfl, _, rfl, (begins ..).2 turns⟩

end CodexRemote.Verified.DeliveryIdentity

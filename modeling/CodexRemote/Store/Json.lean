import Mathlib.Data.List.Basic
import Mathlib.Tactic.Ring

/-! # JSON texts and values -/

namespace CodexRemote.Store

/-- The escapes of `serde_json` inside a string. -/
def jsonEscape (c : Char) : List Char :=
  if c == '"' then ['\\', '"']
  else if c == '\\' then ['\\', '\\']
  else if c.val == 8 then ['\\', 'b']
  else if c.val == 9 then ['\\', 't']
  else if c.val == 10 then ['\\', 'n']
  else if c.val == 12 then ['\\', 'f']
  else if c.val == 13 then ['\\', 'r']
  else if c.val < 0x20 then
    ['\\', 'u', '0', '0', Nat.digitChar (c.toNat / 16), Nat.digitChar (c.toNat % 16)]
  else [c]

def jsonString (text : String) : String :=
  "\"" ++ String.ofList (text.toList.flatMap jsonEscape) ++ "\""

/-- `serde_json::to_string` of a list of strings -/
def jsonStrings (texts : List String) : String :=
  "[" ++ String.intercalate "," (texts.map jsonString) ++ "]"

/-- `serde_json::Value`, with the fields of an object in the order of their names. -/
inductive Json where
  | null
  | bool (value : Bool)
  | integer (value : Int)
  | real (value : Rat)
  | text (value : String)
  | array (items : List Json)
  | object (fields : List (String × Json))

namespace Json

mutual
/-- Equality of values -/
def same : Json → Json → Bool
  | .null, .null => true
  | .bool a, .bool b => a == b
  | .integer a, .integer b => a == b
  | .real a, .real b => a == b
  | .text a, .text b => a == b
  | .array a, .array b => sameItems a b
  | .object a, .object b => sameFields a b
  | _, _ => false

def sameItems : List Json → List Json → Bool
  | [], [] => true
  | a :: restA, b :: restB => same a b && sameItems restA restB
  | _, _ => false

def sameFields : List (String × Json) → List (String × Json) → Bool
  | [], [] => true
  | (nameA, a) :: restA, (nameB, b) :: restB => nameA == nameB && same a b && sameFields restA restB
  | _, _ => false
end

mutual
theorem eq_of_same : ∀ a b : Json, same a b = true → a = b
  | .null, other, agree => by cases other <;> simp_all [same]
  | .bool _, other, agree => by cases other <;> simp_all [same]
  | .integer _, other, agree => by cases other <;> simp_all [same]
  | .real _, other, agree => by cases other <;> simp_all [same]
  | .text _, other, agree => by cases other <;> simp_all [same]
  | .array items, other, agree => by
      cases other with
      | array others =>
        rw [same] at agree
        rw [eq_of_sameItems items others agree]
      | _ => simp [same] at agree
  | .object fields, other, agree => by
      cases other with
      | object others =>
        rw [same] at agree
        rw [eq_of_sameFields fields others agree]
      | _ => simp [same] at agree

theorem eq_of_sameItems : ∀ a b : List Json, sameItems a b = true → a = b
  | [], [], _ => rfl
  | [], _ :: _, agree => by simp [sameItems] at agree
  | _ :: _, [], agree => by simp [sameItems] at agree
  | a :: restA, b :: restB, agree => by
      simp only [sameItems, Bool.and_eq_true] at agree
      rw [eq_of_same a b agree.1, eq_of_sameItems restA restB agree.2]

theorem eq_of_sameFields : ∀ a b : List (String × Json), sameFields a b = true → a = b
  | [], [], _ => rfl
  | [], _ :: _, agree => by simp [sameFields] at agree
  | _ :: _, [], agree => by simp [sameFields] at agree
  | (nameA, a) :: restA, (nameB, b) :: restB, agree => by
      simp only [sameFields, Bool.and_eq_true, beq_iff_eq] at agree
      rw [agree.1.1, eq_of_same a b agree.1.2, eq_of_sameFields restA restB agree.2]
end

mutual
theorem same_self : ∀ a : Json, same a a = true
  | .null => rfl
  | .bool _ | .integer _ | .real _ | .text _ => by simp [same]
  | .array items => by rw [same]; exact sameItems_self items
  | .object fields => by rw [same]; exact sameFields_self fields

theorem sameItems_self : ∀ items : List Json, sameItems items items = true
  | [] => rfl
  | a :: rest => by simp [sameItems, same_self a, sameItems_self rest]

theorem sameFields_self : ∀ fields : List (String × Json), sameFields fields fields = true
  | [] => rfl
  | (_, a) :: rest => by simp [sameFields, same_self a, sameFields_self rest]
end

/-- Values are equal as the store compares them. -/
instance : DecidableEq Json := fun a b =>
  decidable_of_iff (same a b = true) ⟨eq_of_same a b, fun equal => equal ▸ same_self a⟩

def get (value : Json) (key : String) : Option Json :=
  match value with
  | .object fields => (fields.find? (·.1 == key)).map (·.2)
  | _ => none

/-- `Value::pointer`, and a path of SQLite, through objects. -/
def pointer (value : Json) (path : List String) : Option Json := path.foldlM get value

def isObject : Json → Bool
  | .object _ => true
  | _ => false

def asArray : Json → Option (List Json)
  | .array items => some items
  | _ => none

def asText : Json → Option String
  | .text value => some value
  | _ => none

def asInteger : Json → Option Int
  | .integer value => some value
  | _ => none

def setField (key : String) (value : Json) : List (String × Json) → List (String × Json)
  | [] => [(key, value)]
  | (name, old) :: rest =>
    if name == key then (key, value) :: rest
    else if key < name then (key, value) :: (name, old) :: rest
    else (name, old) :: setField key value rest

def asBool : Json → Option Bool
  | .bool value => some value
  | _ => none

def ofText (text : Option String) : Json := text.elim .null .text

def ofInteger (value : Option Int) : Json := value.elim .null .integer

/-- `json_set` of one key at the root -/
def set (value : Json) (key : String) (field : Json) : Json :=
  match value with
  | .object fields => .object (setField key field fields)
  | other => other

theorem find_setField (key : String) (field : Json) (fields : List (String × Json)) :
    ((setField key field fields).find? (·.1 == key)).map (·.2) = some field := by
  induction fields with
  | nil => simp [setField]
  | cons first rest ih =>
    obtain ⟨name, old⟩ := first
    simp only [setField]
    split
    · simp
    · next different =>
      split
      · simp
      · rw [List.find?_cons]
        simp only [different]
        exact ih

theorem get_set {value : Json} (object : value.isObject) (key : String) (field : Json) :
    (value.set key field).get key = some field := by
  cases value with
  | object fields => exact find_setField key field fields
  | _ => cases object

theorem find_setField_ne {key other : String} (different : other ≠ key) (field : Json)
    (fields : List (String × Json)) :
    ((setField key field fields).find? (·.1 == other)).map (·.2) =
      (fields.find? (·.1 == other)).map (·.2) := by
  have apart : (key == other) = false := by simpa using Ne.symm different
  induction fields with
  | nil => simp [setField, apart]
  | cons first rest ih =>
    obtain ⟨name, old⟩ := first
    simp only [setField]
    split
    · next same =>
      rw [beq_iff_eq] at same
      simp [same, apart]
    · split
      · rw [List.find?_cons]
        simp only [apart]
      · rw [List.find?_cons, List.find?_cons]
        split
        · rfl
        · exact ih

theorem get_set_ne {key other : String} (different : other ≠ key) (value field : Json) :
    (value.set key field).get other = value.get other := by
  cases value with
  | object fields => exact find_setField_ne different field fields
  | _ => rfl

end Json

end CodexRemote.Store

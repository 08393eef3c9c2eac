import Mathlib.Data.Rat.BigOperators

/-! # Lists of sized elements

Elements have sizes, as the characters of a text have bytes.  A list is cut at the last boundary
between elements that is not beyond an index, and fields are strung together so that each begins
with its size.
-/

namespace CodexRemote.Foundations.Sizes

universe u

variable {α : Type u} (size : α → Nat)

def total (xs : List α) : Nat := (xs.map size).sum

@[simp] theorem total_nil : total size [] = 0 := rfl

@[simp] theorem total_cons (x : α) (xs : List α) : total size (x :: xs) = size x + total size xs :=
  rfl

@[simp] theorem total_append (xs ys : List α) :
    total size (xs ++ ys) = total size xs + total size ys := by
  rw [total, List.map_append, List.sum_append]
  rfl

/-! ## Cutting at a boundary -/

/-- The last boundary that is not beyond an index -/
def floorBoundary : List α → Nat → Nat
  | [], _ => 0
  | x :: xs, index =>
    if size x ≤ index then size x + floorBoundary xs (index - size x) else 0

/-- What lies before the last boundary that is not beyond an index -/
def cut : List α → Nat → List α
  | [], _ => []
  | x :: xs, index => if size x ≤ index then x :: cut xs (index - size x) else []

theorem floorBoundary_cons (x : α) (xs : List α) (index : Nat) :
    floorBoundary size (x :: xs) index =
      if size x ≤ index then size x + floorBoundary size xs (index - size x) else 0 := rfl

theorem cut_cons (x : α) (xs : List α) (index : Nat) :
    cut size (x :: xs) index = if size x ≤ index then x :: cut size xs (index - size x) else [] :=
  rfl

theorem total_cut (xs : List α) (index : Nat) :
    total size (cut size xs index) = floorBoundary size xs index := by
  induction xs generalizing index with
  | nil => rfl
  | cons x xs ih =>
    rw [cut_cons, floorBoundary_cons]
    by_cases fits : size x ≤ index
    · rw [if_pos fits, if_pos fits, total_cons, ih]
    · rw [if_neg fits, if_neg fits, total_nil]

theorem floorBoundary_le (xs : List α) (index : Nat) : floorBoundary size xs index ≤ index := by
  induction xs generalizing index with
  | nil => exact Nat.zero_le _
  | cons x xs ih =>
    rw [floorBoundary_cons]
    by_cases fits : size x ≤ index
    · have rest := ih (index - size x)
      rw [if_pos fits]
      omega
    · rw [if_neg fits]
      exact Nat.zero_le _

theorem cut_front (xs : List α) (index : Nat) : cut size xs index <+: xs := by
  induction xs generalizing index with
  | nil => exact List.nil_prefix
  | cons x xs ih =>
    rw [cut_cons]
    by_cases fits : size x ≤ index
    · rw [if_pos fits, List.cons_prefix_cons]
      exact ⟨rfl, ih _⟩
    · rw [if_neg fits]
      exact List.nil_prefix

variable {index : Nat} {xs : List α}

theorem cut_all (fits : total size xs ≤ index) :
    cut size xs index = xs := by
  induction xs generalizing index with
  | nil => rfl
  | cons x xs ih =>
    rw [total_cons] at fits
    rw [cut_cons, if_pos (by omega), ih (by omega)]

/-- A list that fits is passed, and the cut is made in what follows. -/
theorem cut_append (fits : total size xs ≤ index) (ys : List α) :
    cut size (xs ++ ys) index = xs ++ cut size ys (index - total size xs) := by
  induction xs generalizing index with
  | nil => rfl
  | cons x xs ih =>
    rw [total_cons] at fits
    rw [List.cons_append, cut_cons, if_pos (by omega), ih (by omega), total_cons, Nat.sub_sub]
    rfl

/-- What follows a list that does not fit plays no part. -/
theorem cut_overfull (overfull : index < total size xs) (ys : List α) :
    cut size (xs ++ ys) index = cut size xs index := by
  induction xs generalizing index with
  | nil => exact absurd overfull (Nat.not_lt_zero _)
  | cons x xs ih =>
    rw [total_cons] at overfull
    rw [List.cons_append, cut_cons, cut_cons]
    by_cases fits : size x ≤ index
    · rw [if_pos fits, if_pos fits, ih (by omega)]
    · rw [if_neg fits, if_neg fits]

theorem cut_floor (xs : List α) (index : Nat) :
    cut size xs (floorBoundary size xs index) = cut size xs index := by
  induction xs generalizing index with
  | nil => rfl
  | cons x xs ih =>
    by_cases fits : size x ≤ index
    · simp only [floorBoundary_cons, cut_cons, if_pos fits, if_pos (Nat.le_add_right _ _),
        Nat.add_sub_cancel_left, ih]
    · simp only [floorBoundary_cons, cut_cons, if_neg fits]
      by_cases free : size x ≤ 0
      · exact absurd (free.trans (Nat.zero_le index)) fits
      · rw [if_neg free]

theorem cut_eq_nil {x : α} :
    cut size (x :: xs) index = [] ↔ index < size x := by
  rw [cut_cons]
  by_cases fits : size x ≤ index
  · rw [if_pos fits]
    exact ⟨fun none_ => absurd none_ (List.cons_ne_nil _ _), fun small => absurd fits (by omega)⟩
  · rw [if_neg fits]
    exact ⟨fun _ => by omega, fun _ => rfl⟩

/-! ## Fields with their sizes -/

section Fields

variable {size}

/-- Lists of one size that begin the same list are the same. -/
theorem append_inj_of_total (positive : ∀ x, 0 < size x) {ys restX restY : List α}
    (same : xs ++ restX = ys ++ restY) (sizes : total size xs = total size ys) :
    xs = ys ∧ restX = restY := by
  induction xs generalizing ys with
  | nil =>
    cases ys with
    | nil => exact ⟨rfl, same⟩
    | cons y ys =>
      rw [total_nil, total_cons] at sizes
      have filled := positive y
      omega
  | cons x xs ih =>
    cases ys with
    | nil =>
      rw [total_nil, total_cons] at sizes
      have filled := positive x
      omega
    | cons y ys =>
      rw [List.cons_append, List.cons_append, List.cons_eq_cons] at same
      obtain ⟨rfl, same⟩ := same
      rw [total_cons, total_cons] at sizes
      obtain ⟨rfl, rests⟩ := ih same (by omega)
      exact ⟨rfl, rests⟩

/-- What comes before the first separator is known. -/
theorem append_inj_of_not_mem {separator : α} {ys restX restY : List α}
    (same : xs ++ separator :: restX = ys ++ separator :: restY) (freeX : separator ∉ xs)
    (freeY : separator ∉ ys) : xs = ys ∧ restX = restY := by
  induction xs generalizing ys with
  | nil =>
    cases ys with
    | nil => exact ⟨rfl, (List.cons_eq_cons.1 same).2⟩
    | cons y ys => exact absurd (List.cons_eq_cons.1 same).1 (List.ne_of_not_mem_cons freeY)
  | cons x xs ih =>
    cases ys with
    | nil => exact absurd (List.cons_eq_cons.1 same).1.symm (List.ne_of_not_mem_cons freeX)
    | cons y ys =>
      rw [List.cons_append, List.cons_append, List.cons_eq_cons] at same
      obtain ⟨rfl, same⟩ := same
      rw [List.mem_cons, not_or] at freeX freeY
      obtain ⟨rfl, rests⟩ := ih same freeX.2 freeY.2
      exact ⟨rfl, rests⟩

variable (size) (numeral : Nat → List α) (colon semicolon : α)

def field (xs : List α) : List α := numeral (total size xs) ++ colon :: (xs ++ [semicolon])

def fields (parts : List (List α)) : List α := parts.flatMap (field size numeral colon semicolon)

variable {size numeral colon semicolon}

/-- The first of several fields is known, whatever follows it. -/
theorem field_inj (positive : ∀ x, 0 < size x) (numerals : Function.Injective numeral)
    (unmarked : ∀ n, colon ∉ numeral n) {ys restX restY : List α}
    (same : field size numeral colon semicolon xs ++ restX =
      field size numeral colon semicolon ys ++ restY) : xs = ys ∧ restX = restY := by
  simp only [field, List.append_assoc, List.cons_append] at same
  obtain ⟨sizes, same⟩ := append_inj_of_not_mem same (unmarked _) (unmarked _)
  obtain ⟨parts, rests⟩ := append_inj_of_total positive same (numerals sizes)
  exact ⟨parts, (List.cons_eq_cons.1 rests).2⟩

/-- Fields begin other fields just when they are the first of them. -/
theorem fields_begin (positive : ∀ x, 0 < size x) (numerals : Function.Injective numeral)
    (unmarked : ∀ n, colon ∉ numeral n) {parts others : List (List α)} :
    fields size numeral colon semicolon parts <+: fields size numeral colon semicolon others ↔
      parts <+: others := by
  constructor
  · intro front
    induction parts generalizing others with
    | nil => exact List.nil_prefix
    | cons part parts ih =>
      obtain ⟨rest, same⟩ := front
      cases others with
      | nil => simp [fields, field] at same
      | cons other others =>
        simp only [fields, List.flatMap_cons, List.append_assoc] at same
        obtain ⟨rfl, rests⟩ := field_inj positive numerals unmarked same
        have begins : fields size numeral colon semicolon parts <+:
            fields size numeral colon semicolon others := ⟨rest, rests⟩
        exact List.cons_prefix_cons.2 ⟨rfl, ih begins⟩
  · rintro ⟨rest, rfl⟩
    rw [fields, fields, List.flatMap_append]
    exact List.prefix_append _ _

theorem fields_injective (positive : ∀ x, 0 < size x) (numerals : Function.Injective numeral)
    (unmarked : ∀ n, colon ∉ numeral n) :
    Function.Injective (fields size numeral colon semicolon) := by
  intro parts others same
  have begins : fields size numeral colon semicolon parts <+:
      fields size numeral colon semicolon others := by rw [same]
  have begun : fields size numeral colon semicolon others <+:
      fields size numeral colon semicolon parts := by rw [same]
  have front := (fields_begin positive numerals unmarked).1 begins
  have back := (fields_begin positive numerals unmarked).1 begun
  exact front.eq_of_length (le_antisymm front.length_le back.length_le)

end Fields

end CodexRemote.Foundations.Sizes

import Mathlib.Data.List.Basic

/-! # Lines

A list is cut after every separator.  The last line may be unfinished.
-/

namespace CodexRemote.Foundations

universe u

variable {α : Type u} [DecidableEq α] {sep : α}

/-- The lines of a list, each with its separator. -/
def lines (sep : α) : List α → List (List α)
  | [] => []
  | x :: xs =>
    if x = sep then [x] :: lines sep xs
    else
      match lines sep xs with
      | [] => [[x]]
      | line :: rest => (x :: line) :: rest

/-- The line ends with its separator, and has no other. -/
def Finished (sep : α) (line : List α) : Prop := ∃ front, line = front ++ [sep] ∧ sep ∉ front

/-- What is left of an unfinished line before the separator of what follows. -/
def restOfLine (sep : α) (later : List α) : List α := (lines sep later).headD []

@[simp] theorem lines_nil : lines sep [] = [] := rfl

theorem lines_step (x : α) (xs : List α) :
    lines sep (x :: xs) =
      if x = sep then [x] :: lines sep xs
      else
        match lines sep xs with
        | [] => [[x]]
        | line :: rest => (x :: line) :: rest := rfl

variable {line : List α}

/-- A finished line comes off whole. -/
theorem lines_ended (open_ : sep ∉ line) (rest : List α) :
    lines sep (line ++ sep :: rest) = (line ++ [sep]) :: lines sep rest := by
  induction line with
  | nil => simp [lines_step]
  | cons x line ih =>
    rw [List.mem_cons, not_or] at open_
    have other : ¬x = sep := fun same => open_.1 same.symm
    rw [List.cons_append, lines_step, if_neg other, ih open_.2]
    rfl

/-- An unfinished line goes on with the first line of what follows. -/
theorem lines_open (open_ : sep ∉ line) (some_ : line ≠ []) (rest : List α) :
    lines sep (line ++ rest) = (line ++ restOfLine sep rest) :: (lines sep rest).tail := by
  induction line with
  | nil => exact absurd rfl some_
  | cons x line ih =>
    rw [List.mem_cons, not_or] at open_
    have other : ¬x = sep := fun same => open_.1 same.symm
    rw [List.cons_append, lines_step, if_neg other]
    cases line with
    | nil =>
      rw [List.nil_append, restOfLine]
      cases lines sep rest <;> rfl
    | cons y line =>
      rw [ih open_.2 (by simp)]
      rfl

theorem lines_eq_nil {bytes : List α} (none_ : lines sep bytes = []) : bytes = [] := by
  cases bytes with
  | nil => rfl
  | cons x bytes =>
    rw [lines_step] at none_
    split at none_
    · cases none_
    · split at none_ <;> cases none_

/-- The first line of a list, and what follows it. -/
theorem lines_cons {bytes : List α} {rest : List (List α)}
    (cut : lines sep bytes = line :: rest) : ∃ more, bytes = line ++ more ∧ lines sep more = rest ∧
      (Finished sep line ∨ (sep ∉ line ∧ line ≠ [] ∧ more = [])) := by
  induction bytes generalizing line rest with
  | nil => cases cut
  | cons x bytes ih =>
    rw [lines_step] at cut
    split at cut
    · next same =>
      cases cut
      exact ⟨bytes, rfl, rfl, .inl ⟨[], by rw [same]; rfl, by simp⟩⟩
    · next other =>
      have apart : sep ≠ x := fun same => other same.symm
      cases after : lines sep bytes with
      | nil =>
        rw [after] at cut
        cases cut
        rw [lines_eq_nil after]
        exact ⟨[], rfl, rfl, .inr ⟨by simpa using apart, by simp, rfl⟩⟩
      | cons next others =>
        rw [after] at cut
        cases cut
        obtain ⟨more, same, tail, kind⟩ := ih after
        refine ⟨more, by rw [same]; rfl, tail, ?_⟩
        obtain ⟨front, ends, free⟩ | ⟨free, _, none_⟩ := kind
        · exact .inl ⟨x :: front, by rw [ends]; rfl, by simp [apart, free]⟩
        · exact .inr ⟨by simp [apart, free], by simp, none_⟩

/-- The first lines of a list, and what follows them. -/
theorem lines_split {bytes : List α} {front back : List (List α)}
    (cut : lines sep bytes = front ++ back) : ∃ more, bytes = front.flatten ++ more ∧
      lines sep more = back ∧ ((∀ line ∈ front, Finished sep line) ∨ (more = [] ∧
        ∃ before last, front = before ++ [last] ∧ (∀ line ∈ before, Finished sep line) ∧
          sep ∉ last ∧ last ≠ [])) := by
  induction front generalizing bytes with
  | nil => exact ⟨bytes, rfl, cut, .inl (by simp)⟩
  | cons line front ih =>
    obtain ⟨more, same, tail, kind⟩ := lines_cons cut
    obtain ⟨rest, whole, after, all⟩ := ih tail
    refine ⟨rest, by rw [same, whole, List.flatten_cons, List.append_assoc], after, ?_⟩
    obtain finished | ⟨free, some_, none_⟩ := kind
    · obtain each | ⟨ends, before, last, front_eq, each, open_, nonempty⟩ := all
      · exact .inl (by simpa [finished] using each)
      · refine .inr ⟨ends, line :: before, last, by rw [front_eq]; rfl, ?_, open_, nonempty⟩
        simpa [finished] using each
    · -- nothing follows an unfinished line
      rw [none_, lines_nil] at tail
      obtain ⟨none_front, _⟩ := List.append_eq_nil_iff.1 tail.symm
      rw [none_, none_front, List.flatten_nil, List.nil_append] at whole
      exact .inr ⟨whole.symm, [], line, by rw [none_front]; rfl, by simp, free, some_⟩

/-- Finished lines come off whole. -/
theorem lines_flatten {front : List (List α)} (finished : ∀ line ∈ front, Finished sep line)
    (rest : List α) : lines sep (front.flatten ++ rest) = front ++ lines sep rest := by
  induction front with
  | nil => rfl
  | cons line front ih =>
    obtain ⟨start, same, free⟩ := finished line (List.mem_cons_self ..)
    have others := ih fun other member => finished other (List.mem_cons_of_mem _ member)
    rw [List.flatten_cons, same, List.append_assoc, List.append_assoc, List.singleton_append,
      lines_ended free, others]
    rfl

omit [DecidableEq α] in
theorem Finished.mem (finished : Finished sep line) : sep ∈ line := by
  obtain ⟨front, rfl, _⟩ := finished
  simp

/-! ## Numbered lines -/

/-- What stands between two separators that follow each other, counted from the beginning. -/
def lineAt (sep : α) : Nat → List α → List α
  | _, [] => []
  | 0, x :: xs => if x = sep then [] else x :: lineAt sep 0 xs
  | k + 1, x :: xs => if x = sep then lineAt sep k xs else lineAt sep (k + 1) xs

theorem lineAt_beyond {k : Nat} {xs : List α} (beyond : xs.count sep < k) : lineAt sep k xs = [] := by
  induction xs generalizing k with
  | nil => cases k <;> rfl
  | cons x xs ih =>
    obtain ⟨k, rfl⟩ := Nat.exists_eq_succ_of_ne_zero (Nat.ne_zero_of_lt beyond)
    rw [lineAt]
    split
    · next same =>
      rw [same, List.count_cons_self] at beyond
      exact ih (by omega)
    · next other =>
      rw [List.count_cons_of_ne other] at beyond
      exact ih beyond

/-- A line of two lists is the first one's, unless it begins with that one's end or after it. -/
theorem lineAt_append (k : Nat) (xs ys : List α) :
    lineAt sep k (xs ++ ys) =
      lineAt sep k xs ++ if k < xs.count sep then [] else lineAt sep (k - xs.count sep) ys := by
  induction xs generalizing k with
  | nil => cases k <;> simp [lineAt]
  | cons x xs ih =>
    by_cases same : x = sep
    · rw [List.cons_append, same, List.count_cons_self]
      cases k with
      | zero => simp [lineAt]
      | succ k => simp [lineAt, ih]
    · rw [List.cons_append, List.count_cons_of_ne same]
      cases k with
      | zero => simp [lineAt, same, ih]
      | succ k => simp [lineAt, same, ih]

theorem lineAt_front {k : Nat} {xs : List α} (front : k < xs.count sep) (ys : List α) :
    lineAt sep k (xs ++ ys) = lineAt sep k xs := by
  rw [lineAt_append, if_pos front, List.append_nil]

theorem lineAt_skip {k : Nat} {xs : List α} (beyond : xs.count sep < k) (ys : List α) :
    lineAt sep k (xs ++ ys) = lineAt sep (k - xs.count sep) ys := by
  rw [lineAt_append, lineAt_beyond beyond, if_neg (by omega), List.nil_append]

end CodexRemote.Foundations

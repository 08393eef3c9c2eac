import Mathlib.Data.List.DropRight

/-! # Chunks between gaps

A predicate says which elements are blank.  A list holds chunks in order when it consists of them
and of gaps of blanks, so that nothing but blanks is lost when only the chunks are kept.
-/

namespace CodexRemote.Foundations

universe u

variable {α : Type u} {p : α → Bool}

/-- A list that begins and ends with an element that is not blank -/
structure Trimmed (p : α → Bool) (xs : List α) : Prop where
  first : ∃ x rest, xs = x :: rest ∧ p x = false
  last : ∃ front x, xs = front ++ [x] ∧ p x = false

variable {xs : List α}

theorem Trimmed.visible (trimmed : Trimmed p xs) : ∃ x ∈ xs, p x = false := by
  obtain ⟨x, rest, rfl, filled⟩ := trimmed.first
  exact ⟨x, List.mem_cons_self .., filled⟩

/-! ## Trimming -/

theorem dropWhile_gap (p : α → Bool) (xs : List α) :
    ∃ gap, xs = gap ++ xs.dropWhile p ∧ ∀ x ∈ gap, p x = true :=
  ⟨xs.takeWhile p, List.takeWhile_append_dropWhile.symm, fun _ => List.mem_takeWhile_imp⟩

theorem rdropWhile_gap (p : α → Bool) (xs : List α) :
    ∃ gap, xs = xs.rdropWhile p ++ gap ∧ ∀ x ∈ gap, p x = true :=
  ⟨xs.rtakeWhile p, List.rdropWhile_append_rtakeWhile.symm, fun _ => List.mem_rtakeWhile_imp⟩

theorem dropWhile_first (visible : ∃ x ∈ xs, p x = false) :
    ∃ x rest, xs.dropWhile p = x :: rest ∧ p x = false := by
  induction xs with
  | nil =>
    obtain ⟨_, member, _⟩ := visible
    cases member
  | cons head tail ih =>
    rw [List.dropWhile_cons]
    split
    · next blank =>
      obtain ⟨x, member, filled⟩ := visible
      obtain rfl | later := List.mem_cons.1 member
      · rw [blank] at filled
        cases filled
      · exact ih ⟨x, later, filled⟩
    · next filled => exact ⟨head, tail, rfl, by simpa using filled⟩

theorem dropWhile_last {front : List α} {x : α} (filled : p x = false) :
    ∃ front', (front ++ [x]).dropWhile p = front' ++ [x] := by
  induction front with
  | nil => exact ⟨[], by simp [filled]⟩
  | cons head tail ih =>
    rw [List.cons_append, List.dropWhile_cons]
    split
    · exact ih
    · exact ⟨head :: tail, rfl⟩

/-- Trimming the end keeps what a list begins with. -/
theorem trimmed_rdropWhile {x : α} {rest : List α} (filled : p x = false) :
    Trimmed p ((x :: rest).rdropWhile p) := by
  have some_ : (x :: rest).rdropWhile p ≠ [] := by
    intro none_
    have blank := List.rdropWhile_eq_nil_iff.1 none_ x (List.mem_cons_self ..)
    rw [filled] at blank
    cases blank
  have prefix_ := List.rdropWhile_prefix p (x :: rest)
  have ends := List.rdropWhile_last_not p (x :: rest) some_
  refine ⟨?_, _, _, (List.dropLast_concat_getLast some_).symm, by simpa using ends⟩
  cases shape : (x :: rest).rdropWhile p with
  | nil => exact absurd shape some_
  | cons y more =>
    rw [shape] at prefix_
    obtain ⟨tail, same⟩ := prefix_
    cases same
    exact ⟨x, more, rfl, filled⟩

/-- Trimming both ends of a list that is not blank -/
theorem trimmed_trim (visible : ∃ x ∈ xs, p x = false) :
    Trimmed p ((xs.dropWhile p).rdropWhile p) := by
  obtain ⟨x, rest, starts, filled⟩ := dropWhile_first visible
  rw [starts]
  exact trimmed_rdropWhile filled

/-- What is left after a cut that does not reach the end -/
theorem Trimmed.later {n : Nat} (trimmed : Trimmed p xs) (cut : n < xs.length) :
    Trimmed p ((xs.drop n).dropWhile p) := by
  obtain ⟨front, x, rfl, filled⟩ := trimmed.last
  rw [List.length_append, List.length_singleton] at cut
  rw [List.drop_append_of_le_length (by omega)]
  obtain ⟨front', ends⟩ := @dropWhile_last _ p (front.drop n) x filled
  refine ⟨dropWhile_first ⟨x, ?_, filled⟩, front', x, ends, filled⟩
  exact List.mem_append_right _ (List.mem_singleton_self x)

/-! ## Chunks in order -/

/-- The list consists of the chunks, in order, and of gaps of blanks. -/
inductive Spaced (p : α → Bool) : List α → List (List α) → Prop where
  | nil {gap : List α} (blank : ∀ x ∈ gap, p x = true) : Spaced p gap []
  | cons {gap chunk rest : List α} {chunks : List (List α)} (blank : ∀ x ∈ gap, p x = true)
      (later : Spaced p rest chunks) : Spaced p (gap ++ chunk ++ rest) (chunk :: chunks)

theorem Spaced.single (xs : List α) : Spaced p xs [xs] := by
  have spaced : Spaced p ([] ++ xs ++ []) [xs] := .cons (fun _ => nofun) (.nil fun _ => nofun)
  simpa using spaced

theorem Spaced.prepend {gap : List α} {chunks : List (List α)} (blank : ∀ x ∈ gap, p x = true)
    (spaced : Spaced p xs chunks) : Spaced p (gap ++ xs) chunks := by
  have joined : ∀ {more : List α}, (∀ x ∈ more, p x = true) → ∀ x ∈ gap ++ more, p x = true := by
    intro more also x member
    obtain here | there := List.mem_append.1 member
    · exact blank x here
    · exact also x there
  cases spaced with
  | nil also => exact .nil (joined also)
  | cons also later =>
    rw [← List.append_assoc, ← List.append_assoc]
    exact .cons (joined also) later

theorem Spaced.append {gap : List α} {chunks : List (List α)} (blank : ∀ x ∈ gap, p x = true)
    (spaced : Spaced p xs chunks) : Spaced p (xs ++ gap) chunks := by
  induction spaced with
  | nil also =>
    refine .nil fun x member => ?_
    obtain here | there := List.mem_append.1 member
    · exact also x here
    · exact blank x there
  | cons also _ ih =>
    rw [List.append_assoc]
    exact .cons also ih

theorem filter_blank {gap : List α} (blank : ∀ x ∈ gap, p x = true) :
    gap.filter (fun x => !p x) = [] := by
  rw [List.filter_eq_nil_iff]
  intro x member
  simp [blank x member]

/-- Without the blanks, nothing but the chunks is there. -/
theorem Spaced.filter {chunks : List (List α)} (spaced : Spaced p xs chunks) :
    xs.filter (fun x => !p x) = chunks.flatten.filter fun x => !p x := by
  induction spaced with
  | nil blank => exact filter_blank blank
  | cons blank _ ih =>
    rw [List.filter_append, List.filter_append, filter_blank blank, List.nil_append, ih,
      List.flatten_cons, List.filter_append]

end CodexRemote.Foundations

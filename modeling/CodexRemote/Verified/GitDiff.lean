import CodexRemote.RemoteAgent.GitDiff

/-! # A bounded patch

A patch that does not fit is cut within one fragment, before a character that is longer than the
bytes that are left.  A later fragment that begins with a shorter character goes into these bytes.
-/

namespace CodexRemote.Verified.GitDiff

open Foundations RemoteAgent

variable {patch : BoundedPatch} {values : List (List Char)} {value : List Char} {truncated : Bool}

/-! ## One fragment -/

theorem cut_whole (value : List Char) :
    Sizes.cut Char.utf8Size value (textLen value) = value := Sizes.cut_all _ le_rfl

theorem appendBounded_output (patch : BoundedPatch) (value : List Char) :
    (appendBounded patch value).output =
      patch.output ++ Sizes.cut Char.utf8Size value (maxGitOutput - textLen patch.output) := by
  simp only [appendBounded, sliceTo, floorCharBoundary, Sizes.cut_floor]
  by_cases fits : textLen value ≤ maxGitOutput - textLen patch.output
  · rw [min_eq_right fits, cut_whole, Sizes.cut_all _ fits]
  · rw [min_eq_left (Nat.le_of_not_le fits)]

theorem appendBounded_truncated (patch : BoundedPatch) (value : List Char) :
    (appendBounded patch value).truncated = true ↔
      patch.truncated = true ∨ maxGitOutput - textLen patch.output < textLen value := by
  simp only [appendBounded, Bool.or_eq_true, decide_eq_true_eq]
  refine or_congr Iff.rfl ?_
  by_cases fits : textLen value ≤ maxGitOutput - textLen patch.output
  · rw [min_eq_right fits, floorCharBoundary, ← Sizes.total_cut, cut_whole]
    exact iff_of_false (lt_irrefl _) (Nat.not_lt.2 fits)
  · have whole := Sizes.floorBoundary_le Char.utf8Size value (maxGitOutput - textLen patch.output)
    rw [min_eq_left (Nat.le_of_not_le fits), floorCharBoundary]
    omega

theorem textLen_append (a b : List Char) : textLen (a ++ b) = textLen a + textLen b :=
  Sizes.total_append _ a b

/-! ## All fragments -/

theorem appendAll_append (before after : List (List Char)) :
    appendAll truncated (before ++ after) = after.foldl appendBounded (appendAll truncated before) :=
  List.foldl_append

theorem appendAll_concat (before : List (List Char)) (value : List Char) :
    appendAll truncated (before ++ [value]) = appendBounded (appendAll truncated before) value := by
  rw [appendAll_append]
  rfl

/-- Fragments that fit are appended whole. -/
theorem appendAll_fitting (fits : textLen values.flatten ≤ maxGitOutput) :
    appendAll truncated values = ⟨values.flatten, truncated⟩ := by
  induction values using List.reverseRecOn with
  | nil => rfl
  | append_singleton before value ih =>
    rw [List.flatten_append, textLen_append, List.flatten_singleton] at fits
    have front := ih (by omega)
    have room : textLen value ≤ maxGitOutput - textLen before.flatten := by omega
    have output := appendBounded_output ⟨before.flatten, truncated⟩ value
    have flag := appendBounded_truncated ⟨before.flatten, truncated⟩ value
    rw [Sizes.cut_all _ room] at output
    rw [or_iff_left (Nat.not_lt.2 room)] at flag
    rw [appendAll_concat, front, List.flatten_append, List.flatten_singleton]
    exact congrArg₂ BoundedPatch.mk output (Bool.eq_iff_iff.2 flag)

/-- The fragment that does not fit is cut where the whole text would be. -/
theorem appendAll_cut {before : List (List Char)} (fits : textLen before.flatten ≤ maxGitOutput)
    (overfull : maxGitOutput < textLen (before ++ [value]).flatten) :
    (appendAll truncated (before ++ [value])).output =
        Sizes.cut Char.utf8Size (before ++ [value]).flatten maxGitOutput ∧
      (appendAll truncated (before ++ [value])).truncated = true := by
  rw [List.flatten_append, List.flatten_singleton, textLen_append] at overfull
  rw [appendAll_concat, appendAll_fitting fits, List.flatten_append, List.flatten_singleton]
  constructor
  · rw [appendBounded_output, Sizes.cut_append _ fits]
    rfl
  · rw [appendBounded_truncated]
    right
    show maxGitOutput - textLen before.flatten < _
    omega

theorem foldl_front (patch : BoundedPatch) (after : List (List Char)) :
    patch.output <+: (after.foldl appendBounded patch).output := by
  induction after generalizing patch with
  | nil => exact List.prefix_rfl
  | cons value after ih =>
    have front : patch.output <+: (appendBounded patch value).output := by
      rw [appendBounded_output]
      exact List.prefix_append _ _
    exact front.trans (ih _)

/-- The output stays just when no fragment begins with a character that fits. -/
theorem foldl_still_iff {after : List (List Char)} :
    (after.foldl appendBounded patch).output = patch.output ↔
      ∀ c rest, c :: rest ∈ after → maxGitOutput - textLen patch.output < c.utf8Size := by
  induction after generalizing patch with
  | nil => exact iff_of_true rfl fun _ _ member => (List.not_mem_nil member).elim
  | cons value after ih =>
    have output := appendBounded_output patch value
    by_cases nothing : Sizes.cut Char.utf8Size value (maxGitOutput - textLen patch.output) = []
    · rw [nothing, List.append_nil] at output
      rw [List.foldl_cons, ← output, ih, output]
      refine ⟨fun later c rest member => ?_, fun all c rest member =>
        all c rest (List.mem_cons_of_mem _ member)⟩
      obtain same | member := List.mem_cons.1 member
      · rw [← same, Sizes.cut_eq_nil] at nothing
        exact nothing
      · exact later c rest member
    · refine iff_of_false (fun still => ?_) fun all => nothing ?_
      · have longer := (foldl_front (appendBounded patch value) after).length_le
        rw [← List.foldl_cons, still, output, List.length_append] at longer
        have some_ := List.length_pos_iff.2 nothing
        omega
      · cases value with
        | nil => rfl
        | cons c rest => exact (Sizes.cut_eq_nil _).2 (all c rest (List.mem_cons_self ..))

theorem foldl_truncated {after : List (List Char)} (flag : patch.truncated = true) :
    (after.foldl appendBounded patch).truncated = true := by
  induction after generalizing patch with
  | nil => exact flag
  | cons value after ih => exact ih ((appendBounded_truncated patch value).2 (.inl flag))

/-- A text that does not fit has one fragment within which it does not. -/
theorem first_overfull (overfull : maxGitOutput < textLen values.flatten) :
    ∃ before value after, values = before ++ value :: after ∧
      textLen before.flatten ≤ maxGitOutput ∧
      maxGitOutput < textLen (before ++ [value]).flatten := by
  induction values using List.reverseRecOn with
  | nil => exact absurd overfull (Nat.not_lt_zero _)
  | append_singleton front last ih =>
    by_cases fits : textLen front.flatten ≤ maxGitOutput
    · exact ⟨front, last, [], rfl, fits, overfull⟩
    · obtain ⟨before, value, after, rfl, room, full⟩ := ih (Nat.lt_of_not_le fits)
      exact ⟨before, value, after ++ [last], by simp, room, full⟩

/-! ## A true prefix of the fragments -/

/-- The patch of the fragments is the whole text, or it ends at the first cut. -/
structure TruePrefix (truncated : Bool) (values : List (List Char)) : Prop where
  front : (appendAll truncated values).output <+: values.flatten
  bounded : textLen (appendAll truncated values).output ≤ maxGitOutput
  flagged : (appendAll truncated values).truncated = true ↔
    truncated = true ∨ textLen (appendAll truncated values).output < textLen values.flatten
  /-- Nothing is appended once something was left out. -/
  ended : ∀ before after, values = before ++ after →
    textLen (appendAll truncated before).output < textLen before.flatten →
      (appendAll truncated values).output = (appendAll truncated before).output

/-- The fragments after the one that does not fit are empty or begin with a character that is
longer than the bytes between the last boundary and the limit. -/
def NothingFits (values : List (List Char)) : Prop :=
  ∀ before value after, values = before ++ value :: after →
    textLen before.flatten ≤ maxGitOutput → maxGitOutput < textLen (before ++ [value]).flatten →
      ∀ c rest, c :: rest ∈ after →
        maxGitOutput - floorCharBoundary values.flatten maxGitOutput < c.utf8Size

theorem split_eq (before after : List (List Char)) (value : List Char) :
    before ++ value :: after = before ++ [value] ++ after :=
  (List.append_cons ..)

theorem split_flatten (before after : List (List Char)) (value : List Char) :
    (before ++ value :: after).flatten = (before ++ [value]).flatten ++ after.flatten := by
  rw [split_eq before, List.flatten_append]

/-- The boundary is known from the fragment that does not fit. -/
theorem floor_overfull {before : List (List Char)}
    (overfull : maxGitOutput < textLen (before ++ [value]).flatten) (after : List (List Char)) :
    floorCharBoundary (before ++ value :: after).flatten maxGitOutput =
      floorCharBoundary (before ++ [value]).flatten maxGitOutput := by
  rw [split_flatten, floorCharBoundary, floorCharBoundary, ← Sizes.total_cut, ← Sizes.total_cut,
    Sizes.cut_overfull _ overfull]

theorem output_still {before after : List (List Char)}
    (fits : textLen before.flatten ≤ maxGitOutput)
    (overfull : maxGitOutput < textLen (before ++ [value]).flatten)
    (unfitting : ∀ c rest, c :: rest ∈ after →
      maxGitOutput - floorCharBoundary (before ++ [value]).flatten maxGitOutput < c.utf8Size) :
    (appendAll truncated (before ++ value :: after)).output =
      Sizes.cut Char.utf8Size (before ++ [value]).flatten maxGitOutput := by
  have stopped := (@appendAll_cut value truncated before fits overfull).1
  rw [split_eq, appendAll_append, ← stopped]
  refine foldl_still_iff.2 fun c rest member => ?_
  rw [stopped, textLen, Sizes.total_cut]
  exact unfitting c rest member

theorem prefixed_of_unfitting (unfitting : NothingFits values) : TruePrefix truncated values := by
  by_cases whole : textLen values.flatten ≤ maxGitOutput
  · have all := @appendAll_fitting values truncated whole
    refine ⟨?_, ?_, ?_, fun before after shape short => ?_⟩
    · rw [all]
    · rwa [all]
    · rw [all]
      exact (or_iff_left (lt_irrefl _)).symm
    · have room : textLen before.flatten ≤ maxGitOutput := by
        rw [shape, List.flatten_append, textLen_append] at whole
        omega
      rw [appendAll_fitting room] at short
      exact absurd short (lt_irrefl _)
  · have full := Nat.lt_of_not_le whole
    obtain ⟨before, value, after, rfl, fits, overfull⟩ := first_overfull full
    have later := unfitting before value after rfl fits overfull
    rw [floor_overfull overfull] at later
    have still := @output_still value truncated before after fits overfull later
    have small : textLen (appendAll truncated (before ++ value :: after)).output ≤ maxGitOutput := by
      rw [still, textLen, Sizes.total_cut]
      exact Sizes.floorBoundary_le _ _ _
    refine ⟨?_, small, ?_, fun front rest shape short => ?_⟩
    · rw [still, split_flatten before after]
      exact (Sizes.cut_front _ _ _).trans (List.prefix_append _ _)
    · have flag : (appendAll truncated (before ++ value :: after)).truncated = true := by
        rw [split_eq, appendAll_append]
        exact foldl_truncated (appendAll_cut fits overfull).2
      exact iff_of_true flag (.inr (lt_of_le_of_lt small full))
    · -- The fragments that were cut short have the fragment that does not fit among them.
      have cut : maxGitOutput < textLen front.flatten := by
        by_contra room
        rw [appendAll_fitting (Nat.le_of_not_lt room)] at short
        exact lt_irrefl _ short
      obtain ⟨before', value', after', rfl, fits', overfull'⟩ := first_overfull cut
      have shape' : before ++ value :: after = before' ++ value' :: (after' ++ rest) := by
        rw [shape, List.append_assoc, List.cons_append]
      have later' := unfitting before' value' (after' ++ rest) shape' fits' overfull'
      rw [shape', floor_overfull overfull'] at later'
      rw [shape', output_still fits' overfull' later', output_still fits' overfull'
        fun c tail member => later' c tail (List.mem_append_left _ member)]

theorem unfitting_of_prefixed (prefixed : TruePrefix truncated values) : NothingFits values := by
  rintro before value after rfl fits overfull c rest member
  have stopped := (@appendAll_cut value truncated before fits overfull).1
  have short : textLen (appendAll truncated (before ++ [value])).output <
      textLen (before ++ [value]).flatten := by
    rw [stopped, textLen, Sizes.total_cut]
    exact lt_of_le_of_lt (Sizes.floorBoundary_le _ _ _) overfull
  have still := prefixed.ended (before ++ [value]) after (split_eq ..) short
  rw [split_eq, appendAll_append] at still
  have unfitting := foldl_still_iff.1 still c rest member
  rwa [stopped, textLen, Sizes.total_cut, ← floorCharBoundary, ← floor_overfull overfull after]
    at unfitting

/-- The patch of a repository is that of its fragments. -/
theorem appendUntracked_eq (patch : BoundedPatch) (files : List UntrackedFile) :
    appendUntracked patch files =
      (files.filterMap UntrackedFile.fragment).foldl appendBounded patch := by
  induction files generalizing patch with
  | nil => rfl
  | cons file files ih =>
    rw [appendUntracked]
    cases shape : file.fragment with
    | none => rw [List.filterMap_cons_none shape, ← ih]
    | some value => rw [List.filterMap_cons_some shape, List.foldl_cons, ← ih]

theorem repoPatch_fragments (git : GitOutput) (untracked : List UntrackedFile) :
    repoPatch none untracked = appendAll false (untracked.filterMap UntrackedFile.fragment) ∧
      repoPatch (some git) untracked =
        appendAll git.truncated (git.stdout :: untracked.filterMap UntrackedFile.fragment) :=
  ⟨appendUntracked_eq _ _, appendUntracked_eq _ _⟩

/-- The bounded patch is a true prefix of the whole text, and ends at the first cut, exactly when
no character of a later fragment fits behind that cut. -/
theorem bounded_patch_true_prefix_iff (truncated : Bool) (values : List (List Char)) :
    TruePrefix truncated values ↔ NothingFits values :=
  ⟨unfitting_of_prefixed, prefixed_of_unfitting⟩

/-- The last character of the first fragment has two bytes, of which one would fit. -/
def accentedPatch : List (List Char) :=
  [List.replicate 199999 'a' ++ ['é'], "--- /dev/null".toList]

theorem textLen_replicate (n : Nat) : textLen (List.replicate n 'a') = n := by
  rw [textLen, Sizes.total, List.map_replicate, List.sum_replicate]
  exact Nat.mul_one n

theorem appended_dash {front : List Char} (long : textLen front = 199999) :
    (appendAll false [front ++ ['é'], "--- /dev/null".toList]).output = front ++ ['-'] := by
  have accent : Sizes.cut Char.utf8Size ['é'] (maxGitOutput - 199999) = [] := by decide
  have dash : Sizes.cut Char.utf8Size "--- /dev/null".toList (maxGitOutput - 199999) = ['-'] := by
    decide
  have room : Sizes.total Char.utf8Size front = 199999 := long
  have small : 199999 ≤ maxGitOutput := by decide
  have first : (appendBounded ⟨[], false⟩ (front ++ ['é'])).output = front := by
    rw [appendBounded_output, List.nil_append, show textLen [] = 0 from rfl, Nat.sub_zero,
      Sizes.cut_append _ (room.le.trans small), room, accent, List.append_nil]
  rw [appendAll, List.foldl_cons, List.foldl_cons, List.foldl_nil, appendBounded_output, first, long,
    dash]

theorem dash_unprefixed (front : List Char) :
    ¬ front ++ ['-'] <+: [front ++ ['é'], "--- /dev/null".toList].flatten := by
  rw [List.flatten_cons, List.append_assoc, List.prefix_append_right_inj]
  decide

/-- A dash of the next fragment follows the cut. -/
theorem dash_in_the_gap :
    (appendAll false accentedPatch).output = List.replicate 199999 'a' ++ ['-'] ∧
      ¬ (appendAll false accentedPatch).output <+: accentedPatch.flatten ∧
      ¬ TruePrefix false accentedPatch := by
  have output : (appendAll false accentedPatch).output = List.replicate 199999 'a' ++ ['-'] :=
    appended_dash (textLen_replicate _)
  have unprefixed : ¬ (appendAll false accentedPatch).output <+: accentedPatch.flatten := by
    rw [output]
    exact dash_unprefixed _
  exact ⟨output, unprefixed, fun prefixed => unprefixed prefixed.front⟩

end CodexRemote.Verified.GitDiff

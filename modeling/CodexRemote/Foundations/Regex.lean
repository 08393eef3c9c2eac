import Mathlib.Data.Rat.BigOperators
import Mathlib.Data.List.Induction
import CodexRemote.Foundations.Lines

/-! # Regular expressions with capture groups

What a match is: the pieces that it consists of, each captured by a group or by none, and
the text around it, at which word boundaries look.  Which of the matches of a text an engine
finds is left open.
-/

namespace CodexRemote.Foundations

inductive Regex where
  | empty
  | char (allowed : Char → Prop)
  | seq (front back : Regex)
  | alt (left right : Regex)
  | repeated (body : Regex) (least : Nat) (most : Option Nat)
  | group (index : Nat) (body : Regex)
  | boundary

namespace Regex

/-! ## Matches -/

/-- A part of a match, and the group that captured it. -/
structure Piece where
  group : Option Nat
  text : List Char
deriving DecidableEq

def textOf (pieces : List Piece) : List Char := pieces.flatMap Piece.text

/-- `Matches word r before pieces after`: between the two texts, the pieces match. -/
inductive Matches (word : Char → Bool) : Regex → List Char → List Piece → List Char → Prop
  | empty {before after} : Matches word .empty before [] after
  | char {allowed before after c} (fits : allowed c) :
      Matches word (.char allowed) before [⟨none, [c]⟩] after
  | seq {front back before xs ys after} (first : Matches word front before xs (textOf ys ++ after))
      (second : Matches word back (before ++ textOf xs) ys after) :
      Matches word (.seq front back) before (xs ++ ys) after
  | left {left right before xs after} (taken : Matches word left before xs after) :
      Matches word (.alt left right) before xs after
  | right {left right before xs after} (taken : Matches word right before xs after) :
      Matches word (.alt left right) before xs after
  | stop {body most before after} : Matches word (.repeated body 0 most) before [] after
  | more {body least most before xs ys after} (allowed : most ≠ some 0)
      (first : Matches word body before xs (textOf ys ++ after))
      (others : Matches word (.repeated body (least - 1) (most.map (· - 1)))
        (before ++ textOf xs) ys after) :
      Matches word (.repeated body least most) before (xs ++ ys) after
  | group {index body before xs after} (inner : Matches word body before xs after) :
      Matches word (.group index body) before [⟨some index, textOf xs⟩] after
  | boundary {before after}
      (edge : (before.getLast?.any word) ≠ (after.head?.any word)) :
      Matches word .boundary before [] after

@[simp] theorem textOf_append (xs ys : List Piece) : textOf (xs ++ ys) = textOf xs ++ textOf ys :=
  List.flatMap_append

/-! ## What every match of an expression has -/

/-- A match is not empty. -/
def consumes : Regex → Bool
  | .empty => false
  | .char _ => true
  | .seq front back => front.consumes || back.consumes
  | .alt left right => left.consumes && right.consumes
  | .repeated body least _ => least != 0 && body.consumes
  | .group _ body => body.consumes
  | .boundary => false

/-- The group takes part in a match. -/
def captures (index : Nat) : Regex → Bool
  | .empty => false
  | .char _ => false
  | .seq front back => front.captures index || back.captures index
  | .alt left right => left.captures index && right.captures index
  | .repeated body least _ => least != 0 && body.captures index
  | .group other _ => other == index
  | .boundary => false

/-- The character is in no match. -/
def Avoids (c : Char) : Regex → Prop
  | .empty => True
  | .char allowed => ¬allowed c
  | .seq front back => front.Avoids c ∧ back.Avoids c
  | .alt left right => left.Avoids c ∧ right.Avoids c
  | .repeated body _ _ => body.Avoids c
  | .group _ body => body.Avoids c
  | .boundary => True

/-- The character is in no text that the group captures. -/
def GroupAvoids (c : Char) (index : Nat) : Regex → Prop
  | .empty => True
  | .char _ => True
  | .seq front back => front.GroupAvoids c index ∧ back.GroupAvoids c index
  | .alt left right => left.GroupAvoids c index ∧ right.GroupAvoids c index
  | .repeated body _ _ => body.GroupAvoids c index
  | .group other body => other = index → body.Avoids c
  | .boundary => True

variable {index : Nat}

section Matches

variable {word : Char → Bool} {r : Regex} {before after : List Char} {pieces : List Piece}

theorem Matches.nonempty (found : Matches word r before pieces after)
    (filled : r.consumes = true) : textOf pieces ≠ [] := by
  induction found with
  | empty => cases filled
  | char => exact List.cons_ne_nil _ _
  | seq _ _ first second =>
    rw [consumes, Bool.or_eq_true] at filled
    rw [textOf_append, ne_eq, List.append_eq_nil_iff, not_and_or]
    exact filled.imp first second
  | left _ ih =>
    rw [consumes, Bool.and_eq_true] at filled
    exact ih filled.1
  | right _ ih =>
    rw [consumes, Bool.and_eq_true] at filled
    exact ih filled.2
  | stop => cases filled
  | more _ _ _ first _ =>
    rw [consumes, Bool.and_eq_true] at filled
    rw [textOf_append, ne_eq, List.append_eq_nil_iff, not_and_or]
    exact .inl (first filled.2)
  | group _ ih => simpa [textOf] using ih filled
  | boundary => cases filled

theorem Matches.captured (found : Matches word r before pieces after)
    (taken : r.captures index = true) : ∃ piece ∈ pieces, piece.group = some index := by
  induction found with
  | empty => cases taken
  | char => cases taken
  | seq _ _ first second =>
    rw [captures, Bool.or_eq_true] at taken
    obtain taken | taken := taken
    · obtain ⟨piece, member, own⟩ := first taken
      exact ⟨piece, List.mem_append_left _ member, own⟩
    · obtain ⟨piece, member, own⟩ := second taken
      exact ⟨piece, List.mem_append_right _ member, own⟩
  | left _ ih =>
    rw [captures, Bool.and_eq_true] at taken
    exact ih taken.1
  | right _ ih =>
    rw [captures, Bool.and_eq_true] at taken
    exact ih taken.2
  | stop => cases taken
  | more _ _ _ first _ =>
    rw [captures, Bool.and_eq_true] at taken
    obtain ⟨piece, member, own⟩ := first taken.2
    exact ⟨piece, List.mem_append_left _ member, own⟩
  | group =>
    rw [captures, beq_iff_eq] at taken
    exact ⟨_, List.mem_singleton_self _, by rw [taken]⟩
  | boundary => cases taken

theorem Matches.avoids {c : Char} (found : Matches word r before pieces after)
    (absent : r.Avoids c) : c ∉ textOf pieces := by
  induction found with
  | empty => exact List.not_mem_nil
  | char fits =>
    intro member
    rw [List.mem_singleton.mp member] at absent
    exact absent fits
  | seq _ _ first second =>
    rw [textOf_append, List.mem_append, not_or]
    exact ⟨first absent.1, second absent.2⟩
  | left _ ih => exact ih absent.1
  | right _ ih => exact ih absent.2
  | stop => exact List.not_mem_nil
  | more _ _ _ first others =>
    rw [textOf_append, List.mem_append, not_or]
    exact ⟨first absent, others absent⟩
  | group _ ih => simpa [textOf] using ih absent
  | boundary => exact List.not_mem_nil

theorem Matches.group_avoids {c : Char} (found : Matches word r before pieces after)
    (absent : r.GroupAvoids c index) {text : List Char} (own : ⟨some index, text⟩ ∈ pieces) :
    c ∉ text := by
  induction found with
  | empty => cases own
  | char => cases List.mem_singleton.mp own
  | seq _ _ first second =>
    obtain own | own := List.mem_append.mp own
    · exact first absent.1 own
    · exact second absent.2 own
  | left _ ih => exact ih absent.1 own
  | right _ ih => exact ih absent.2 own
  | stop => cases own
  | more _ _ _ first others =>
    obtain own | own := List.mem_append.mp own
    · exact first absent own
    · exact others absent own
  | group inner =>
    cases List.mem_singleton.mp own
    exact inner.avoids (absent rfl)
  | boundary => cases own

end Matches

/-! ## Captured texts -/

/-- What a group captured last. -/
def captureIn (pieces : List Piece) (index : Nat) : Option (List Char) :=
  (pieces.reverse.find? (·.group = some index)).map Piece.text

theorem captureIn_some {pieces : List Piece} {text : List Char}
    (captured : captureIn pieces index = some text) : ⟨some index, text⟩ ∈ pieces := by
  obtain ⟨piece, found, rfl⟩ := Option.map_eq_some_iff.mp captured
  have own := List.find?_some found
  rw [decide_eq_true_eq] at own
  rw [← own]
  exact List.mem_reverse.mp (List.mem_of_find?_eq_some found)

theorem Matches.captureIn {word : Char → Bool} {r : Regex} {before after : List Char}
    {pieces : List Piece} (found : Matches word r before pieces after)
    (taken : r.captures index = true) : ∃ text, captureIn pieces index = some text := by
  obtain ⟨piece, member, own⟩ := found.captured taken
  cases last : pieces.reverse.find? (·.group = some index) with
  | some piece => exact ⟨piece.text, by rw [Regex.captureIn, last]; rfl⟩
  | none =>
    have other := List.find?_eq_none.mp last piece (List.mem_reverse.mpr member)
    simp [own] at other

theorem captureIn_concat (pieces : List Piece) (piece : Piece) (index : Nat) :
    captureIn (pieces ++ [piece]) index =
      if piece.group = some index then some piece.text else captureIn pieces index := by
  simp only [captureIn, List.reverse_append, List.reverse_singleton, List.singleton_append,
    List.find?_cons]
  by_cases own : piece.group = some index
  · rw [if_pos own, decide_eq_true own]
    rfl
  · rw [if_neg own, decide_eq_false own]

/-- How often a character is in the texts of some groups -/
def countIn (c : Char) (pieces : List Piece) (indices : List Nat) : Nat :=
  (indices.map fun index => ((captureIn pieces index).getD []).count c).sum

theorem countIn_concat_other {c : Char} {pieces : List Piece} {piece : Piece} {indices : List Nat}
    (other : ∀ index ∈ indices, piece.group ≠ some index) :
    countIn c (pieces ++ [piece]) indices = countIn c pieces indices := by
  refine congrArg List.sum (List.map_congr_left fun index member => ?_)
  rw [captureIn_concat, if_neg (other index member)]

/-- The texts that different groups captured are apart in the match. -/
theorem countIn_le (c : Char) (pieces : List Piece) {indices : List Nat} (distinct : indices.Nodup) :
    countIn c pieces indices ≤ (textOf pieces).count c := by
  induction pieces using List.reverseRecOn generalizing indices with
  | nil => simp [countIn, captureIn]
  | append_singleton pieces piece ih =>
    rw [textOf_append, List.count_append]
    by_cases own : ∃ index ∈ indices, piece.group = some index
    · obtain ⟨index, member, own⟩ := own
      have others : countIn c (pieces ++ [piece]) (indices.erase index) =
          countIn c pieces (indices.erase index) := by
        refine countIn_concat_other fun other rest same => ?_
        have apart := (distinct.mem_erase_iff.mp rest).1
        exact apart (Option.some.inj (same.symm.trans own))
      have rest := ih (distinct.erase index)
      have split : countIn c (pieces ++ [piece]) indices = piece.text.count c +
          countIn c (pieces ++ [piece]) (indices.erase index) := by
        have front := (List.perm_cons_erase member).map fun index =>
          ((captureIn (pieces ++ [piece]) index).getD []).count c
        rw [countIn, front.sum_eq, List.map_cons, List.sum_cons, captureIn_concat, if_pos own]
        rfl
      have last : textOf [piece] = piece.text := by simp [textOf]
      rw [split, others, last]
      omega
    · have others := @countIn_concat_other c pieces piece indices fun index member same =>
        own ⟨index, member, same⟩
      have rest := ih distinct
      rw [others]
      omega

/-! ## Scans of a text -/

/-- A match and the text before it. -/
structure Found where
  before : List Char
  pieces : List Piece

def Found.text (found : Found) : List Char := textOf found.pieces

/-- The line that the match begins on, and the one that it ends on. -/
def Found.firstLine (sep : Char) (found : Found) : Nat := found.before.count sep

def Found.lastLine (sep : Char) (found : Found) : Nat := found.firstLine sep + found.text.count sep

def Found.capture (found : Found) (index : Nat) : Option (List Char) := captureIn found.pieces index

/-- The matches between gaps, after a text. -/
def foundFrom (before : List Char) : List (List Char × List Piece) → List Found
  | [] => []
  | (gap, pieces) :: parts =>
    ⟨before ++ gap, pieces⟩ :: foundFrom (before ++ gap ++ textOf pieces) parts

/-- The matches of an expression that an engine finds in a text, in order and apart. -/
structure Scan (word : Char → Bool) (r : Regex) (text : List Char) where
  parts : List (List Char × List Piece)
  rest : List Char
  whole : (parts.flatMap fun part => part.1 ++ textOf part.2) ++ rest = text
  sound : ∀ found ∈ foundFrom [] parts, ∃ after, found.before ++ found.text ++ after = text ∧
    Matches word r found.before found.pieces after

/-- The text with the matches replaced. -/
def replaceFrom (replacement : Found → Option (List Char)) (rest before : List Char) :
    List (List Char × List Piece) → Option (List Char)
  | [] => some rest
  | (gap, pieces) :: parts => do
      let new ← replacement ⟨before ++ gap, pieces⟩
      let later ← replaceFrom replacement rest (before ++ gap ++ textOf pieces) parts
      return gap ++ new ++ later

section Scans

variable {word : Char → Bool} {r : Regex} {text : List Char}

def Scan.found (scan : Scan word r text) : List Found := foundFrom [] scan.parts

/-- `Regex::replace_all` -/
def Scan.replaceAll (scan : Scan word r text) (replacement : Found → Option (List Char)) :
    Option (List Char) := replaceFrom replacement scan.rest [] scan.parts

/-- Replacements that are there make a text, with as many of a character as the matches have. -/
theorem replaceFrom_count {replacement : Found → Option (List Char)} {c : Char}
    (rest before : List Char) {parts : List (List Char × List Piece)}
    (each : ∀ found ∈ foundFrom before parts,
      ∃ new, replacement found = some new ∧ new.count c = found.text.count c) :
    ∃ out, replaceFrom replacement rest before parts = some out ∧ out.count c =
      ((parts.flatMap fun part => part.1 ++ textOf part.2) ++ rest).count c := by
  induction parts generalizing before with
  | nil => exact ⟨rest, rfl, rfl⟩
  | cons part parts ih =>
    obtain ⟨gap, pieces⟩ := part
    obtain ⟨new, made, same⟩ := each _ (List.mem_cons_self ..)
    obtain ⟨later, others, count⟩ := ih (before ++ gap ++ textOf pieces)
      fun found member => each found (List.mem_cons_of_mem _ member)
    refine ⟨gap ++ new ++ later, by rw [replaceFrom, made, others]; rfl, ?_⟩
    simp only [List.flatMap_cons, List.append_assoc, List.count_append, same, Found.text] at count ⊢
    omega

/-- A line that no match meets stays, if the replacements have as many separators. -/
theorem replaceFrom_lineAt {replacement : Found → Option (List Char)} {sep : Char}
    {rest before out : List Char} {parts : List (List Char × List Piece)} {k : Nat}
    (each : ∀ found ∈ foundFrom before parts, ∀ new, replacement found = some new →
      new.count sep = found.text.count sep)
    (clear : ∀ found ∈ foundFrom before parts, ¬(found.firstLine sep ≤ k ∧ k ≤ found.lastLine sep))
    (later : before.count sep ≤ k) (made : replaceFrom replacement rest before parts = some out) :
    lineAt sep (k - before.count sep) out = lineAt sep (k - before.count sep)
      ((parts.flatMap fun part => part.1 ++ textOf part.2) ++ rest) := by
  induction parts generalizing before out with
  | nil =>
    cases made
    rfl
  | cons part parts ih =>
    obtain ⟨gap, pieces⟩ := part
    rw [replaceFrom] at made
    obtain ⟨new, replaced, made⟩ := Option.bind_eq_some_iff.mp made
    obtain ⟨others, replacedLater, made⟩ := Option.bind_eq_some_iff.mp made
    cases made
    have same := each _ (List.mem_cons_self ..) new replaced
    have apart := clear _ (List.mem_cons_self ..)
    simp only [Found.lastLine, Found.firstLine, Found.text, List.count_append] at same apart
    have whole : (((gap, pieces) :: parts).flatMap fun part => part.1 ++ textOf part.2) ++ rest =
        (gap ++ textOf pieces) ++ ((parts.flatMap fun part => part.1 ++ textOf part.2) ++ rest) := by
      rw [List.flatMap_cons, List.append_assoc]
    rw [whole]
    by_cases early : k - before.count sep < gap.count sep
    · rw [List.append_assoc, List.append_assoc, lineAt_front early, lineAt_front early]
    · -- the line is not the match's, so that it is one after it
      have after : (before ++ gap ++ textOf pieces).count sep ≤ k := by
        simp only [List.count_append]
        omega
      have tail := ih (fun found member => each found (List.mem_cons_of_mem _ member))
        (fun found member => clear found (List.mem_cons_of_mem _ member)) after replacedLater
      have beyond : (gap ++ textOf pieces).count sep < k - before.count sep := by
        simp only [List.count_append]
        omega
      have counts : (gap ++ new).count sep = (gap ++ textOf pieces).count sep := by
        rw [List.count_append, List.count_append, same]
      have shift : k - before.count sep - (gap ++ textOf pieces).count sep =
          k - (before ++ gap ++ textOf pieces).count sep := by
        simp only [List.count_append]
        omega
      have beyondNew := beyond
      rw [← counts] at beyondNew
      rw [lineAt_skip beyondNew, lineAt_skip beyond, counts, shift, tail]

end Scans

end Regex

end CodexRemote.Foundations

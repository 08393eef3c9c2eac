import Mathlib.Algebra.Order.Group.Int
import Mathlib.Data.List.Sort

/-! # Sets of integers as lists of spans

A span is a closed interval.  A list of spans is normal when it is sorted, without overlap and
without spans that touch; a set has at most one normal list.  A list of spans tiles an interval
when the spans follow one another through it.
-/

namespace CodexRemote.Foundations

@[ext] structure Span where
  first : Int
  last : Int
deriving DecidableEq, Repr

namespace Span

def Holds (span : Span) (x : Int) : Prop := span.first ≤ x ∧ x ≤ span.last

instance (span : Span) (x : Int) : Decidable (span.Holds x) := inferInstanceAs (Decidable (_ ∧ _))

def Covers (spans : List Span) (x : Int) : Prop := ∃ span ∈ spans, span.Holds x

instance (spans : List Span) (x : Int) : Decidable (Covers spans x) :=
  inferInstanceAs (Decidable (∃ span ∈ spans, _))

@[simp] theorem not_covers_nil (x : Int) : ¬ Covers [] x := nofun

variable {rest : List Span} {span : Span} {x : Int}

@[simp] theorem covers_cons :
    Covers (span :: rest) x ↔ span.Holds x ∨ Covers rest x := List.exists_mem_cons_iff ..

theorem covers_append {front back : List Span} :
    Covers (front ++ back) x ↔ Covers front x ∨ Covers back x := by
  induction front with
  | nil => simp
  | cons span front ih => rw [List.cons_append, covers_cons, covers_cons, ih, or_assoc]

theorem covers_perm {a b : List Span} (same : a.Perm b) : Covers a x ↔ Covers b x := by
  constructor
  · rintro ⟨span, there, holds⟩
    exact ⟨span, same.mem_iff.1 there, holds⟩
  · rintro ⟨span, there, holds⟩
    exact ⟨span, same.mem_iff.2 there, holds⟩

/-! ## Normal lists -/

structure Normal (spans : List Span) : Prop where
  valid : ∀ span ∈ spans, span.first ≤ span.last
  apart : spans.Pairwise fun a b => a.last + 1 < b.first

theorem Normal.nil : Normal [] := ⟨nofun, .nil⟩

theorem Normal.single (valid : span.first ≤ span.last) : Normal [span] :=
  ⟨fun _ there => List.mem_singleton.1 there ▸ valid, List.pairwise_singleton ..⟩

theorem Normal.tail (normal : Normal (span :: rest)) : Normal rest :=
  ⟨fun other there => normal.valid other (List.mem_cons_of_mem _ there), normal.apart.of_cons⟩

/-- What the tail covers lies beyond the head and does not touch it. -/
theorem Normal.beyond (normal : Normal (span :: rest))
    (covered : Covers rest x) : span.last + 1 < x := by
  obtain ⟨other, there, holds⟩ := covered
  exact Int.lt_of_lt_of_le (List.rel_of_pairwise_cons normal.apart there) holds.1

/-- The first element of the set and the first gap behind it determine the head. -/
theorem Normal.head_le {other : Span} {others : List Span} (normal : Normal (span :: rest))
    (there : Normal (other :: others))
    (same : ∀ x, Covers (span :: rest) x ↔ Covers (other :: others) x) :
    other.first ≤ span.first ∧ other.last ≤ span.last := by
  have valid := normal.valid span (List.mem_cons_self ..)
  have valid_other := there.valid other (List.mem_cons_self ..)
  have start : other.first ≤ span.first := by
    obtain holds | covered := covers_cons.1 ((same span.first).1 (covers_cons.2 (.inl ⟨le_refl _, valid⟩)))
    · exact holds.1
    · have far := there.beyond covered
      omega
  refine ⟨start, ?_⟩
  by_contra longer
  -- the element behind the span would be in the other list and not in this one
  have inside : Covers (other :: others) (span.last + 1) :=
    covers_cons.2 (.inl ⟨by omega, by omega⟩)
  obtain holds | covered := covers_cons.1 ((same _).2 inside)
  · have upper := holds.2
    omega
  · have far := normal.beyond covered
    omega

/-- Normal lists are canonical. -/
theorem Normal.unique {a b : List Span} (left : Normal a) (right : Normal b)
    (same : ∀ x, Covers a x ↔ Covers b x) : a = b := by
  induction a generalizing b with
  | nil =>
    cases b with
    | nil => rfl
    | cons other others =>
      have valid := right.valid other (List.mem_cons_self ..)
      exact absurd ((same other.first).2 (covers_cons.2 (.inl ⟨le_refl _, valid⟩)))
        (not_covers_nil _)
  | cons span rest ih =>
    cases b with
    | nil =>
      have valid := left.valid span (List.mem_cons_self ..)
      exact absurd ((same span.first).1 (covers_cons.2 (.inl ⟨le_refl _, valid⟩)))
        (not_covers_nil _)
    | cons other others =>
      obtain ⟨first_ge, last_ge⟩ := left.head_le right same
      obtain ⟨first_le, last_le⟩ := right.head_le left fun x => (same x).symm
      have head : span = other := Span.ext (by omega) (by omega)
      subst head
      congr 1
      refine ih left.tail right.tail fun x => ⟨fun covered => ?_, fun covered => ?_⟩
      · obtain holds | found := covers_cons.1 ((same x).1 (covers_cons.2 (.inr covered)))
        · have far := left.beyond covered
          have near := holds.2
          omega
        · exact found
      · obtain holds | found := covers_cons.1 ((same x).2 (covers_cons.2 (.inr covered)))
        · have far := right.beyond covered
          have near := holds.2
          omega
        · exact found

/-- A normal list covers an interval only as that one span. -/
theorem Normal.interval {spans : List Span} {whole : Span} (normal : Normal spans)
    (valid : whole.first ≤ whole.last)
    (inside : ∀ span ∈ spans, whole.first ≤ span.first ∧ span.last ≤ whole.last) :
    spans = [whole] ↔ ∀ x, whole.Holds x → Covers spans x := by
  constructor
  · rintro rfl x holds
    exact covers_cons.2 (.inl holds)
  · intro all
    refine normal.unique (.single valid) fun x => ⟨?_, ?_⟩
    · rintro ⟨span, there, holds⟩
      obtain ⟨lower, upper⟩ := inside span there
      exact covers_cons.2 (.inl ⟨Int.le_trans lower holds.1, Int.le_trans holds.2 upper⟩)
    · rintro covered
      obtain holds | none_ := covers_cons.1 covered
      · exact all x holds
      · exact absurd none_ (not_covers_nil x)

/-! ## Adding an element -/

/-- One span onto the merged ones, the last of these first; `after` is the successor of a bound. -/
def push (after : Int → Int) : List Span → Span → List Span
  | [], span => [span]
  | last :: merged, span =>
    if span.first ≤ after last.last then
      { last with last := max last.last span.last } :: merged
    else span :: last :: merged

/-- Merge sorted spans that overlap or touch. -/
def coalesce (after : Int → Int) (spans : List Span) : List Span :=
  (spans.foldl (push after) []).reverse

def point (x : Int) : Span := ⟨x, x⟩

def insert (after : Int → Int) (spans : List Span) (x : Int) : List Span :=
  coalesce after ((spans ++ [point x]).mergeSort fun a b => a.first ≤ b.first)

/-- Merged spans, the last first, none of which ends after the bound. -/
structure Merged (bound : Int) (merged : List Span) : Prop where
  valid : ∀ span ∈ merged, span.first ≤ span.last
  apart : merged.Pairwise fun a b => b.last + 1 < a.first
  bounded : ∀ span ∈ merged, span.last ≤ bound

section Merging

variable {after : Int → Int} {bound : Int} (successor : ∀ x ≤ bound, after x = x + 1)
include successor

theorem push_merged {merged : List Span} (holds : Merged bound merged)
    (valid : span.first ≤ span.last) (within : span.last ≤ bound)
    (sorted : ∀ old ∈ merged, old.first ≤ span.first) :
    Merged bound (push after merged span) ∧
      (∀ old ∈ push after merged span, old.first ≤ span.first) ∧
      ∀ x, Covers (push after merged span) x ↔ Covers merged x ∨ span.Holds x := by
  cases merged with
  | nil =>
    refine ⟨⟨?_, List.pairwise_singleton .., ?_⟩, ?_, fun x => ?_⟩
    · exact fun _ there => List.mem_singleton.1 there ▸ valid
    · exact fun _ there => List.mem_singleton.1 there ▸ within
    · exact fun _ there => List.mem_singleton.1 there ▸ le_refl _
    · simp [push]
  | cons last merged =>
    have last_valid := holds.valid last (List.mem_cons_self ..)
    have last_bounded := holds.bounded last (List.mem_cons_self ..)
    have before := sorted last (List.mem_cons_self ..)
    have far : ∀ old ∈ merged, old.last + 1 < last.first :=
      fun _ there => List.rel_of_pairwise_cons holds.apart there
    rw [push, successor last.last last_bounded]
    split
    · next touches =>
      refine ⟨⟨?_, ?_, ?_⟩, ?_, fun x => ?_⟩
      · rintro old (_ | ⟨_, there⟩)
        · exact Int.le_trans last_valid (Int.le_max_left ..)
        · exact holds.valid old (List.mem_cons_of_mem _ there)
      · exact List.pairwise_cons.2 ⟨far, holds.apart.of_cons⟩
      · rintro old (_ | ⟨_, there⟩)
        · exact Int.max_le.2 ⟨last_bounded, within⟩
        · exact holds.bounded old (List.mem_cons_of_mem _ there)
      · rintro old (_ | ⟨_, there⟩)
        · exact before
        · exact sorted old (List.mem_cons_of_mem _ there)
      · -- the two spans touch, so together they are one
        have joined : Holds { last with last := max last.last span.last } x ↔
            last.Holds x ∨ span.Holds x := by
          simp only [Holds]
          omega
        rw [covers_cons, covers_cons, joined]
        tauto
    · next gap =>
      refine ⟨⟨?_, ?_, ?_⟩, ?_, fun x => ?_⟩
      · rintro old (_ | ⟨_, there⟩)
        · exact valid
        · exact holds.valid old there
      · refine List.pairwise_cons.2 ⟨?_, holds.apart⟩
        rintro old (_ | ⟨_, there⟩)
        · omega
        · have near := far _ there
          omega
      · rintro old (_ | ⟨_, there⟩)
        · exact within
        · exact holds.bounded old there
      · rintro old (_ | ⟨_, there⟩)
        · exact le_refl _
        · exact sorted old there
      · rw [covers_cons, covers_cons]
        tauto

theorem foldl_push_merged {spans merged : List Span} (holds : Merged bound merged)
    (valid : ∀ span ∈ spans, span.first ≤ span.last ∧ span.last ≤ bound)
    (sorted : spans.Pairwise fun a b => a.first ≤ b.first)
    (later : ∀ old ∈ merged, ∀ span ∈ spans, old.first ≤ span.first) :
    Merged bound (spans.foldl (push after) merged) ∧
      ∀ x, Covers (spans.foldl (push after) merged) x ↔ Covers merged x ∨ Covers spans x := by
  induction spans generalizing merged with
  | nil => exact ⟨holds, fun x => by simp⟩
  | cons span spans ih =>
    obtain ⟨span_valid, within⟩ := valid span (List.mem_cons_self ..)
    obtain ⟨pushed, firsts, covered⟩ := push_merged successor holds span_valid within
      fun old there => later old there span (List.mem_cons_self ..)
    have next : ∀ other ∈ spans, span.first ≤ other.first :=
      fun _ there => List.rel_of_pairwise_cons sorted there
    obtain ⟨final, all⟩ := ih pushed
      (fun other there => valid other (List.mem_cons_of_mem _ there)) sorted.of_cons
      fun old there other member => Int.le_trans (firsts old there) (next other member)
    refine ⟨final, fun x => ?_⟩
    rw [List.foldl_cons, all, covered, covers_cons, or_assoc]

/-- Inserting an element keeps a list normal and adds that element. -/
theorem insert_spec {spans : List Span} (normal : Normal spans) (within : x ≤ bound)
    (bounded : ∀ span ∈ spans, span.last ≤ bound) :
    Normal (insert after spans x) ∧ ∀ y, Covers (insert after spans x) y ↔ Covers spans y ∨ y = x := by
  have perm := List.mergeSort_perm (spans ++ [point x]) fun a b : Span => a.first ≤ b.first
  have sorted := @List.pairwise_mergeSort Span (fun a b => decide (a.first ≤ b.first))
    (by intro a b c; simp only [decide_eq_true_eq]; omega)
    (by intro a b; simp only [Bool.or_eq_true, decide_eq_true_eq]; omega) (spans ++ [point x])
  have valid : ∀ span ∈ (spans ++ [point x]).mergeSort fun a b => a.first ≤ b.first,
      span.first ≤ span.last ∧ span.last ≤ bound := by
    intro span there
    obtain old | new := List.mem_append.1 (perm.mem_iff.1 there)
    · exact ⟨normal.valid span old, bounded span old⟩
    · rw [List.mem_singleton.1 new]
      exact ⟨le_refl _, within⟩
  have empty : Merged bound [] :=
    ⟨fun _ none_ => (nomatch none_), .nil, fun _ none_ => (nomatch none_)⟩
  obtain ⟨merged, covered⟩ := foldl_push_merged successor empty valid
    (sorted.imp fun le => of_decide_eq_true le) fun _ none_ => (nomatch none_)
  refine ⟨⟨fun span there => merged.valid span (List.mem_reverse.1 there), ?_⟩, fun y => ?_⟩
  · exact List.pairwise_reverse.2 merged.apart
  · rw [insert, coalesce, covers_perm (List.reverse_perm _), covered, covers_perm perm,
      covers_append]
    simp only [not_covers_nil, covers_cons, Holds, point, false_or, or_false]
    rw [← Int.le_antisymm_iff]
    tauto

end Merging

/-! ## Tilings -/

/-- The spans follow one another from `next` through `upto`. -/
def Tiled (next upto : Int) : List Span → Prop
  | [] => next = upto + 1
  | span :: rest => span.first = next ∧ span.first ≤ span.last ∧ Tiled (span.last + 1) upto rest

theorem Tiled.snoc {next upto : Int} {spans : List Span} {span : Span}
    (tiled : Tiled next upto spans) (follows : span.first = upto + 1)
    (valid : span.first ≤ span.last) : Tiled next span.last (spans ++ [span]) := by
  induction spans generalizing next with
  | nil => exact ⟨follows.trans tiled.symm, valid, rfl⟩
  | cons head rest ih =>
    obtain ⟨start, head_valid, more⟩ := tiled
    exact ⟨start, head_valid, ih more⟩

end Span

end CodexRemote.Foundations

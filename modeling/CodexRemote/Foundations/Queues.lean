import Mathlib.Data.List.Basic
import Mathlib.Data.List.Induction

/-! # Removing elements of a queue by saved index -/

namespace CodexRemote.Foundations

universe u v

variable {α : Type u} {β : Type v}

/-- Remove the elements at the given indices, one after another. -/
def eraseEach : List Nat → List α → List α
  | [], queue => queue
  | index :: later, queue => eraseEach later (queue.eraseIdx index)

variable {f : α → Option β} {queue : List α} {keeps : Nat → Bool}

theorem filterMap_eraseIdx {index : Nat} (dropped : ∀ x, queue[index]? = some x → f x = none) :
    (queue.eraseIdx index).filterMap f = queue.filterMap f := by
  induction queue generalizing index with
  | nil => rfl
  | cons head tail ih =>
    cases index with
    | zero => simp [dropped head rfl]
    | succ index =>
      have rest : (tail.eraseIdx index).filterMap f = tail.filterMap f := ih dropped
      simp only [List.eraseIdx_cons_succ, List.filterMap_cons, rest]

/-- Indices saved in ascending order and removed from the last to the first still
name the elements they named when they were saved. -/
theorem filterMap_eraseEach {indices : List Nat} (descending : indices.Pairwise (· > ·))
    (dropped : ∀ index ∈ indices, ∀ x, queue[index]? = some x → f x = none) :
    (eraseEach indices queue).filterMap f = queue.filterMap f := by
  induction indices generalizing queue with
  | nil => rfl
  | cons index later ih =>
    rw [List.pairwise_cons] at descending
    have stillThere : ∀ j ∈ later, ∀ x, (queue.eraseIdx index)[j]? = some x → f x = none := by
      intro j member x found
      have before : j < index := descending.1 j member
      rw [List.getElem?_eraseIdx_of_lt before] at found
      exact dropped j (List.mem_cons_of_mem _ member) x found
    rw [eraseEach, ih descending.2 stillThere]
    exact filterMap_eraseIdx (dropped index (List.mem_cons_self ..))

/-- Removing the first element that `f` keeps removes the head of what it keeps. -/
theorem filterMap_eraseIdx_first {index : Nat} {x : α} {b : β}
    (found : queue[index]? = some x) (kept : f x = some b)
    (first : ∀ j y, j < index → queue[j]? = some y → f y = none) :
    queue.filterMap f = b :: (queue.eraseIdx index).filterMap f := by
  induction queue generalizing index with
  | nil => simp at found
  | cons head tail ih =>
    cases index with
    | zero =>
      simp only [List.getElem?_cons_zero, Option.some.injEq] at found
      subst found
      simp [kept]
    | succ index =>
      have skipped : f head = none := first 0 head (Nat.succ_pos _) rfl
      have rest : tail.filterMap f = b :: (tail.eraseIdx index).filterMap f := by
        refine ih found ?_
        intro j y before here
        exact first (j + 1) y (Nat.succ_lt_succ before) here
      simp only [List.eraseIdx_cons_succ, List.filterMap_cons, skipped, rest]

theorem eraseEach_sublist (indices : List Nat) (queue : List α) :
    (eraseEach indices queue).Sublist queue := by
  induction indices generalizing queue with
  | nil => exact List.Sublist.refl queue
  | cons index later ih => exact (ih (queue.eraseIdx index)).trans (List.eraseIdx_sublist ..)

/-- The elements whose index is kept, in their order -/
def keepAt (keeps : Nat → Bool) (queue : List α) : List α :=
  (queue.zipIdx.filter fun entry => keeps entry.2).map (·.1)

theorem keepAt_cons (keeps : Nat → Bool) (head : α) (tail : List α) :
    keepAt keeps (head :: tail) =
      (if keeps 0 then [head] else []) ++ keepAt (fun j => keeps (j + 1)) tail := by
  simp only [keepAt, List.zipIdx_cons, List.filter_cons, Nat.zero_add]
  rw [List.zipIdx_succ, List.filter_map]
  split
  · rw [List.map_cons, List.map_map]
    rfl
  · rw [List.map_map]
    rfl

theorem keepAt_all (all : ∀ j, keeps j = true) (queue : List α) :
    keepAt keeps queue = queue := by
  simp [keepAt, all, List.filter_true]

theorem keepAt_sublist (keeps : Nat → Bool) (queue : List α) :
    (keepAt keeps queue).Sublist queue := by
  have sub := (List.filter_sublist (p := fun entry : α × Nat => keeps entry.2)
    (l := queue.zipIdx)).map (·.1)
  rwa [List.zipIdx_map_fst] at sub

theorem keepAt_congr {keeps' : Nat → Bool}
    (same : ∀ j < queue.length, keeps j = keeps' j) : keepAt keeps queue = keepAt keeps' queue := by
  induction queue generalizing keeps keeps' with
  | nil => rfl
  | cons head tail ih =>
    rw [keepAt_cons, keepAt_cons, same 0 (Nat.succ_pos _),
      ih fun j less => same (j + 1) (Nat.succ_lt_succ less)]

/-- Elements that `f` passes over may be dropped. -/
theorem filterMap_keepAt (dropped : ∀ j x, queue[j]? = some x → keeps j = false → f x = none) :
    (keepAt keeps queue).filterMap f = queue.filterMap f := by
  induction queue generalizing keeps with
  | nil => rfl
  | cons head tail ih =>
    rw [keepAt_cons, List.filterMap_append, ih fun j x found => dropped (j + 1) x found]
    cases kept : keeps 0 with
    | true => simp [List.filterMap_cons]; split <;> simp_all
    | false => simp [dropped 0 head rfl kept]

theorem keepAt_eraseIdx {index : Nat} (later : ∀ j, index ≤ j → keeps j = true) :
    keepAt keeps (queue.eraseIdx index) = keepAt (fun j => keeps j && j != index) queue := by
  induction queue generalizing keeps index with
  | nil => rfl
  | cons head tail ih =>
    cases index with
    | zero =>
      rw [List.eraseIdx_cons_zero, keepAt_cons, keepAt_all fun j => later j (Nat.zero_le j)]
      simp only [bne_self_eq_false, Bool.and_false, Bool.false_eq_true, if_false, List.nil_append]
      refine (keepAt_all (fun j => ?_) tail).symm
      simp [later (j + 1) (Nat.zero_le _)]
    | succ index =>
      rw [List.eraseIdx_cons_succ, keepAt_cons, keepAt_cons,
        ih fun j less => later (j + 1) (Nat.succ_le_succ less)]
      simp

/-- Indices saved in ascending order and removed from the last to the first -/
theorem eraseEach_reverse {indices : List Nat} (ascending : indices.Pairwise (· < ·))
    (queue : List α) :
    eraseEach indices.reverse queue = keepAt (fun j => !indices.contains j) queue := by
  induction indices using List.reverseRecOn generalizing queue with
  | nil => exact (keepAt_all (fun _ => rfl) queue).symm
  | append_singleton earlier last ih =>
    rw [List.pairwise_append] at ascending
    obtain ⟨ordered, _, before⟩ := ascending
    rw [List.reverse_append, List.reverse_singleton, List.singleton_append, eraseEach,
      ih ordered, keepAt_eraseIdx]
    · congr 1
      funext j
      by_cases same : j = last <;> simp [same]
    · intro j less
      have absent : j ∉ earlier := by
        intro member
        have below := before j member last (List.mem_singleton_self last)
        omega
      simpa using absent

/-- An element that excludes every other one of its kind is all that a filter for
that kind keeps. -/
theorem filter_alone {p : α → Bool} {x : α} (member : x ∈ queue) (own : p x)
    (alone : queue.Pairwise fun a b => p a → p b → a ≠ x ∧ b ≠ x) : queue.filter p = [x] := by
  induction queue with
  | nil => cases member
  | cons head tail ih =>
    rw [List.pairwise_cons] at alone
    obtain ⟨apart, rest⟩ := alone
    cases List.mem_cons.1 member with
    | inl same =>
      subst same
      have none : tail.filter p = [] := by
        rw [List.filter_eq_nil_iff]
        intro y there kind
        exact (apart y there own kind).1 rfl
      rw [List.filter_cons_of_pos own, none]
    | inr there =>
      have other : ¬p head := fun kind => (apart x there kind own).2 rfl
      rw [List.filter_cons_of_neg other, ih there rest]

/-! ## What the entries of a log name -/

theorem filterMap_snoc (f : α → Option β) (log : List α) (x : α) :
    (log ++ [x]).filterMap f = log.filterMap f ++ (f x).toList := by
  rw [List.filterMap_append]
  cases named : f x <;> simp [named]

/-- Where no two entries name the same thing, a name has one entry. -/
theorem eq_of_filterMap_nodup {log : List α} {x y : α} {b : β}
    (distinct : (log.filterMap f).Nodup) (first : x ∈ log) (second : y ∈ log)
    (one : f x = some b) (two : f y = some b) : x = y := by
  induction log with
  | nil => cases first
  | cons head tail ih =>
    have rest : (tail.filterMap f).Nodup := by
      rw [List.filterMap_cons] at distinct
      split at distinct
      · exact distinct
      · exact (List.nodup_cons.1 distinct).2
    have apart : ∀ z ∈ tail, f z = some b → f head ≠ some b := by
      intro z member named same
      rw [List.filterMap_cons, same] at distinct
      exact (List.nodup_cons.1 distinct).1 (List.mem_filterMap.2 ⟨z, member, named⟩)
    obtain rfl | later := List.mem_cons.1 first
    · obtain rfl | also := List.mem_cons.1 second
      · rfl
      · exact absurd one (apart y also two)
    · obtain rfl | also := List.mem_cons.1 second
      · exact absurd two (apart x later one)
      · exact ih rest later also

end CodexRemote.Foundations

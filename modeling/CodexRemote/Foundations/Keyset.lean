import Mathlib.Data.Finset.Card
import Mathlib.Data.List.Sort

/-! # Keyset paging

A pass reads the rows of a changing table page by page, in the order of their positions.
Its first page fixes the highest position that the pass will read; each later page starts
after the last position that was read, and a page that is not full ends the pass.
-/

namespace CodexRemote.Foundations.Keyset

universe u v

variable {α : Type u} {π : Type v} [LinearOrder π]

structure Cursor (π : Type v) where
  after : Option π
  upper : Option π
  finished : Bool
deriving DecidableEq, Repr

def Cursor.start : Cursor π := ⟨none, none, false⟩

section Page

variable (size : Nat) (position : α → π)

/-- The rows after one bound and up to the other, lowest first and at most `size` of them. -/
def select (after : Option π) (upper : π) (rows : List α) : List α :=
  ((rows.filter fun row => after.all (· < position row) && position row ≤ upper).insertionSort
    fun a b => position a ≤ position b).take size

def highest (rows : List α) : Option π := (rows.map position).max?

def page (rows : List α) (cursor : Cursor π) : List α × Cursor π :=
  match cursor.upper.or (highest position rows) with
  | none => ([], { cursor with finished := true })
  | some upper =>
    let entries := select size position cursor.after upper rows
    (entries, { after := (entries.getLast?.map position).or cursor.after
                upper := some upper
                finished := entries.length < size })

end Page

/-! ## One page -/

section Select

variable {size : Nat} {position : α → π} {after : Option π} {upper : π} {rows : List α}

theorem mem_of_select {row : α} (member : row ∈ select size position after upper rows) :
    row ∈ rows ∧ after.all (· < position row) = true ∧ position row ≤ upper := by
  have sorted := List.mem_of_mem_take member
  rw [List.mem_insertionSort, List.mem_filter] at sorted
  simpa using sorted

theorem select_length_le : (select size position after upper rows).length ≤ size :=
  List.length_take_le ..

theorem sorted_ascending (unique : (rows.map position).Nodup) :
    ((rows.insertionSort fun a b => position a ≤ position b).map position).Pairwise (· < ·) := by
  have ordered : ((rows.insertionSort fun a b => position a ≤ position b).map
      position).Pairwise (· ≤ ·) := by
    rw [List.pairwise_map]
    exact List.pairwise_insertionSort (fun a b : α => position a ≤ position b) rows
  have apart : ((rows.insertionSort fun a b => position a ≤ position b).map
      position).Nodup := by
    have same := (List.perm_insertionSort (fun a b : α => position a ≤ position b) rows).map position
    exact same.nodup_iff.2 unique
  exact (ordered.and apart).imp fun both => lt_of_le_of_ne both.1 both.2

theorem select_ascending (unique : (rows.map position).Nodup) :
    ((select size position after upper rows).map position).Pairwise (· < ·) := by
  have fewer : ((rows.filter fun row =>
      after.all (· < position row) && position row ≤ upper).map position).Nodup :=
    unique.sublist (List.filter_sublist.map position)
  exact (sorted_ascending fewer).sublist ((List.take_sublist _ _).map position)

/-- A row between the bounds is selected, unless a full page of lower ones is. -/
theorem select_or_full (unique : (rows.map position).Nodup) {row : α} (member : row ∈ rows)
    (later : after.all (· < position row) = true) (below : position row ≤ upper) :
    row ∈ select size position after upper rows ∨
      (select size position after upper rows).length = size ∧
        ∀ entry ∈ select size position after upper rows, position entry < position row := by
  have fewer : ((rows.filter fun row =>
      after.all (· < position row) && position row ≤ upper).map position).Nodup :=
    unique.sublist (List.filter_sublist.map position)
  have ascending := sorted_ascending fewer
  have inside : row ∈ (rows.filter fun row =>
      after.all (· < position row) && position row ≤ upper).insertionSort
        fun a b => position a ≤ position b := by
    rw [List.mem_insertionSort, List.mem_filter]
    exact ⟨member, by simp [later, below]⟩
  rw [select]
  generalize (rows.filter fun row =>
      after.all (· < position row) && position row ≤ upper).insertionSort
        (fun a b => position a ≤ position b) = sorted at ascending inside ⊢
  rw [← List.take_append_drop size sorted, List.mem_append] at inside
  obtain taken | dropped := inside
  · exact .inl taken
  · right
    have long : size < sorted.length := by
      by_contra short
      rw [List.drop_eq_nil_of_le (Nat.le_of_not_lt short)] at dropped
      cases dropped
    constructor
    · rw [List.length_take]
      omega
    · rw [← List.take_append_drop size sorted, List.map_append, List.pairwise_append] at ascending
      intro entry taken
      exact ascending.2.2 _ (List.mem_map_of_mem taken) _ (List.mem_map_of_mem dropped)

end Select

/-! ## A pass -/

section Pass

variable (size : Nat) (position : α → π) (rows : Nat → List α)

/-- The cursor before the page that is read from `rows n`. -/
def cursorAt : Nat → Cursor π
  | 0 => .start
  | n + 1 => (page size position (rows n) (cursorAt n)).2

def pageAt (n : Nat) : List α := (page size position (rows n) (cursorAt size position rows n)).1

/-- What the first pages returned, in their order. -/
def returned : Nat → List α
  | 0 => []
  | n + 1 => returned n ++ pageAt size position rows n

/-- How far a pass is after `n` pages under a bound. -/
structure Progress (upper : π) (n : Nat) (cursor : Cursor π) (seen : List π) : Prop where
  ascending : seen.Pairwise (· < ·)
  below : ∀ p ∈ seen, p ≤ upper
  passed : ∀ p ∈ seen, ∃ last, cursor.after = some last ∧ p ≤ last
  kept : ∀ p ≤ upper, (∀ k < n, p ∈ (rows k).map position) →
    p ∈ seen ∨ cursor.finished = false ∧ cursor.after.all (· < p) = true
  filled : cursor.finished = false → seen.length = size * n

end Pass

variable {n : Nat}

section Passes

variable {size : Nat} {position : α → π} {rows : Nat → List α} {upper : π}

theorem Progress.start : Progress size position rows upper 0 (.start : Cursor π) [] where
  ascending := List.Pairwise.nil
  below := by simp
  passed := by simp
  kept := fun _ _ _ => .inr ⟨rfl, rfl⟩
  filled := fun _ => by simp

/-- One page: what it returns lies after everything returned before, and a row that it leaves
out while it is full still lies ahead. -/
theorem Progress.step {n : Nat} {cursor : Cursor π} {seen : List π}
    (progress : Progress size position rows upper n cursor seen) (running : cursor.finished = false)
    (bound : cursor.upper.or (highest position (rows n)) = some upper)
    (unique : ((rows n).map position).Nodup) :
    Progress size position rows upper (n + 1) (page size position (rows n) cursor).2
      (seen ++ (page size position (rows n) cursor).1.map position) := by
  have paged : page size position (rows n) cursor =
      (select size position cursor.after upper (rows n),
        { after := ((select size position cursor.after upper (rows n)).getLast?.map position).or
            cursor.after
          upper := some upper
          finished := (select size position cursor.after upper (rows n)).length < size }) := by
    simp only [page, bound]
  have ascending := @select_ascending _ _ _ size position cursor.after upper _ unique
  have between := fun row member =>
    @mem_of_select _ _ _ size position cursor.after upper (rows n) row member
  have complete := fun row member =>
    @select_or_full _ _ _ size position cursor.after upper _ unique row member
  have short := @select_length_le _ _ _ size position cursor.after upper (rows n)
  rw [paged]
  generalize select size position cursor.after upper (rows n) = entries
    at ascending between complete short
  have ahead : ∀ p ∈ seen, ∀ entry ∈ entries, p < position entry := by
    intro p earlier entry member
    obtain ⟨last, last_is, upto⟩ := progress.passed p earlier
    have later := (between entry member).2.1
    rw [last_is] at later
    exact lt_of_le_of_lt upto (by simpa using later)
  have final : ∀ p ∈ entries.map position, ∀ last, entries.getLast? = some last →
      p ≤ position last := by
    intro p member last last_is
    obtain ⟨front, whole⟩ := List.getLast?_eq_some_iff.1 last_is
    subst whole
    rw [List.map_append, List.pairwise_append] at ascending
    rw [List.map_append, List.mem_append] at member
    obtain earlier | same := member
    · exact le_of_lt (ascending.2.2 p earlier (position last) (by simp))
    · simp only [List.map_cons, List.map_nil, List.mem_singleton] at same
      exact le_of_eq same
  constructor
  · rw [List.pairwise_append]
    refine ⟨progress.ascending, ascending, ?_⟩
    intro p earlier q member
    obtain ⟨entry, inside, same⟩ := List.mem_map.1 member
    subst same
    exact ahead p earlier entry inside
  · intro p member
    obtain earlier | now := List.mem_append.1 member
    · exact progress.below p earlier
    · obtain ⟨entry, inside, same⟩ := List.mem_map.1 now
      subst same
      exact (between entry inside).2.2
  · intro p member
    cases last_is : entries.getLast? with
    | none =>
      rw [List.getLast?_eq_none_iff] at last_is
      subst last_is
      obtain ⟨last, after_is, upto⟩ := progress.passed p (by simpa using member)
      exact ⟨last, by simp [after_is], upto⟩
    | some last =>
      refine ⟨position last, by simp, ?_⟩
      obtain earlier | now := List.mem_append.1 member
      · exact le_of_lt (ahead p earlier last (List.mem_of_getLast? last_is))
      · exact final p now last last_is
  · intro p low candidate
    obtain earlier | waiting := progress.kept p low fun k before => candidate k (by omega)
    · exact .inl (List.mem_append_left _ earlier)
    · obtain ⟨row, inside, same⟩ := List.mem_map.1 (candidate n (by omega))
      subst same
      obtain selected | full := complete row inside waiting.2 low
      · exact .inl (List.mem_append_right _ (List.mem_map_of_mem selected))
      · right
        refine ⟨by simp [full.1], ?_⟩
        cases last_is : entries.getLast? with
        | none => simpa using waiting.2
        | some last => simpa using full.2 last (List.mem_of_getLast? last_is)
  · intro more
    have length := progress.filled running
    have page_full : entries.length = size := by
      have not_short : ¬ entries.length < size := of_decide_eq_false more
      omega
    rw [List.length_append, List.length_map, length, page_full, Nat.mul_succ]

theorem page_upper {cursor : Cursor π}
    (bound : cursor.upper.or (highest position (rows n)) = some upper) :
    (page size position (rows n) cursor).2.upper = some upper := by
  simp [page, bound]

/-- A pass that has not finished goes on under the bound of its first page. -/
theorem progress_at (unique : ∀ k, ((rows k).map position).Nodup)
    (bound : highest position (rows 0) = some upper) (n : Nat)
    (running : ∀ k < n, (cursorAt size position rows k).finished = false) :
    Progress size position rows upper n (cursorAt size position rows n)
        ((returned size position rows n).map position) ∧
      (cursorAt size position rows n).upper.or (highest position (rows n)) = some upper := by
  induction n with
  | zero => exact ⟨.start, bound⟩
  | succ n ih =>
    obtain ⟨progress, fixed⟩ := ih fun k before => running k (by omega)
    have stepped := progress.step (running n (by omega)) fixed (unique n)
    constructor
    · rw [returned, List.map_append]
      exact stepped
    · rw [cursorAt, page_upper fixed]
      rfl

/-- Nothing is read in a pass whose first page finds no row. -/
theorem empty_pass (empty : highest position (rows 0) = none) :
    (cursorAt size position rows 1).finished = true ∧ returned size position rows 1 = [] := by
  have paged : page size position (rows 0) (.start : Cursor π) =
      ([], { (.start : Cursor π) with finished := true }) := by
    simp [page, Cursor.start, empty]
  constructor
  · rw [cursorAt, cursorAt, paged]
  · rw [returned, returned, pageAt, cursorAt, paged]
    rfl

theorem Progress.pages_le {cursor : Cursor π} {seen : List π}
    (progress : Progress size position rows upper n cursor seen)
    (running : cursor.finished = false) {known : Finset π} (positive : 0 < size)
    (covered : ∀ p ∈ seen, p ∈ known) : n ≤ known.card / size := by
  have distinct : seen.Nodup := progress.ascending.imp ne_of_lt
  have few : seen.length ≤ known.card := by
    rw [← List.toFinset_card_of_nodup distinct]
    exact Finset.card_le_card fun p member => covered p (List.mem_toFinset.1 member)
  rw [progress.filled running] at few
  rw [Nat.le_div_iff_mul_le positive, Nat.mul_comm]
  exact few

theorem returned_from {row : α} (member : row ∈ returned size position rows n) :
    ∃ k < n, row ∈ rows k := by
  induction n with
  | zero => cases member
  | succ n ih =>
    rw [returned, List.mem_append] at member
    obtain earlier | now := member
    · obtain ⟨k, before, inside⟩ := ih earlier
      exact ⟨k, by omega, inside⟩
    · refine ⟨n, by omega, ?_⟩
      simp only [pageAt, page] at now
      split at now
      · cases now
      · exact (mem_of_select now).1

/-- A position that is there at every page is returned by exactly one of them. -/
theorem returned_once (unique : ∀ k, ((rows k).map position).Nodup)
    (bound : highest position (rows 0) = some upper)
    (running : ∀ k < n, (cursorAt size position rows k).finished = false)
    (done : (cursorAt size position rows n).finished = true) {p : π} (low : p ≤ upper)
    (candidate : ∀ k < n, p ∈ (rows k).map position) :
    ((returned size position rows n).map position).count p = 1 := by
  obtain ⟨progress, -⟩ := progress_at unique bound n running
  have distinct : ((returned size position rows n).map position).Nodup :=
    progress.ascending.imp ne_of_lt
  obtain seen | ⟨unfinished, -⟩ := progress.kept p low candidate
  · exact List.count_eq_one_of_mem distinct seen
  · rw [done] at unfinished
    cases unfinished

theorem returned_covered {known : Finset π} (unique : ∀ k, ((rows k).map position).Nodup)
    (bound : highest position (rows 0) = some upper)
    (running : ∀ k < n, (cursorAt size position rows k).finished = false)
    (covered : ∀ k < n, ∀ p ∈ (rows k).map position, p ≤ upper → p ∈ known) :
    ∀ p ∈ (returned size position rows n).map position, p ∈ known := by
  intro p member
  obtain ⟨progress, -⟩ := progress_at unique bound n running
  obtain ⟨row, inside, same⟩ := List.mem_map.1 member
  subst same
  obtain ⟨k, before, origin⟩ := returned_from inside
  exact covered k before _ (List.mem_map_of_mem origin) (progress.below _ member)

/-- All pages but the last are full, so that the rows below the bound pay for them. -/
theorem pass_length_le (positive : 0 < size) {known : Finset π}
    (unique : ∀ k, ((rows k).map position).Nodup) (bound : highest position (rows 0) = some upper)
    (running : ∀ k < n, (cursorAt size position rows k).finished = false)
    (covered : ∀ k < n, ∀ p ∈ (rows k).map position, p ≤ upper → p ∈ known) :
    n ≤ known.card / size + 1 := by
  cases n with
  | zero => exact Nat.zero_le _
  | succ n =>
    have before : ∀ k < n, (cursorAt size position rows k).finished = false :=
      fun k earlier => running k (by omega)
    obtain ⟨progress, -⟩ := progress_at unique bound n before
    have known_ := returned_covered unique bound before fun k earlier => covered k (by omega)
    exact Nat.succ_le_succ (progress.pages_le (running n (by omega)) positive known_)

/-- A pass ends, whatever is added above its bound. -/
theorem pass_ends (positive : 0 < size) {known : Finset π}
    (unique : ∀ k, ((rows k).map position).Nodup) (bound : highest position (rows 0) = some upper)
    (covered : ∀ k, ∀ p ∈ (rows k).map position, p ≤ upper → p ∈ known) :
    ∃ n, 0 < n ∧ n ≤ known.card / size + 1 ∧
      (∀ k < n, (cursorAt size position rows k).finished = false) ∧
      (cursorAt size position rows n).finished = true := by
  by_cases ends : ∃ n, (cursorAt size position rows n).finished = true
  · have running : ∀ k < Nat.find ends, (cursorAt size position rows k).finished = false :=
      fun k earlier => Bool.eq_false_iff.2 (Nat.find_min ends earlier)
    refine ⟨Nat.find ends, ?_, ?_, running, Nat.find_spec ends⟩
    · by_contra none_
      have begun := Nat.find_spec ends
      rw [Nat.eq_zero_of_not_pos none_] at begun
      cases begun
    · exact pass_length_le positive unique bound running fun k _ => covered k
  · -- a pass that never ended would read more rows than there are
    have running : ∀ k, (cursorAt size position rows k).finished = false :=
      fun k => Bool.eq_false_iff.2 fun done => ends ⟨k, done⟩
    have short : known.card / size + 2 ≤ known.card / size + 1 :=
      pass_length_le positive unique bound (fun k _ => running k) fun k _ => covered k
    exact absurd short (Nat.not_succ_le_self _)

end Passes

end CodexRemote.Foundations.Keyset

import CodexRemote.Store.CompletionWork

/-! # Completion pages, exactly once

The pages of a source are keyset pages over its candidates.  What a pass returns follows
from that, however the tables change between its pages.
-/

namespace CodexRemote.Verified.CompletionPaging

open Foundations Store

/-! ## Candidates -/

theorem firstOfLane_sublist {α : Type} (same : α → α → Bool) (seen rows : List α) :
    (firstOfLane same seen rows).Sublist rows := by
  induction rows generalizing seen with
  | nil => exact .slnil
  | cons row rows ih =>
    rw [firstOfLane]
    split
    · exact (ih seen).cons row
    · exact (ih (row :: seen)).cons_cons row

section Pages

variable {τ : Type} [LinearOrder τ] [Zero τ] {parts : String → ReceiptParts} {source : Source}
  {runtime : String} {generation : Int}

theorem candidates_unique {db : CompletionDb τ}
    (distinct : ((source.select db runtime generation).map SourceRow.position).Nodup) :
    ((source.candidates parts db runtime generation).map SourceRow.position).Nodup := by
  have eligible : (((source.select db runtime generation).filter
      (source.eligible parts db)).map SourceRow.position).Nodup :=
    List.Nodup.sublist (List.filter_sublist.map _) distinct
  have ranked : ((((source.select db runtime generation).filter
      (source.eligible parts db)).insertionSort fun a b => a.position ≤ b.position).map
        SourceRow.position).Nodup :=
    ((List.perm_insertionSort _ _).map SourceRow.position).nodup_iff.2 eligible
  apply List.Nodup.sublist _ ranked
  apply List.Sublist.map
  exact List.filter_sublist.trans (List.filter_sublist.trans (firstOfLane_sublist ..))

/-- The code's page is the keyset page over the candidates. -/
theorem pageIn_keyset (db : CompletionDb τ) (cursor : Cursor τ) :
    (pageIn parts db source cursor runtime generation).2 =
        (Keyset.page pageSize SourceRow.position (source.candidates parts db runtime generation)
          cursor).2 ∧
      (pageIn parts db source cursor runtime generation).1.entries =
        (Keyset.page pageSize SourceRow.position (source.candidates parts db runtime generation)
          cursor).1.map (Entry.read source) := by
  simp only [pageIn, Keyset.page, Keyset.highest]
  cases cursor.upper.or
      ((source.candidates parts db runtime generation).map SourceRow.position).max? with
  | none => exact ⟨rfl, rfl⟩
  | some upper =>
    constructor
    · simp only [List.getLast?_map, List.length_map, Option.map_map]
      rfl
    · rfl

end Pages

/-! ## Passes -/

variable {n : Nat}

section Passes

variable {τ : Type} [LinearOrder τ] [Zero τ] (parts : String → ReceiptParts) (source : Source)
  (runtime : String) (generation : Int)

/-- The cursor before page `n` of a pass that finds the database as `dbs n` there. -/
def passCursor (dbs : Nat → CompletionDb τ) : Nat → Cursor τ
  | 0 => .start
  | n + 1 => (pageIn parts (dbs n) source (passCursor dbs n) runtime generation).2

/-- The entries of the first `n` pages. -/
def passEntries (dbs : Nat → CompletionDb τ) : Nat → List (Entry τ)
  | 0 => []
  | n + 1 => passEntries dbs n ++
      (pageIn parts (dbs n) source (passCursor parts source runtime generation dbs n) runtime
        generation).1.entries

/-- A pass that ends with its `n`-th page. -/
structure EndsAfter (dbs : Nat → CompletionDb τ) (n : Nat) : Prop where
  begun : 0 < n
  running : ∀ k < n, (passCursor parts source runtime generation dbs k).finished = false
  finished : (passCursor parts source runtime generation dbs n).finished = true

/-- A position up to the bound that the first page fixes. -/
def WithinPass (dbs : Nat → CompletionDb τ) (p : Position τ) : Prop :=
  ∃ upper, (passCursor parts source runtime generation dbs 1).upper = some upper ∧ p ≤ upper

/-- A row is known by its position: whatever else is updated in it, it stays that row. -/
def candidatePositions (db : CompletionDb τ) : List (Position τ) :=
  (source.candidates parts db runtime generation).map SourceRow.position

variable {parts source runtime generation} {dbs : Nat → CompletionDb τ}

theorem passCursor_keyset (n : Nat) :
    passCursor parts source runtime generation dbs n =
      Keyset.cursorAt pageSize SourceRow.position
        (fun k => source.candidates parts (dbs k) runtime generation) n := by
  induction n with
  | zero => rfl
  | succ n ih => rw [passCursor, (pageIn_keyset _ _).1, ih, Keyset.cursorAt]

theorem passEntries_positions (n : Nat) :
    (passEntries parts source runtime generation dbs n).map Entry.position =
      (Keyset.returned pageSize SourceRow.position
        (fun k => source.candidates parts (dbs k) runtime generation) n).map
          SourceRow.position := by
  induction n with
  | zero => rfl
  | succ n ih =>
    have read : Entry.position ∘ Entry.read source = (SourceRow.position : SourceRow τ → _) := rfl
    rw [passEntries, Keyset.returned, List.map_append, List.map_append, ih,
      (pageIn_keyset _ _).2, List.map_map, read, passCursor_keyset, Keyset.pageAt]

/-- Before the first page has fixed a bound there is one if and only if there are candidates. -/
theorem first_upper :
    (passCursor parts source runtime generation dbs 1).upper =
      Keyset.highest SourceRow.position (source.candidates parts (dbs 0) runtime generation) := by
  rw [passCursor_keyset, Keyset.cursorAt, Keyset.page, Keyset.cursorAt]
  cases highest : Keyset.highest SourceRow.position
      (source.candidates parts (dbs 0) runtime generation) with
  | none => simp [Keyset.Cursor.start]
  | some upper => simp [Keyset.Cursor.start]

theorem EndsAfter.iff_keyset (n : Nat) :
    EndsAfter parts source runtime generation dbs n ↔ 0 < n ∧
      (∀ k < n, (Keyset.cursorAt pageSize SourceRow.position
        (fun k => source.candidates parts (dbs k) runtime generation) k).finished = false) ∧
      (Keyset.cursorAt pageSize SourceRow.position
        (fun k => source.candidates parts (dbs k) runtime generation) n).finished = true := by
  constructor
  · intro ends
    refine ⟨ends.begun, fun k before => ?_, ?_⟩
    · rw [← passCursor_keyset]
      exact ends.running k before
    · rw [← passCursor_keyset]
      exact ends.finished
  · intro ends
    constructor
    · exact ends.1
    · intro k before
      rw [passCursor_keyset]
      exact ends.2.1 k before
    · rw [passCursor_keyset]
      exact ends.2.2

/-- A pass that finds no candidate at first ends with its first page. -/
theorem ends_at_once (empty : Keyset.highest SourceRow.position
    (source.candidates parts (dbs 0) runtime generation) = none) :
    EndsAfter parts source runtime generation dbs 1 ∧
      passEntries parts source runtime generation dbs 1 = [] := by
  have nothing := @Keyset.empty_pass _ _ _ pageSize SourceRow.position
    (fun k => source.candidates parts (dbs k) runtime generation) empty
  constructor
  · rw [EndsAfter.iff_keyset]
    refine ⟨by decide, fun k before => ?_, nothing.1⟩
    obtain rfl : k = 0 := by omega
    rfl
  · have none_ := @passEntries_positions τ _ _ parts source runtime generation dbs 1
    rw [nothing.2] at none_
    exact List.map_eq_nil_iff.1 none_

theorem EndsAfter.unique {m : Nat} (left : EndsAfter parts source runtime generation dbs m)
    (right : EndsAfter parts source runtime generation dbs n) : m = n := by
  have not_less : ∀ {a b : Nat}, EndsAfter parts source runtime generation dbs a →
      EndsAfter parts source runtime generation dbs b → ¬ a < b := by
    intro a b first second less
    have running := second.running a less
    rw [first.finished] at running
    cases running
  have up := not_less left right
  have down := not_less right left
  omega

section Distinct

variable (distinct : ∀ k,
  ((source.select (dbs k) runtime generation).map SourceRow.position).Nodup)

include distinct

theorem EndsAfter.ascending (ends : EndsAfter parts source runtime generation dbs n) :
    ((passEntries parts source runtime generation dbs n).map Entry.position).Pairwise (· < ·) := by
  cases highest : Keyset.highest SourceRow.position
      (source.candidates parts (dbs 0) runtime generation) with
  | none =>
    obtain ⟨at_once, nothing⟩ := ends_at_once highest
    rw [ends.unique at_once, nothing]
    exact .nil
  | some upper =>
    rw [passEntries_positions]
    exact (Keyset.progress_at (fun k => candidates_unique (distinct k)) highest n
      ((EndsAfter.iff_keyset n).1 ends).2.1).1.ascending

theorem EndsAfter.once (ends : EndsAfter parts source runtime generation dbs n)
    {p : Position τ} (within_ : WithinPass parts source runtime generation dbs p)
    (candidate : ∀ k < n, p ∈ candidatePositions parts source runtime generation (dbs k)) :
    ((passEntries parts source runtime generation dbs n).map Entry.position).count p = 1 := by
  obtain ⟨upper, fixed, low⟩ := within_
  rw [first_upper] at fixed
  obtain ⟨-, running, done⟩ := (EndsAfter.iff_keyset n).1 ends
  rw [passEntries_positions]
  exact Keyset.returned_once (fun k => candidates_unique (distinct k)) fixed running done low
    candidate

theorem EndsAfter.short (ends : EndsAfter parts source runtime generation dbs n)
    {known : Finset (Position τ)} (covered : ∀ k < n,
      ∀ p ∈ candidatePositions parts source runtime generation (dbs k),
        WithinPass parts source runtime generation dbs p → p ∈ known) :
    n ≤ known.card / pageSize + 1 := by
  cases highest : Keyset.highest SourceRow.position
      (source.candidates parts (dbs 0) runtime generation) with
  | none =>
    rw [ends.unique (ends_at_once highest).1]
    exact Nat.succ_le_succ (Nat.zero_le _)
  | some upper =>
    have fixed := first_upper.trans highest
    exact Keyset.pass_length_le (by decide) (fun k => candidates_unique (distinct k)) highest
      ((EndsAfter.iff_keyset n).1 ends).2.1
      fun k before p member low => covered k before p member ⟨upper, fixed, low⟩

theorem pass_ends {known : Finset (Position τ)} (covered : ∀ k,
      ∀ p ∈ candidatePositions parts source runtime generation (dbs k),
        WithinPass parts source runtime generation dbs p → p ∈ known) :
    ∃ n, n ≤ known.card / pageSize + 1 ∧ EndsAfter parts source runtime generation dbs n := by
  cases highest : Keyset.highest SourceRow.position
      (source.candidates parts (dbs 0) runtime generation) with
  | none => exact ⟨1, Nat.succ_le_succ (Nat.zero_le _), (ends_at_once highest).1⟩
  | some upper =>
    have fixed := first_upper.trans highest
    obtain ⟨n, begun, few, running, done⟩ := @Keyset.pass_ends _ _ _ pageSize
      SourceRow.position (fun k => source.candidates parts (dbs k) runtime generation) upper
      (by decide) known (fun k => candidates_unique (distinct k)) highest
      fun k p member low => covered k p member ⟨upper, fixed, low⟩
    exact ⟨n, few, (EndsAfter.iff_keyset n).2 ⟨begun, running, done⟩⟩

/-- A pass returns every position that is a candidate at each of its pages exactly once, in
ascending order, and takes no more pages than the rows below its bound pay for. -/
theorem completion_paging_exactly_once :
    (∀ pages, EndsAfter parts source runtime generation dbs pages →
      ((passEntries parts source runtime generation dbs pages).map Entry.position).Pairwise
          (· < ·) ∧
      (∀ p, WithinPass parts source runtime generation dbs p →
        (∀ k < pages, p ∈ candidatePositions parts source runtime generation (dbs k)) →
        ((passEntries parts source runtime generation dbs pages).map Entry.position).count p =
          1) ∧
      ∀ known : Finset (Position τ),
        (∀ k < pages, ∀ p ∈ candidatePositions parts source runtime generation (dbs k),
          WithinPass parts source runtime generation dbs p → p ∈ known) →
        pages ≤ known.card / pageSize + 1) ∧
    ∀ known : Finset (Position τ),
      (∀ k, ∀ p ∈ candidatePositions parts source runtime generation (dbs k),
        WithinPass parts source runtime generation dbs p → p ∈ known) →
      ∃ pages ≤ known.card / pageSize + 1,
        EndsAfter parts source runtime generation dbs pages := by
  constructor
  · intro pages ends
    exact ⟨ends.ascending distinct, fun p within_ candidate => ends.once distinct within_ candidate,
      fun known covered => ends.short distinct covered⟩
  · intro known covered
    exact pass_ends distinct covered

end Distinct

end Passes

/-- Progress of 33 turns, each in a room of its own; after the first page one turn is done. -/
def exampleDb (page : Nat) : CompletionDb Int where
  liveObserved := []
  liveQueue := []
  liveObligations := []
  liveCommentary := []
  liveGoals := ((List.range 33).drop page).map fun n : Nat =>
    ⟨(n : Int) + 1, toString n, "turn", (n : Int), "body"⟩
  liveStartNotices := []
  liveQuestions := []
  liveOutbox := []
  commentary := []
  questions := []
  receipts := []
  journal := []
  finalRecoveries := []

def exampleParts (_ : String) : ReceiptParts := ⟨none, none, none⟩

theorem examplePositions (page : Nat) :
    ((Source.goal.select (exampleDb page) "runtime" 1).map SourceRow.position).Nodup := by
  have whole : ((List.range 33).map fun n : Nat => (⟨0, (n : Int) + 1, ""⟩ : Position Int)).Nodup := by
    decide
  have part : ((Source.goal.select (exampleDb page) "runtime" 1).map SourceRow.position) =
      ((List.range 33).map fun n : Nat => (⟨0, (n : Int) + 1, ""⟩ : Position Int)).drop page := by
    simp only [Source.select, exampleDb, List.map_map, ← List.map_drop]
    rfl
  rw [part]
  exact List.Nodup.sublist (List.drop_sublist _ _) whole

theorem example_pass :
    EndsAfter exampleParts .goal "runtime" 1 exampleDb 2 ∧
      ((passEntries exampleParts .goal "runtime" 1 exampleDb 2).map Entry.position).count
        ⟨0, 33, ""⟩ = 1 := by
  have ends : EndsAfter exampleParts .goal "runtime" 1 exampleDb 2 := by
    constructor
    · decide
    · decide +kernel
    · decide +kernel
  have bound : (passCursor exampleParts .goal "runtime" 1 exampleDb 1).upper =
      some ⟨0, 33, ""⟩ := by
    decide +kernel
  have candidate : ∀ k < 2,
      ⟨0, 33, ""⟩ ∈ candidatePositions exampleParts .goal "runtime" 1 (exampleDb k) := by
    decide +kernel
  exact ⟨ends, ((completion_paging_exactly_once examplePositions).1 2 ends).2.1 _
    ⟨_, bound, le_refl _⟩ candidate⟩

end CodexRemote.Verified.CompletionPaging

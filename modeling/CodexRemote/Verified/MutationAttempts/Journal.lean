import CodexRemote.Foundations.Runs
import CodexRemote.Store.ResumeRecovery

/-! # What the operations do to the prepared attempts -/

namespace CodexRemote.Verified.MutationAttempts

open Foundations Store Store.MutationAttempts

section

variable {archive : AttemptArchive} {journal next : MutationJournal} {row : MutationAttempt}
  {runtime : String} {target : Option String} {named : MutationAttempt → Bool}
  {state : AttemptState} {now : Rat}

theorem mem_prepared :
    row ∈ journal.preparedAttempts ↔ row ∈ journal.attempts.rows ∧ row.prepared := by
  simp [MutationJournal.preparedAttempts, Table.select]

theorem ownerIsCurrent_ok : ownerIsCurrent runtime journal = .ok () ↔
    journal.runtime = some runtime := by
  simp only [ownerIsCurrent]
  split
  · next other => simp [other]
  · next same => simpa using same

theorem unblocked_ok : unblocked target journal = .ok () ↔
    ∀ row ∈ journal.attempts.rows, excludes target row = false := by
  have order := (journal.attempts.select (excludes target)).mergeSort_perm
    fun a b => a.sequence ≤ b.sequence
  simp only [unblocked]
  cases first : ((journal.attempts.select (excludes target)).mergeSort
      fun a b => a.sequence ≤ b.sequence).head? with
  | some held =>
    have there := order.mem_iff.1 (List.mem_of_mem_head? first)
    simp only [reduceCtorEq, false_iff, not_forall]
    obtain ⟨inside, excluded⟩ := List.mem_filter.1 there
    exact ⟨held, inside, by simp [excluded]⟩
  | none =>
    rw [List.head?_eq_none_iff] at first
    rw [first] at order
    have none := order.symm.eq_nil
    simp only [true_iff]
    simpa [Table.select] using none

/-! ## Rows -/

theorem append_rows (attempt : MutationAttempt) : (journal.append attempt).attempts.rows =
    journal.attempts.rows ++ [{ attempt with sequence := journal.lastSequence + 1 }] := by
  have free : journal.lastSequence + 1 ∉ journal.attempts.rows.map MutationAttempt.sequence := by
    intro taken
    obtain ⟨row, there, same⟩ := List.mem_map.1 taken
    have bound := journal.bounded row there
    omega
  simp only [MutationJournal.append, Table.insertOrIgnore]
  split
  · next taken => exact absurd taken free
  · rfl

theorem mem_append_prepared {attempt : MutationAttempt} (prepared : attempt.prepared) :
    row ∈ (journal.append attempt).preparedAttempts ↔ row ∈ journal.preparedAttempts ∨
      row = { attempt with sequence := journal.lastSequence + 1 } := by
  rw [mem_prepared, mem_prepared, append_rows, List.mem_append, List.mem_singleton]
  constructor
  · intro inside
    obtain ⟨older | new, kept⟩ := inside
    · exact Or.inl ⟨older, kept⟩
    · exact Or.inr new
  · intro inside
    obtain ⟨older, kept⟩ | new := inside
    · exact ⟨Or.inl older, kept⟩
    · refine ⟨Or.inr new, ?_⟩
      rw [new]
      exact prepared

theorem mem_settle_prepared (settled : state ≠ .prepared) :
    row ∈ (journal.settle named state now).preparedAttempts ↔
      row ∈ journal.preparedAttempts ∧ named row = false := by
  rw [mem_prepared, mem_prepared]
  constructor
  · intro inside
    obtain ⟨there, prepared⟩ := inside
    obtain ⟨old, before, same⟩ := List.mem_map.1 there
    cases chosen : named old with
    | true =>
      rw [chosen, if_pos rfl] at same
      rw [← same] at prepared
      exact absurd (of_decide_eq_true prepared) settled
    | false =>
      rw [chosen] at same
      cases same
      exact ⟨⟨before, prepared⟩, chosen⟩
  · intro inside
    obtain ⟨⟨there, prepared⟩, unnamed⟩ := inside
    refine ⟨List.mem_map.2 ⟨row, there, ?_⟩, prepared⟩
    rw [unnamed]
    rfl

theorem mem_delete {gone : MutationAttempt → Bool} :
    row ∈ (journal.delete gone).attempts.rows ↔ row ∈ journal.attempts.rows ∧ gone row = false := by
  simp [MutationJournal.delete, Table.delete]

/-- Pruning removes definite history only. -/
theorem mem_prune_prepared :
    row ∈ (prune archive journal).preparedAttempts ↔ row ∈ journal.preparedAttempts := by
  rw [mem_prepared, mem_prepared, prune, mem_delete]
  constructor
  · intro inside
    exact ⟨inside.1.1, inside.2⟩
  · intro inside
    refine ⟨⟨inside.1, ?_⟩, inside.2⟩
    have unexpired : (expired journal).any (fun old => old.sequence = row.sequence) = false := by
      rw [List.any_eq_false]
      intro old drop
      have sorted := List.mem_of_mem_drop drop
      obtain ⟨there, definite⟩ := List.mem_filter.1 (List.mem_mergeSort.1 sorted)
      rw [decide_eq_true_eq]
      intro same
      rw [Table.eq_of_key there inside.1 same, inside.2] at definite
      cases definite
    rw [unexpired]
    rfl

/-- A row after a finish or a recovery has the identity of a row before. -/
theorem mem_settle (there : row ∈ (journal.settle named state now).attempts.rows) :
    ∃ old ∈ journal.attempts.rows, row.attemptId = old.attemptId ∧
      row.runtimeId = old.runtimeId ∧ row.sequence = old.sequence := by
  obtain ⟨old, before, same⟩ := List.mem_map.1 there
  refine ⟨old, before, ?_⟩
  rw [← same]
  split <;> exact ⟨rfl, rfl, rfl⟩

/-! ## Operations -/

theorem activate_ok (ran : activate runtime journal = .ok next) :
    next.runtime = some runtime ∧ next.attempts = journal.attempts := by
  simp only [activate] at ran
  obtain ⟨_, ran⟩ := guard_ok.1 ran
  cases ran
  exact ⟨rfl, rfl⟩

theorem insert_ok (ran : Store.MutationAttempts.insert row journal = .ok next) :
    (∀ other ∈ journal.attempts.rows, other.attemptId ≠ row.attemptId) ∧
      next = journal.append row := by
  simp only [Store.MutationAttempts.insert] at ran
  obtain ⟨free, ran⟩ := guard_ok.1 ran
  obtain ⟨_, ran⟩ := guard_ok.1 ran
  cases ran
  exact ⟨by simpa [Table.contains] using free, rfl⟩

/-- What a begin has checked, and the row that it adds. -/
structure Begun (attempt : NewAttempt) (journal next : MutationJournal) : Prop where
  current : journal.runtime = some attempt.runtimeId
  alone : ∀ row ∈ journal.attempts.rows, excludes attempt.scope row = false
  fresh : ∀ row ∈ journal.attempts.rows, row.attemptId ≠ attempt.attemptId
  row : ∃ sha256 now, next = journal.append (attempt.row sha256 now)

theorem beginChecked_ok {digest : Json → String} {check : MutationJournal → Except StoreError Unit}
    {attempt : NewAttempt}
    (ran : beginChecked archive digest check attempt now journal = .ok next) :
    Begun attempt journal next ∧ check journal = .ok () ∧ check next = .ok () := by
  simp only [beginChecked] at ran
  obtain ⟨_, ran⟩ := guard_ok.1 ran
  obtain ⟨_, current, ran⟩ := bind_ok.1 ran
  obtain ⟨_, checked, ran⟩ := bind_ok.1 ran
  obtain ⟨_, alone, ran⟩ := bind_ok.1 ran
  obtain ⟨_, ran⟩ := guard_ok.1 ran
  obtain ⟨inserted, added, ran⟩ := bind_ok.1 ran
  obtain ⟨_, _, ran⟩ := bind_ok.1 ran
  obtain ⟨_, ran⟩ := guard_ok.1 ran
  obtain ⟨_, again, ran⟩ := bind_ok.1 ran
  cases ran
  obtain ⟨fresh, same⟩ := insert_ok added
  exact ⟨⟨ownerIsCurrent_ok.1 current, unblocked_ok.1 alone, fresh, _, _, same⟩, checked, again⟩

/-- The one prepared attempt that a finish settles. -/
structure Finished (completion : Completion) (journal next : MutationJournal) : Prop where
  current : journal.runtime = some completion.runtimeId
  runtime : next.runtime = journal.runtime
  one : ∃ row ∈ journal.preparedAttempts, completion.names row ∧
    row ∉ next.preparedAttempts
  kept : ∀ row ∈ journal.preparedAttempts, completion.names row = false →
    row ∈ next.preparedAttempts
  prepared : ∀ row ∈ next.preparedAttempts, row ∈ journal.preparedAttempts
  rows : ∀ row ∈ next.attempts.rows, ∃ old ∈ journal.attempts.rows,
    row.attemptId = old.attemptId ∧ row.runtimeId = old.runtimeId ∧ row.sequence = old.sequence

theorem settledState_ok {outcome : String} (settles : settledState outcome = some state) :
    state ≠ .prepared := by
  simp only [settledState] at settles
  split_ifs at settles <;> cases settles <;> decide

theorem finish_ok {completion : Completion}
    (ran : finish archive completion now journal = .ok next) : Finished completion journal next := by
  simp only [finish] at ran
  split at ran
  · cases ran
  · next state settles =>
    have settled := settledState_ok settles
    obtain ⟨_, current, ran⟩ := bind_ok.1 ran
    obtain ⟨counted, ran⟩ := guard_ok.1 ran
    obtain ⟨_, _, ran⟩ := bind_ok.1 ran
    obtain ⟨_, ran⟩ := guard_ok.1 ran
    cases ran
    have some : 0 < journal.attempts.count fun row =>
        completion.names row && row.prepared && !archive.frozen row := by
      have one := not_ne_iff.1 counted
      omega
    obtain ⟨row, there, named⟩ := List.countP_pos_iff.1 some
    have names : completion.names row = true ∧ row.prepared = true := by
      simp only [Bool.and_eq_true] at named
      exact named.1
    constructor
    · exact ownerIsCurrent_ok.1 current
    · rfl
    · refine ⟨row, mem_prepared.2 ⟨there, names.2⟩, names.1, ?_⟩
      rw [mem_prune_prepared, mem_settle_prepared settled]
      intro kept
      rw [named] at kept
      cases kept.2
    · intro other prepared unnamed
      rw [mem_prune_prepared, mem_settle_prepared settled, unnamed]
      exact ⟨prepared, rfl⟩
    · intro other prepared
      rw [mem_prune_prepared, mem_settle_prepared settled] at prepared
      exact prepared.1
    · intro other inside
      exact mem_settle (mem_delete.1 inside).1

/-- The attempt of an older runtime that a recovery retires. -/
structure Recovered (candidate : ResumeCandidate) (journal next : MutationJournal) : Prop where
  row : candidate.original ∈ journal.preparedAttempts
  resume : candidate.original.method = "thread/resume" ∧ candidate.original.isScoped = true
  current : ∃ runtime, journal.runtime = some runtime ∧ runtime ≠ candidate.original.runtimeId
  runtime : next.runtime = journal.runtime
  gone : ∀ row ∈ journal.attempts.rows, row.attemptId ≠ candidate.original.attemptId →
    row ∈ next.attempts.rows
  rows : ∀ row ∈ next.attempts.rows, row ∈ journal.attempts.rows

theorem recover_ok {ρ : Type} {hooks : QueueHooks ρ} {unheld : String → Except StoreError Unit}
    {resident : String} {generation : Int} {candidate : ResumeCandidate} {metadata latest : Json}
    {recoveries later : Recoveries} {db after : QueueDb ρ} {cleared : Nat}
    (ran : recover archive hooks unheld runtime resident generation candidate metadata latest now
      recoveries journal db = .ok (cleared, later, next, after)) :
    Recovered candidate journal next := by
  simp only [recover] at ran
  obtain ⟨_, ran⟩ := guard_ok.1 ran
  obtain ⟨exact, ran⟩ := guard_ok.1 ran
  have old : candidate.original.runtimeId ≠ runtime ∧
      candidate.original.method = "thread/resume" ∧ candidate.original.prepared = true ∧
      candidate.original.isScoped = true ∧
      candidate.original.attemptId = candidate.attemptId := by
    simp only [ResumeCandidate.exact, Bool.not_eq_true', Bool.not_eq_false, Bool.and_eq_true,
      decide_eq_true_eq] at exact
    exact ⟨exact.1.1.1.1.1.1, exact.1.1.1.1.2, exact.1.1.1.2, exact.1.1.2, exact.2⟩
  obtain ⟨_, current, ran⟩ := bind_ok.1 ran
  obtain ⟨found, ran⟩ := guard_ok.1 ran
  obtain ⟨_, _, ran⟩ := bind_ok.1 ran
  obtain ⟨_, ran⟩ := guard_ok.1 ran
  split at ran
  · cases ran
  · split at ran
    · cases ran
    · obtain ⟨_, _, ran⟩ := bind_ok.1 ran
      obtain ⟨_, _, ran⟩ := bind_ok.1 ran
      cases ran
      have there := List.mem_of_find?_eq_some (not_ne_iff.1 found)
      constructor
      · exact mem_prepared.2 ⟨there, old.2.2.1⟩
      · exact ⟨old.2.1, old.2.2.2.1⟩
      · exact ⟨runtime, ownerIsCurrent_ok.1 current, old.1.symm⟩
      · rfl
      · intro row inside other
        rw [old.2.2.2.2] at other
        rw [mem_delete]
        exact ⟨inside, by simp [other]⟩
      · intro row inside
        exact (mem_delete.1 inside).1

end

end CodexRemote.Verified.MutationAttempts

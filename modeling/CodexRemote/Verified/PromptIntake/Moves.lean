import CodexRemote.Verified.Queue.Inserts

/-! # What the intake operations do

One inversion theorem for each operation on a prompt intake.
-/

namespace CodexRemote.Verified.PromptIntake

open Foundations Store Verified.Queue

variable {ρ : Type}

/-! ## One row -/

/-- The intake of this id was found as described and changed, and no other row with it. -/
structure IntakeUpdate (db next : QueueDb ρ) (jobId : String) (row later : PromptIntake) : Prop where
  found : db.intakes.find jobId = some row
  changed : next.intakes.find jobId = some later
  others : ∀ other, other ≠ jobId → next.intakes.find other = db.intakes.find other
  jobs : next.jobs = db.jobs
  cancellations : next.cancellations = db.cancellations

variable {db next : QueueDb ρ} {hooks : QueueHooks ρ} {now : Timestamp} {claim : PromptIntakeClaim}

theorem updateIntakes_ok {condition : PromptIntake → Bool} {assign : PromptIntake → PromptIntake}
    {keeps : ∀ r, (assign r).jobId = r.jobId} {changed : Nat}
    (result : updateIntakes hooks db condition assign keeps = .ok (changed, next)) :
    changed = db.intakes.count (fun r => condition r && !db.archive.frozen .promptIntakes r.jobId) ∧
      next = { db with
        intakes := db.intakes.update
          (fun r => condition r && !db.archive.frozen .promptIntakes r.jobId) assign keeps } := by
  unfold updateIntakes at result
  simp only at result
  split at result
  · cases result
  · simp only [Except.ok.injEq, Prod.mk.injEq] at result
    exact ⟨result.1.symm, result.2.symm⟩

/-- An update whose condition names one intake changes nothing, or the row of that intake. -/
theorem updateIntake_ok {condition : PromptIntake → Bool} {assign : PromptIntake → PromptIntake}
    {keeps : ∀ r, (assign r).jobId = r.jobId} {changed : Nat} {jobId : String}
    (named : ∀ r, condition r = true → r.jobId = jobId)
    (result : updateIntakes hooks db condition assign keeps = .ok (changed, next)) :
    (changed = 0 ∧ next = db) ∨ (changed = 1 ∧ ∃ row, condition row = true ∧
      IntakeUpdate db next jobId row (assign row)) := by
  obtain ⟨count, final⟩ := updateIntakes_ok result
  have selects : ∀ r : PromptIntake,
      (condition r && !db.archive.frozen .promptIntakes r.jobId) = true → r.jobId = jobId := by
    intro r selected
    simp only [Bool.and_eq_true] at selected
    exact named r selected.1
  rcases Table.update_keyed selects with ⟨zero, same⟩ | ⟨one, row, found, selected, after, others⟩
  · left
    refine ⟨count.trans zero, ?_⟩
    rw [final, same]
  · right
    simp only [Bool.and_eq_true] at selected
    refine ⟨count.trans one, row, selected.1, ?_⟩
    rw [final]
    exact ⟨found, after, others, rfl, rfl⟩

theorem claimOf_ok {updated : Nat} {jobId token : String}
    {answer : Option PromptIntakeClaim} (result : claimOf updated db jobId token = .ok (answer, next)) :
    next = db ∧ ((updated ≠ 1 ∧ answer = none) ∨
      (updated = 1 ∧ ∃ intake, db.intakes.find jobId = some intake ∧ answer = some ⟨intake, token⟩)) := by
  unfold claimOf at result
  rcases ite_ok.1 result with ⟨one, result⟩ | ⟨other, result⟩
  · obtain ⟨intake, found, result⟩ := bind_ok.1 result
    cases result
    refine ⟨rfl, Or.inr ⟨by simpa using one, intake, ?_, rfl⟩⟩
    unfold changedIntake at found
    split at found
    · cases found
    · next row present => rw [present, Except.ok.inj found]
  · cases result
    exact ⟨rfl, Or.inl ⟨by simpa using other, rfl⟩⟩

theorem validateLease_ok {expires : Timestamp} {lease : Rat × Rat}
    (result : validateLease now expires = .ok lease) :
    now = some lease.1 ∧ expires = some lease.2 ∧ lease.1 < lease.2 := by
  unfold validateLease at result
  split at result
  · next start finish =>
    rcases ite_ok.1 result with ⟨_, result⟩ | ⟨later, result⟩
    · cases result
    · cases result
      exact ⟨rfl, rfl, Rat.not_le.1 later⟩
  · cases result

/-! ## Leases -/

theorem tryClaim_spec {jobId token : String} {expires : Timestamp}
    {answer : Option PromptIntakeClaim}
    (call : tryClaimPromptIntake hooks jobId now expires token db = (.ok answer, next)) :
    (answer = none ∧ next = db) ∨ ∃ start finish row, now = some start ∧ start < finish ∧
      row.claimExpiresAt ≤ start ∧ answer = some ⟨row.claim token finish start, token⟩ ∧
      IntakeUpdate db next jobId row (row.claim token finish start) := by
  have result := commit_ok call
  unfold tryClaimIn at result
  obtain ⟨lease, valid, result⟩ := bind_ok.1 result
  obtain ⟨start, finish⟩ := lease
  obtain ⟨nowIs, _, later⟩ := validateLease_ok valid
  rcases ite_ok.1 result with ⟨_, result⟩ | ⟨_, result⟩
  · cases result
    exact Or.inl ⟨rfl, rfl⟩
  · rcases ite_ok.1 result with ⟨_, result⟩ | ⟨_, result⟩
    · cases result
      exact Or.inl ⟨rfl, rfl⟩
    · obtain ⟨⟨updated, middle⟩, update, result⟩ := bind_ok.1 result
      obtain ⟨same, outcome⟩ := claimOf_ok result
      subst same
      have named : ∀ r : PromptIntake, (r.jobId == jobId && claimableAt db start r) = true →
          r.jobId = jobId := by
        intro r selected
        simp only [Bool.and_eq_true, beq_iff_eq] at selected
        exact selected.1
      rcases updateIntake_ok named update with ⟨zero, rfl⟩ | ⟨one, row, selected, changed⟩
      · rcases outcome with ⟨_, none_⟩ | ⟨one, _⟩
        · exact Or.inl ⟨none_, rfl⟩
        · cases zero.symm.trans one
      · rcases outcome with ⟨other, _⟩ | ⟨_, intake, present, some_⟩
        · exact absurd one other
        · right
          simp only [claimableAt, Bool.and_eq_true, decide_eq_true_eq] at selected
          rw [changed.changed, Option.some.injEq] at present
          refine ⟨start, finish, row, nowIs, later, selected.2.1.2, ?_, changed⟩
          rw [some_, present]

theorem renew_spec {expires : Timestamp} {answer : Option PromptIntakeClaim}
    (call : renewPromptIntakeClaimIfCurrent hooks claim now expires db = (.ok answer, next)) :
    (answer = none ∧ next = db) ∨ ∃ start finish row, now = some start ∧
      row.claimToken = some claim.claimToken ∧ start < row.claimExpiresAt ∧
      row.claimExpiresAt < finish ∧ answer = some ⟨row.renew finish start, claim.claimToken⟩ ∧
      IntakeUpdate db next claim.intake.jobId row (row.renew finish start) := by
  have result := commit_ok call
  unfold renewIn at result
  obtain ⟨lease, valid, result⟩ := bind_ok.1 result
  obtain ⟨start, finish⟩ := lease
  obtain ⟨nowIs, _, _⟩ := validateLease_ok valid
  obtain ⟨⟨updated, middle⟩, update, result⟩ := bind_ok.1 result
  obtain ⟨same, outcome⟩ := claimOf_ok result
  subst same
  have named : ∀ r : PromptIntake, (r.jobId == claim.intake.jobId &&
      r.claimToken == some claim.claimToken && r.claimExpiresAt > start &&
      r.claimExpiresAt < finish) = true → r.jobId = claim.intake.jobId := by
    intro r selected
    simp only [Bool.and_eq_true, beq_iff_eq] at selected
    exact selected.1.1.1
  rcases updateIntake_ok named update with ⟨zero, rfl⟩ | ⟨one, row, selected, changed⟩
  · rcases outcome with ⟨_, none_⟩ | ⟨one, _⟩
    · exact Or.inl ⟨none_, rfl⟩
    · cases zero.symm.trans one
  · rcases outcome with ⟨other, _⟩ | ⟨_, intake, present, some_⟩
    · exact absurd one other
    · right
      simp only [Bool.and_eq_true, beq_iff_eq, decide_eq_true_eq] at selected
      rw [changed.changed, Option.some.injEq] at present
      refine ⟨start, finish, row, nowIs, selected.1.1.2, selected.1.2, selected.2, ?_, changed⟩
      rw [some_, present]

theorem recordFailure_spec {error : String}
    {retryAfter : Timestamp} {observedAt : Rat} {answer : Option PromptIntake}
    (call : recordPromptIntakeFailureIfClaimed hooks claim error retryAfter observedAt db =
      (.ok answer, next)) :
    (answer = none ∧ next = db) ∨ ∃ retry row, row.claimToken = some claim.claimToken ∧
      answer = some (row.fail (intakeBoundedError error) retry observedAt) ∧
      IntakeUpdate db next claim.intake.jobId row
        (row.fail (intakeBoundedError error) retry observedAt) := by
  have result := commit_ok call
  unfold recordIntakeFailureIn at result
  split at result
  · cases result
  · next retry =>
    obtain ⟨⟨updated, middle⟩, update, result⟩ := bind_ok.1 result
    simp only [Except.ok.injEq, Prod.mk.injEq] at result
    obtain ⟨answered, rfl⟩ := result
    have named : ∀ r : PromptIntake, (r.jobId == claim.intake.jobId &&
        r.claimToken == some claim.claimToken) = true → r.jobId = claim.intake.jobId := by
      intro r selected
      simp only [Bool.and_eq_true, beq_iff_eq] at selected
      exact selected.1
    rcases updateIntake_ok named update with ⟨zero, rfl⟩ | ⟨one, row, selected, changed⟩
    · exact Or.inl ⟨by rw [← answered, zero]; rfl, rfl⟩
    · right
      simp only [Bool.and_eq_true, beq_iff_eq] at selected
      refine ⟨retry, row, selected.2, ?_, changed⟩
      rw [← answered, one]
      exact changed.changed

/-! ## Promotion -/

theorem deleteIntakes_ok {condition : PromptIntake → Bool} {removed : Nat}
    (result : deleteIntakes hooks db condition = .ok (removed, next)) :
    removed = db.intakes.count
        (fun r => condition r && !db.archive.recordRetired .promptIntakes r.jobId) ∧
      next = { db with
        intakes := db.intakes.delete
          (fun r => condition r && !db.archive.recordRetired .promptIntakes r.jobId) } := by
  unfold deleteIntakes at result
  simp only at result
  split at result
  · cases result
  · simp only [Except.ok.injEq, Prod.mk.injEq] at result
    exact ⟨result.1.symm, result.2.symm⟩

theorem validateCurrentClaim_ok {current : PromptIntake} {now : Rat}
    (result : validateCurrentClaim current claim now = .ok ()) :
    current.claimToken = some claim.claimToken ∧ now < current.claimExpiresAt := by
  unfold validateCurrentClaim at result
  rcases ite_ok.1 result with ⟨_, result⟩ | ⟨_, result⟩
  · cases result
  · rcases ite_ok.1 result with ⟨_, result⟩ | ⟨valid, _⟩
    · cases result
    · simp only [Bool.or_eq_true, not_or, Bool.not_eq_true, Bool.not_eq_false', Bool.and_eq_true,
        beq_iff_eq, decide_eq_false_iff_not] at valid
      exact ⟨valid.1.2.1, Rat.not_le.1 valid.2⟩

theorem validateQueueIdentity_ok {intake : PromptIntake} {job : NewQueueJob}
    (result : validateQueueIdentity intake job = .ok ()) :
    job.jobId = intake.jobId ∧ job.discordMessageId = intake.discordMessageId := by
  unfold validateQueueIdentity at result
  rcases ite_ok.1 result with ⟨_, result⟩ | ⟨_, result⟩
  · cases result
  · rcases ite_ok.1 result with ⟨_, result⟩ | ⟨same, _⟩
    · cases result
    · simp only [Bool.or_eq_true, not_or, bne_iff_ne, ne_eq, not_not] at same
      exact ⟨same.1.1.1, same.2⟩

theorem validateStoredOccurrence_ok {intake : PromptIntake} {job : NewQueueJob}
    {stored : StoredQueueJob} (result : validateStoredOccurrence intake job stored = .ok ()) :
    stored.jobId = intake.jobId ∧ stored.discordMessageId = intake.discordMessageId := by
  unfold validateStoredOccurrence at result
  rcases ite_ok.1 result with ⟨_, result⟩ | ⟨same, _⟩
  · cases result
  · simp only [Bool.or_eq_true, not_or, bne_iff_ne, ne_eq, not_not] at same
    exact ⟨same.1.1.1.1.1, same.1.2⟩

/-- A promotion is made for the current unexpired token.  It removes the intake and leaves its
request in the queue, where it may have been already. -/
structure Promotion (db next : QueueDb ρ) (claim : PromptIntakeClaim) (newJob : NewQueueJob)
    (start : Rat) (row : PromptIntake) : Prop where
  found : db.intakes.find claim.intake.jobId = some row
  token : row.claimToken = some claim.claimToken
  unexpired : start < row.claimExpiresAt
  jobId : newJob.jobId = claim.intake.jobId
  message : newJob.discordMessageId = row.discordMessageId
  removed : next.intakes.find claim.intake.jobId = none
  others : ∀ other, other ≠ claim.intake.jobId → next.intakes.find other = db.intakes.find other
  free : cancelled db newJob.jobId newJob.discordMessageId = false
  cancellations : next.cancellations = db.cancellations
  jobs : (next.jobs.rows = db.jobs.rows ++ [newJob.row] ∧
      ∀ r ∈ db.jobs.rows, sameRequest newJob.jobId newJob.discordMessageId r.jobId
        r.discordMessageId = false) ∨ next.jobs = db.jobs
  queued : ∃ r ∈ next.jobs.rows, r.jobId = claim.intake.jobId ∧
    r.discordMessageId = row.discordMessageId

theorem decode_request {row : QueueRow} {job : StoredQueueJob} (decoded : row.decode = .ok job) :
    job.jobId = row.jobId ∧ job.discordMessageId = row.discordMessageId := by
  obtain ⟨_, _, rfl⟩ := map_ok.1 decoded
  exact ⟨rfl, rfl⟩

theorem promote_spec {newJob : NewQueueJob} {answer : QueueEnqueueResult}
    (call : promotePromptIntakeToQueue hooks claim newJob now db = (.ok answer, next)) :
    ∃ start row, now = some start ∧ Promotion db next claim newJob start row := by
  have result := commit_ok call
  unfold promoteIn at result
  split at result
  · cases result
  · next start =>
    obtain ⟨_, _, result⟩ := bind_ok.1 result
    split at result
    · cases result
    · next current found =>
      obtain ⟨_, _, result⟩ := bind_ok.1 result
      obtain ⟨_, _, result⟩ := bind_ok.1 result
      obtain ⟨_, valid, result⟩ := bind_ok.1 result
      obtain ⟨_, identity, result⟩ := bind_ok.1 result
      obtain ⟨_, _, result⟩ := bind_ok.1 result
      obtain ⟨_, _, result⟩ := bind_ok.1 result
      obtain ⟨⟨enqueued, queued⟩, insertion, result⟩ := bind_ok.1 result
      obtain ⟨_, occurrence, result⟩ := bind_ok.1 result
      obtain ⟨recorded, evidence, result⟩ := bind_ok.1 result
      obtain ⟨⟨removed, cleared⟩, deletion, result⟩ := bind_ok.1 result
      rcases ite_ok.1 result with ⟨_, result⟩ | ⟨one, result⟩
      · cases result
      · cases result
        have only := recordNewEvidence_ok evidence
        obtain ⟨token, unexpired⟩ := validateCurrentClaim_ok valid
        obtain ⟨jobId, message⟩ := validateQueueIdentity_ok identity
        obtain ⟨storedId, storedMessage⟩ := validateStoredOccurrence_ok occurrence
        obtain ⟨free, intakes, cancellations, outcome, stored, member, decoded⟩ :=
          enqueueIn_ok insertion
        obtain ⟨count, final⟩ := deleteIntakes_ok deletion
        have key := Table.find_key found
        have named : ∀ r : PromptIntake, ((r.jobId == current.jobId &&
            r.claimToken == some claim.claimToken && r.claimExpiresAt > start) &&
            !recorded.archive.recordRetired .promptIntakes r.jobId) = true →
            r.jobId = claim.intake.jobId := by
          intro r selected
          simp only [Bool.and_eq_true, beq_iff_eq] at selected
          exact selected.1.1.1.trans key
        have kept : recorded.intakes = db.intakes := only.intakes.trans intakes
        have jobs : next.jobs = queued.jobs := by rw [final]; exact only.jobs
        rcases Table.delete_keyed named with ⟨zero, _⟩ | ⟨_, row, _, _, gone, others⟩
        · rw [count, zero] at one
          exact absurd rfl one
        · refine ⟨start, current, rfl, found, token, unexpired, jobId.trans key, message, ?_, ?_,
            free, ?_, ?_, ?_⟩
          · rw [final]
            exact gone
          · intro other different
            rw [final, ← kept]
            exact others other different
          · rw [final]
            exact only.cancellations.trans cancellations
          · rw [jobs]
            rcases outcome with ⟨_, rows, absent⟩ | ⟨_, same⟩
            · exact Or.inl ⟨rows, absent⟩
            · exact Or.inr same
          · rw [jobs]
            obtain ⟨sameId, sameMessage⟩ := decode_request decoded
            exact ⟨stored, member, sameId.symm.trans (storedId.trans key),
              sameMessage.symm.trans storedMessage⟩

end CodexRemote.Verified.PromptIntake

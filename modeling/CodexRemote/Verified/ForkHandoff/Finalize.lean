import CodexRemote.Verified.ForkHandoff.Rows

/-! # What finalizing a handoff moves

The statements of the transaction are followed one by one; what they do to the queue together is one
function of the row.
-/

namespace CodexRemote.Verified.ForkHandoff

open Foundations Store Store.Fork Verified.Queue

section

variable {ρ : Type} {hooks : QueueHooks ρ} {forks : ForkHooks ρ} {db next : QueueDb ρ}
  {handoffId : String} {handoff : ForkHandoff}

/-! ## What finalizing does to the queue -/

/-- The row of the named job when it is quarantined -/
def quarantinedAs (handoff : ForkHandoff) (now : Rat) (row : QueueRow) : QueueRow :=
  quarantineRow handoff.handoffId
    (quarantineMessage handoff.quarantineReason (boundedText row.lastError 1000)) now row

/-- The pending jobs of the source; rows that an archived room has frozen are retired work. -/
def movable (db : QueueDb ρ) (source : String) (row : QueueRow) : Bool :=
  pendingOn source row && !db.archive.frozen .turnQueue row.jobId

/-- One row of the queue after the transaction -/
def finalizedRow (db : QueueDb ρ) (handoff : ForkHandoff) (target : String) (generation : Int)
    (now : Rat) (row : QueueRow) : QueueRow :=
  if handoff.ambiguousJobId = some row.jobId then quarantinedAs handoff now row
  else if movable db handoff.sourceThreadId row then retargetRow target generation now row
  else row

/-- The queue and the handoff before and after an applied finalize -/
structure Finalized (handoffId : String) (generation : Int) (now : Rat) (db : QueueDb ρ)
    (answer : CompletedForkHandoff) (next : QueueDb ρ) (handoff : ForkHandoff) (target : String) :
    Prop where
  found : db.handoffs.find handoffId = some handoff
  unfinished : handoff.targetThreadId = none
  observed : handoff.observedTargetThreadId = some target
  other : handoff.sourceThreadId ≠ target
  unused : ∀ row ∈ db.jobs.rows, row.targetThreadId ≠ target
  named : ∀ job, handoff.ambiguousJobId = some job → ∃ row, db.jobs.find job = some row ∧
    startingNamed job handoff.sourceThreadId handoff.expectedGeneration row = true
  rows : next.jobs.rows = db.jobs.rows.map (finalizedRow db handoff target generation now)
  final : next.handoffs.find handoffId = some { handoff with
    targetThreadId := some target
    completedGeneration := some generation }
  told : answer.handoff.targetThreadId = some target

/-! ## The statements -/

theorem deleteNotices_frame {ids : List String} (result : deleteNotices forks db ids = .ok next) :
    next = { db with outbox := next.outbox } := by
  simp only [deleteNotices] at result
  split at result
  · cases result
  · cases result
    rfl

theorem clearUnresolvedNotices_frame {source : String}
    (result : clearUnresolvedNotices forks db source = .ok next) :
    next = { db with outbox := next.outbox } := by
  obtain ⟨middle, first, second⟩ := bind_ok.1 result
  have left := deleteNotices_frame first
  have right := deleteNotices_frame second
  rw [left] at right
  exact right

theorem selectJob_error {jobId : String} {job : StoredQueueJob}
    (selected : selectJob db jobId = .ok job) :
    ∃ row, db.jobs.find jobId = some row ∧ row.decode = .ok job ∧ job.lastError = row.lastError := by
  rw [selectJob] at selected
  cases found : db.jobs.find jobId with
  | none =>
    rw [found] at selected
    cases selected
  | some row =>
    rw [found] at selected
    refine ⟨row, rfl, selected, ?_⟩
    obtain ⟨baseline, _, rfl⟩ := map_ok.1 selected
    rfl

theorem quarantineObserved_ok {now : Rat} {quarantined : Option StoredQueueJob}
    (result : quarantineObserved hooks handoff now db = .ok (quarantined, next)) :
    next.handoffs = db.handoffs ∧
      (∀ jobId, next.archive.frozen .turnQueue jobId = db.archive.frozen .turnQueue jobId) ∧
      (∀ job, handoff.ambiguousJobId = some job → ∃ row, db.jobs.find job = some row ∧
        startingNamed job handoff.sourceThreadId handoff.expectedGeneration row = true) ∧
      next.jobs.rows = db.jobs.rows.map fun row =>
        if handoff.ambiguousJobId = some row.jobId then quarantinedAs handoff now row else row := by
  rw [quarantineObserved] at result
  cases named : handoff.ambiguousJobId with
  | none =>
    rw [named] at result
    cases result
    refine ⟨rfl, fun _ => rfl, (fun _ same => nomatch same), ?_⟩
    simp only [reduceCtorEq, if_false, List.map_id']
  | some job =>
    rw [named] at result
    obtain ⟨before, selected, result⟩ := bind_ok.1 result
    obtain ⟨⟨changed, middle⟩, updated, result⟩ := bind_ok.1 result
    obtain ⟨_, failed⟩ | ⟨one, result⟩ := ite_ok.1 result
    · cases failed
    obtain ⟨after, noticed, result⟩ := bind_ok.1 result
    obtain ⟨_, _, result⟩ := bind_ok.1 result
    cases result
    obtain ⟨handoffs, jobs, frozen⟩ := insertNoticeOnce_frame (ofStore_ok.1 noticed)
    obtain ⟨count, rfl, _⟩ := updateJobs_ok (ofStore_ok.1 updated)
    obtain ⟨row, found, _, error⟩ := selectJob_error (ofStore_ok.1 selected)
    have keyed : ∀ r : QueueRow, (startingNamed job handoff.sourceThreadId
        handoff.expectedGeneration r && !db.archive.frozen .turnQueue r.jobId) = true →
        r.jobId = job := by
      intro r chosen
      simp only [startingNamed, Bool.and_eq_true, beq_iff_eq] at chosen
      exact chosen.1.1.1.1.1
    have changed_one := not_not.1 (mt bne_iff_ne.2 one)
    obtain zero | ⟨_, chosen, there, picked⟩ :=
      @Table.count_keyed_cases _ _ _ _ db.jobs _ _ keyed
    · exact absurd (zero.symm.trans (count.symm.trans changed_one)) Nat.zero_ne_one
    · rw [found] at there
      cases there
      refine ⟨handoffs, frozen, ?_, ?_⟩
      · intro other same
        cases same
        exact ⟨row, found, (Bool.and_eq_true_iff.1 picked).1⟩
      · rw [jobs]
        simp only [Table.update]
        refine List.map_congr_left fun r member => ?_
        by_cases same : job = r.jobId
        · -- the row of the named job is the one that was selected and updated
          have equal : r = row := Option.some.inj
            ((Table.find_of_mem member).symm.trans (same ▸ found))
          subst equal
          rw [if_pos picked, if_pos (congrArg some same), quarantinedAs, quarantinePrevious, error]
        · rw [if_neg fun chosen => same (keyed r chosen).symm,
            if_neg fun equal => same (Option.some.inj equal)]

theorem moveMapping_frame {target : String} (result : moveMapping forks handoff target db = .ok next) :
    next.handoffs = db.handoffs ∧ next.jobs = db.jobs := by
  rw [moveMapping] at result
  obtain ⟨_, result⟩ | ⟨_, result⟩ := ite_ok.1 result
  · cases result
    exact ⟨rfl, rfl⟩
  · obtain ⟨rest, _, result⟩ := bind_ok.1 result
    simp only [replaceMapping] at result
    split at result
    · cases result
    · obtain ⟨_, result⟩ := guard_ok.1 result
      cases result
      exact ⟨rfl, rfl⟩

theorem validateCompletion_unused {target : String} {done : Unit}
    (result : validateCompletion forks db handoff target = .ok done) :
    ∀ row ∈ db.jobs.rows, row.targetThreadId ≠ target := by
  obtain ⟨_, _, result⟩ := bind_ok.1 result
  obtain ⟨_, failed⟩ | ⟨_, result⟩ := ite_ok.1 result
  · cases failed
  obtain ⟨_, staged, _⟩ := bind_ok.1 result
  rw [validateStageTarget] at staged
  obtain ⟨_, failed⟩ | ⟨free, _⟩ := ite_ok.1 staged
  · cases failed
  intro row member same
  apply free
  have used : db.jobs.contains (·.targetThreadId == target) = true :=
    List.any_eq_true.2 ⟨row, member, beq_iff_eq.2 same⟩
  simp only [targetUsed, used, Bool.or_true, Bool.true_or]

/-! ## The transaction -/

theorem retargetPending_ok {source target : String} {generation : Int} {now : Rat}
    (result : retargetPending hooks source target generation now db = .ok next) :
    next.handoffs = db.handoffs ∧ next.jobs.rows = db.jobs.rows.map fun row =>
      if movable db source row then retargetRow target generation now row else row := by
  obtain ⟨⟨changed, after⟩, updated, same⟩ := map_ok.1 result
  cases same
  obtain ⟨_, rfl, _⟩ := updateJobs_ok updated
  exact ⟨rfl, rfl⟩

/-- A quarantined row is not among the pending ones. -/
theorem quarantinedAs_running {db : QueueDb ρ} {source : String} (now : Rat) (row : QueueRow) :
    movable db source (quarantinedAs handoff now row) = false := by
  have running : (RawQueueState.running == RawQueueState.pending) = false := rfl
  simp only [movable, pendingOn, quarantinedAs, quarantineRow, running, Bool.and_false,
    Bool.false_and]

/-- A finalize repeats an earlier one, or is applied. -/
theorem finalizeIn_cases {generation : Int} {now : Rat} {answer : CompletedForkHandoff}
    (result : finalizeIn hooks forks handoffId generation now db = .ok (answer, next)) :
    (answer.applied = false ∧ next = db) ∨ (answer.applied = true ∧
      Kept db.handoffs next.handoffs ∧ ∃ handoff target,
        Finalized handoffId generation now db answer next handoff target) := by
  obtain ⟨handoff, found, result⟩ := bind_ok.1 result
  have found := byIdOr_ok found
  obtain ⟨_, result⟩ | ⟨unfinished, result⟩ := ite_ok.1 result
  · left
    cases named : handoff.ambiguousJobId with
    | none =>
      rw [named] at result
      cases result
      exact ⟨rfl, rfl⟩
    | some job =>
      rw [named] at result
      obtain ⟨_, _, result⟩ := bind_ok.1 result
      cases result
      exact ⟨rfl, rfl⟩
  · right
    cases observed : handoff.observedTargetThreadId with
    | none =>
      rw [observed] at result
      cases result
    | some target =>
      rw [observed] at result
      obtain ⟨_, _, result⟩ := bind_ok.1 result
      obtain ⟨_, _, result⟩ := bind_ok.1 result
      obtain ⟨_, failed⟩ | ⟨other, result⟩ := ite_ok.1 result
      · cases failed
      obtain ⟨_, valid, result⟩ := bind_ok.1 result
      obtain ⟨cleared, clear, result⟩ := bind_ok.1 result
      obtain ⟨⟨quarantined, held⟩, quarantine, result⟩ := bind_ok.1 result
      obtain ⟨moved, retarget, result⟩ := bind_ok.1 result
      obtain ⟨intakes, retargetIntake, result⟩ := bind_ok.1 result
      obtain ⟨mapped, mapping, result⟩ := bind_ok.1 result
      obtain ⟨marked, mark, result⟩ := bind_ok.1 result
      obtain ⟨completed, read, result⟩ := bind_ok.1 result
      obtain ⟨_, _, result⟩ := bind_ok.1 result
      cases result
      have clear := clearUnresolvedNotices_frame (ofStore_ok.1 clear)
      obtain ⟨heldHandoffs, frozen, named, heldRows⟩ := quarantineObserved_ok quarantine
      obtain ⟨movedHandoffs, movedRows⟩ := retargetPending_ok (ofStore_ok.1 retarget)
      obtain ⟨⟨_, _⟩, intake, same⟩ := map_ok.1 (ofStore_ok.1 retargetIntake)
      cases same
      obtain ⟨intakeHandoffs, intakeJobs, _⟩ := updateIntakes_handoffs intake
      obtain ⟨mappedHandoffs, mappedJobs⟩ := moveMapping_frame mapping
      obtain ⟨kept, frame, row, there, final⟩ := markCompleted_ok mark
      have handoffs : mapped.handoffs = db.handoffs := by
        rw [mappedHandoffs, intakeHandoffs, movedHandoffs, heldHandoffs, clear]
      have jobs : next.jobs = moved.jobs := by
        rw [frame, mappedJobs, intakeJobs]
      have cleared_jobs : cleared.jobs = db.jobs := by rw [clear]
      have cleared_archive : cleared.archive = db.archive := by rw [clear]
      rw [handoffs] at kept there
      rw [found] at there
      cases there
      refine ⟨rfl, kept, handoff, target, found, ?_, observed, ?_,
        validateCompletion_unused valid, ?_, ?_, final, ?_⟩
      · exact Option.not_isSome_iff_eq_none.1 unfinished
      · exact fun same => other (beq_iff_eq.2 same)
      · rw [← cleared_jobs]
        exact named
      · rw [jobs, movedRows, heldRows, cleared_jobs, List.map_map]
        refine List.map_congr_left fun row _ => ?_
        have freeze : ∀ source r, movable held source r = movable db source r := by
          intro source r
          rw [movable, movable, frozen, cleared_archive]
        simp only [Function.comp_apply, finalizedRow, freeze]
        by_cases same : handoff.ambiguousJobId = some row.jobId
        · rw [if_pos same, if_pos same, quarantinedAs_running, if_neg Bool.false_ne_true]
        · rw [if_neg same, if_neg same]
      · have read := byIdOr_ok read
        rw [final] at read
        cases read
        rfl

end

end CodexRemote.Verified.ForkHandoff

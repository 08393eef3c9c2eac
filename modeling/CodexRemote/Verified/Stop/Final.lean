import CodexRemote.Store.Ingress.Admission
import CodexRemote.Verified.Stop.Kept
import CodexRemote.Verified.StopControl.OneUse

/-! # Accepted stops are final -/

namespace CodexRemote.Verified.Stop

open Foundations Store
open Verified.Queue Verified.PromptIntake

variable {ρ σ : Type}

/-! ## Attempts and their failures -/

theorem tryBeginAttempt_kept {hooks : QueueHooks ρ} {jobId : String} {baseline : List String}
    {generation : Int} {now : Rat} {db next : QueueDb ρ} {answer : Option StoredQueueJob}
    (ran : tryBeginAttempt hooks jobId baseline generation now db = (.ok answer, next)) :
    WorkKept db next := by
  have result := commit_ok ran
  simp only [tryBeginAttemptIn] at result
  split at result
  · cases result
    exact .refl _
  · next row found =>
    obtain ⟨candidate, _, result⟩ := bind_ok.1 result
    obtain ⟨_, result⟩ | ⟨_, result⟩ := ite_ok.1 result
    · cases result
      exact .refl _
    · obtain ⟨_, _, result⟩ := bind_ok.1 result
      obtain ⟨_, result⟩ | ⟨free, result⟩ := ite_ok.1 result
      · cases result
        exact .refl _
      · obtain ⟨⟨updated, middle⟩, update, result⟩ := bind_ok.1 result
        refine .trans (.of_updateJob update (fun _ => rfl) ?_) (.of_claimedResult result)
        -- the attempt is only begun without a hold
        intro r _ named _ held
        simp only [Bool.or_eq_true, not_or, Bool.not_eq_true, Option.isSome_eq_false_iff,
          Option.isNone_iff_eq_none, holdReason, Option.map_eq_none_iff] at free
        rw [named, free.1.2] at held
        cases held

theorem recordStartFailureIfClaimed_kept {hooks : QueueHooks ρ} {claimed : StoredQueueJob}
    {error : String} {ambiguous : Bool} {now : Rat} {db next : QueueDb ρ}
    {answer : Option StoredQueueJob}
    (ran : recordStartFailureIfClaimed hooks claimed error ambiguous now db = (.ok answer, next)) :
    WorkKept db next := by
  have result := commit_ok ran
  simp only [recordStartFailureIn] at result
  obtain ⟨_, result⟩ | ⟨_, result⟩ := ite_ok.1 result
  · cases result
    exact .refl _
  · obtain ⟨matching, _, result⟩ := bind_ok.1 result
    obtain ⟨_, result⟩ | ⟨_, result⟩ := ite_ok.1 result
    · cases result
      exact .refl _
    · obtain ⟨⟨updated, middle⟩, update, result⟩ := bind_ok.1 result
      have written : WorkKept db middle := by
        refine .of_updateJob update (fun _ => rfl) ?_
        -- the row of a claim is starting
        intro r _ _ holds _ _
        simp only [claimHolds, Bool.and_eq_true, beq_iff_eq] at holds
        exact holds.1.1.2
      obtain ⟨_, result⟩ | ⟨_, result⟩ := ite_ok.1 result
      · obtain ⟨rest, _, result⟩ := bind_ok.1 result
        have noted : WorkKept middle (Store.hold middle claimed.jobId claimed.targetThreadId
          (boundedError error) (hooks.jobJson claimed)) := .hold _ _ _ _ _
        exact (written.trans noted).trans ((WorkKept.of_rest _ rest).trans (.of_claimedResult result))
      · exact written.trans (.of_claimedResult result)

theorem recordPreflightFailure_kept {hooks : QueueHooks ρ} {jobId : String} {generation : Int}
    {error : String} {now : Rat} {db next : QueueDb ρ} {answer : Option StoredQueueJob}
    (ran : recordPreflightFailure hooks jobId generation error now db = (.ok answer, next)) :
    WorkKept db next := by
  have result := commit_ok ran
  simp only [recordPreflightFailureIn] at result
  obtain ⟨⟨updated, middle⟩, update, result⟩ := bind_ok.1 result
  have written : WorkKept db middle :=
    .of_updateJob update (fun _ => rfl) fun _ _ _ _ _ starting => starting
  obtain ⟨_, result⟩ | ⟨_, result⟩ := ite_ok.1 result
  · cases result
    exact written
  · obtain ⟨_, _, result⟩ := bind_ok.1 result
    cases result
    exact written

theorem recordIntakeFailure_kept {hooks : QueueHooks ρ} {claim : PromptIntakeClaim}
    {error : String} {retryAfter : Timestamp} {observedAt : Rat} {db next : QueueDb ρ}
    {answer : Option PromptIntake}
    (ran : recordPromptIntakeFailureIfClaimed hooks claim error retryAfter observedAt db =
      (.ok answer, next)) : WorkKept db next := by
  have result := commit_ok ran
  simp only [recordIntakeFailureIn] at result
  split at result
  · cases result
  · obtain ⟨⟨updated, middle⟩, update, result⟩ := bind_ok.1 result
    cases result
    exact .of_updateIntakes update fun _ => rfl

theorem adoptGeneration_kept {hooks : QueueHooks ρ} {generation : Int} {db next : QueueDb ρ}
    {answer : QueueGenerationAdoption}
    (ran : adoptGeneration hooks generation db = (.ok answer, next)) : WorkKept db next := by
  have result := commit_ok ran
  simp only [adoptGenerationIn] at result
  obtain ⟨⟨adopted, middle⟩, update, result⟩ := bind_ok.1 result
  obtain ⟨jobs, _, result⟩ := bind_ok.1 result
  cases result
  obtain ⟨_, final, _⟩ := updateJobs_ok update
  rw [final]
  exact .of_jobs (fun _ => rfl) fun _ _ _ _ starting => starting

theorem adoptTargetGeneration_kept {hooks : QueueHooks ρ} {target : String} {generation : Int}
    {db next : QueueDb ρ} {answer : QueueGenerationAdoption}
    (ran : adoptTargetGeneration hooks target generation db = (.ok answer, next)) :
    WorkKept db next := by
  have result := commit_ok ran
  simp only [adoptTargetGenerationIn] at result
  obtain ⟨⟨adopted, middle⟩, update, result⟩ := bind_ok.1 result
  obtain ⟨jobs, _, result⟩ := bind_ok.1 result
  cases result
  obtain ⟨_, final, _⟩ := updateJobs_ok update
  rw [final]
  exact .of_jobs (fun _ => rfl) fun _ _ _ _ starting => starting

/-! ## Movers -/

theorem unheldOrigin {db : QueueDb ρ} {message : Option Int} {event : Int}
    (free : requireUnheldOrigin db message = .ok ()) (named : message = some event) :
    ¬StopHeldEvent db event := by
  rintro ⟨row, member, held, sent⟩
  simp only [requireUnheldOrigin] at free
  obtain ⟨none_, _⟩ := guard_ok.1 free
  apply none_
  rw [named, Option.isSome_some, Bool.true_and, Table.contains, List.any_eq_true]
  exact ⟨row, member, by simp [sent, held.stopHeld]⟩

/-- An enqueue neither reads nor writes a hold; a held original of its message refuses it. -/
theorem enqueueIn_kept {hooks : QueueHooks ρ} {newJob : NewQueueJob} {db next : QueueDb ρ}
    {answer : QueueEnqueueResult} (result : enqueueIn hooks newJob db = .ok (answer, next)) :
    WorkKept db next ∧ next.holds = db.holds ∧ next.intakes = db.intakes := by
  simp only [enqueueIn] at result
  obtain ⟨rest, _, result⟩ := bind_ok.1 result
  obtain ⟨_, free, result⟩ := bind_ok.1 result
  obtain ⟨_, result⟩ := guard_ok.1 result
  obtain ⟨_, _, result⟩ := bind_ok.1 result
  obtain ⟨_, _, result⟩ := bind_ok.1 result
  obtain ⟨⟨created, after⟩, inserted, result⟩ := bind_ok.1 result
  obtain ⟨job, _, result⟩ := bind_ok.1 result
  cases result
  have frame : after.holds = db.holds ∧ after.ingress = db.ingress := by
    simp only [insertJob] at inserted
    obtain ⟨_, inserted⟩ := guard_ok.1 inserted
    split at inserted
    · cases inserted
    · obtain ⟨_, inserted⟩ | ⟨_, inserted⟩ := ite_ok.1 inserted <;>
        (cases inserted; exact ⟨rfl, rfl⟩)
  obtain ⟨_, outcome⟩ := insertJob_ok inserted
  obtain ⟨_, same⟩ | ⟨_, _, rows, intakes, _⟩ := outcome
  · rw [same]
    exact ⟨.of_same rfl rfl rfl rfl, rfl, rfl⟩
  · refine ⟨.of_job frame.1 intakes frame.2 rows rfl ?_, frame.1, intakes⟩
    exact fun event named => unheldOrigin free named

/-- Evidence is added beside a stop's own record. -/
theorem recordNewEvidence_kept {hooks : QueueHooks ρ} {job : NewQueueJob} {db next : QueueDb ρ}
    (result : recordNewEvidence hooks db job = .ok next) :
    WorkKept db next ∧ next.holds = db.holds := by
  simp only [recordNewEvidence] at result
  refine foldlM_ok (R := fun a b : QueueDb ρ => WorkKept a b ∧ b.holds = a.holds)
    (fun s => ⟨.refl s, rfl⟩)
    (fun left right => ⟨left.1.trans right.1, right.2.trans left.2⟩) ?_ result
  intro before key after step
  simp only [recordEvidenceOf] at step
  split at step
  · cases step
  · next saved found =>
    obtain ⟨_, step⟩ | ⟨_, step⟩ := ite_ok.1 step
    · cases step
      exact ⟨.refl _, rfl⟩
    · obtain ⟨_, step⟩ := guard_ok.1 step
      obtain ⟨rest, _, step⟩ := bind_ok.1 step
      obtain ⟨_, step⟩ := guard_ok.1 step
      obtain ⟨⟨changed, written⟩, update, step⟩ := bind_ok.1 step
      cases step
      refine ⟨(WorkKept.of_rest before rest).trans (.of_updateIngress update ?_), ?_⟩
      · intro row _ _ held
        refine ⟨⟨held.state, ?_, held.unowned⟩, rfl⟩
        show ((some _ : Option Json).bind (·.get "stop_hold")).isSome = true
        rw [Option.bind_some, Json.get_set_ne (by decide)]
        have there := held.stopHeld
        rw [IngressRow.stopHeld] at there
        cases outcome : row.outcome with
        | none => simp [outcome] at there
        | some value => simpa [outcome] using there
      · obtain ⟨_, _, rfl⟩ := updateIngress_ok update
        rfl

theorem promote_kept {hooks : QueueHooks ρ} {claim : PromptIntakeClaim} {newJob : NewQueueJob}
    {now : Timestamp} {db next : QueueDb ρ} {answer : QueueEnqueueResult}
    (ran : promotePromptIntakeToQueue hooks claim newJob now db = (.ok answer, next)) :
    WorkKept db next := by
  have result := commit_ok ran
  simp only [promoteIn] at result
  split at result
  · cases result
  · next start =>
    obtain ⟨_, free, result⟩ := bind_ok.1 result
    split at result
    · cases result
    · next current found =>
      obtain ⟨_, _, result⟩ := bind_ok.1 result
      obtain ⟨_, _, result⟩ := bind_ok.1 result
      obtain ⟨_, _, result⟩ := bind_ok.1 result
      obtain ⟨_, _, result⟩ := bind_ok.1 result
      obtain ⟨_, _, result⟩ := bind_ok.1 result
      obtain ⟨_, _, result⟩ := bind_ok.1 result
      obtain ⟨⟨enqueued, queued⟩, insertion, result⟩ := bind_ok.1 result
      obtain ⟨_, _, result⟩ := bind_ok.1 result
      obtain ⟨recorded, evidence, result⟩ := bind_ok.1 result
      obtain ⟨⟨removed, cleared⟩, deletion, result⟩ := bind_ok.1 result
      obtain ⟨_, result⟩ := guard_ok.1 result
      cases result
      obtain ⟨moved, holds, _⟩ := enqueueIn_kept insertion
      obtain ⟨noted, still⟩ := recordNewEvidence_kept evidence
      obtain ⟨_, final⟩ := deleteIntakes_ok deletion
      have unheld : db.holds.find claim.intake.jobId = none := by
        simp only [requireUnheld] at free
        split at free
        · cases free
        · next absent => simpa [holdReason] using absent
      refine (moved.trans noted).trans ?_
      rw [final]
      refine .of_delete ?_
      intro row _ chosen
      simp only [Bool.and_eq_true, beq_iff_eq] at chosen
      rw [still, holds, chosen.1.1.1, Table.find_key found, unheld]

/-! ## Admissions -/

theorem linkPromptOwner_kept {hooks : QueueHooks ρ} {intake : PromptIntake} {db next : QueueDb ρ}
    (result : linkPromptOwner hooks db intake = .ok next) : WorkKept db next := by
  simp only [linkPromptOwner] at result
  split at result
  · cases result
    exact .refl _
  · next event _ =>
    obtain ⟨origin, _, result⟩ := bind_ok.1 result
    cases origin with
    | none =>
      cases result
      exact .refl _
    | some ingress =>
      simp only [linkPromptOwnerByKey] at result
      obtain ⟨_, free, result⟩ := bind_ok.1 result
      obtain ⟨_, _, result⟩ := bind_ok.1 result
      obtain ⟨_, result⟩ := guard_ok.1 result
      obtain ⟨⟨changed, written⟩, update, result⟩ := bind_ok.1 result
      cases result
      refine .of_updateIngress update ?_
      intro row member named held
      simp only [requireUnheldKey] at free
      obtain ⟨none_, _⟩ := guard_ok.1 free
      refine absurd ?_ none_
      rw [Table.contains, List.any_eq_true]
      exact ⟨row, member, by rw [named, held.stopHeld]; rfl⟩

/-- The owner of a held original is not linked, so its event gets no intake. -/
theorem linkPromptOwner_unheld {hooks : QueueHooks ρ} {intake : PromptIntake} {event : Int}
    {db next : QueueDb ρ} (sent : intake.discordMessageId = some event)
    (result : linkPromptOwner hooks db intake = .ok next) : ¬StopHeldEvent db event := by
  rintro ⟨row, member, held, named⟩
  simp only [linkPromptOwner, sent] at result
  obtain ⟨origin, found, result⟩ := bind_ok.1 result
  have listed : row ∈ db.ingress.select (·.eventId == some event) :=
    List.mem_filter.2 ⟨member, by simp [named]⟩
  simp only [byOrigin] at found
  split at found
  · next none_ =>
    rw [none_] at listed
    cases listed
  · next only one =>
    cases found
    rw [one, List.mem_singleton] at listed
    subst listed
    simp only [linkPromptOwnerByKey] at result
    obtain ⟨_, free, _⟩ := bind_ok.1 result
    simp only [requireUnheldKey] at free
    obtain ⟨none_, _⟩ := guard_ok.1 free
    refine absurd ?_ none_
    rw [Table.contains, List.any_eq_true]
    exact ⟨row, member, by simp [held.stopHeld]⟩
  · cases found

theorem enqueue_kept {hooks : QueueHooks ρ} {newJob : NewQueueJob} {db next : QueueDb ρ}
    {answer : QueueEnqueueResult} (ran : enqueue hooks newJob db = (.ok answer, next)) :
    WorkKept db next := (enqueueIn_kept (commit_ok ran)).1

theorem enqueueIfMirrorMatches_kept {hooks : QueueHooks ρ} {newJob : NewQueueJob}
    {expected : ExpectedMirrorMapping} {db next : QueueDb ρ} {answer : QueueEnqueueResult}
    (ran : enqueueIfMirrorMatches hooks newJob expected db = (.ok answer, next)) :
    WorkKept db next := by
  obtain ⟨_, _, result⟩ := bind_ok.1 (commit_ok ran)
  exact (enqueueIn_kept result).1

theorem insertIntake_ok {hooks : QueueHooks ρ} {intake : PromptIntake} {db next : QueueDb ρ}
    (result : insertIntake hooks db intake = .ok next) :
    next = db ∨ (next.intakes.rows = db.intakes.rows ++ [intake] ∧ next.holds = db.holds ∧
      next.jobs = db.jobs ∧ next.ingress = db.ingress) := by
  simp only [insertIntake] at result
  obtain ⟨_, result⟩ := guard_ok.1 result
  split at result
  · cases result
  · obtain ⟨_, result⟩ | ⟨_, result⟩ := ite_ok.1 result
    · cases result
      exact .inl rfl
    · obtain ⟨fresh, result⟩ := guard_ok.1 result
      cases result
      refine .inr ⟨?_, rfl, rfl, rfl⟩
      show (db.intakes.insertOrIgnore intake).rows = _
      rw [Table.insertOrIgnore, dif_neg]
      intro taken
      obtain ⟨row, member, same⟩ := List.mem_map.1 taken
      refine fresh ?_
      rw [Table.contains, List.any_eq_true]
      exact ⟨row, member, by simp [sameRequest, same]⟩

/-- A new intake of a held request finds its owner held, and is not kept. -/
theorem admitPromptIntake_kept {hooks : QueueHooks ρ} {new : NewPromptIntake} {db next : QueueDb ρ}
    {answer : PromptIntakeAdmission} (ran : admitPromptIntake hooks new db = (.ok answer, next)) :
    WorkKept db next := by
  have result := commit_ok ran
  simp only [admitIn] at result
  obtain ⟨_, _, result⟩ := bind_ok.1 result
  obtain ⟨found, _, result⟩ := bind_ok.1 result
  cases found with
  | some existing =>
    obtain ⟨linked, link, result⟩ := bind_ok.1 result
    cases result
    exact linkPromptOwner_kept link
  | none =>
    obtain ⟨target, _, result⟩ := bind_ok.1 result
    obtain ⟨inserted, insertion, result⟩ := bind_ok.1 result
    obtain ⟨intake, changed, result⟩ := bind_ok.1 result
    obtain ⟨linked, link, result⟩ := bind_ok.1 result
    cases result
    refine WorkKept.trans ?_ (linkPromptOwner_kept link)
    obtain same | ⟨rows, holds, jobs, ingress⟩ := insertIntake_ok insertion
    · rw [same]
      exact .refl db
    · refine .of_intake rows holds jobs ingress ?_
      intro event named held
      simp only [changedIntake] at changed
      rw [Table.find_append rows, if_pos (show (new.row target).jobId = new.jobId from rfl)] at changed
      cases changed
      refine linkPromptOwner_unheld named link ?_
      rw [StopHeldEvent, ingress]
      exact held

theorem HeldOriginal.of_fields {row later : IngressRow} (held : HeldOriginal row)
    (state : later.state = .held) (outcome : later.outcome = row.outcome)
    (owner : later.ownerId = row.ownerId) : HeldOriginal later := by
  refine ⟨state, ?_, owner.trans held.unowned⟩
  rw [IngressRow.stopHeld, outcome]
  exact held.stopHeld

theorem insertRow_kept {hooks : AdmissionHooks ρ} {row saved : IngressRow} {db next : QueueDb ρ}
    (result : Ingress.insertRow hooks db row = .ok (saved, next)) : WorkKept db next := by
  simp only [Ingress.insertRow] at result
  obtain ⟨_, result⟩ := guard_ok.1 result
  obtain ⟨_, result⟩ := guard_ok.1 result
  split at result
  · cases result
  · next ingress inserted =>
    cases result
    exact .of_request (Table.insert_some inserted).1 rfl rfl rfl

theorem consumeArm_kept {hooks : AdmissionHooks ρ} {request : NewIngress} {key : String}
    {db next : QueueDb ρ} (result : Ingress.consumeArm hooks request db key = .ok next) :
    WorkKept db next := by
  simp only [Ingress.consumeArm] at result
  obtain ⟨⟨changed, written⟩, update, result⟩ := bind_ok.1 result
  cases result
  exact .of_updateIngress update fun row _ _ held => ⟨held.of_fields held.state rfl rfl, rfl⟩

theorem retireBlocked_kept {hooks : AdmissionHooks ρ} {row : IngressRow} {db next : QueueDb ρ}
    (result : Ingress.retireBlocked hooks db row = .ok next) : WorkKept db next := by
  simp only [Ingress.retireBlocked] at result
  obtain ⟨_, result⟩ | ⟨_, result⟩ := ite_ok.1 result
  · obtain ⟨⟨changed, written⟩, update, result⟩ := bind_ok.1 result
    cases result
    exact .of_updateIngress update fun row _ _ held => ⟨held.of_fields rfl rfl rfl, rfl⟩
  · cases result
    exact .refl _

/-- A request that is admitted again is returned as it is; a new one is appended. -/
theorem admitRequest_kept {hooks : AdmissionHooks ρ} {request : NewIngress} {db next : QueueDb ρ}
    {answer : IngressAdmission} (ran : Ingress.admitRequest hooks request db = (.ok answer, next)) :
    WorkKept db next := by
  have result := commit_ok ran
  simp only [Ingress.admitIn] at result
  obtain ⟨_, _, result⟩ := bind_ok.1 result
  obtain ⟨found, _, result⟩ := bind_ok.1 result
  cases found with
  | some existing =>
    obtain ⟨_, result⟩ := guard_ok.1 result
    cases result
    exact .refl _
  | none =>
    obtain ⟨_, result⟩ | ⟨_, result⟩ := ite_ok.1 result
    · cases result
      exact .refl _
    · obtain ⟨⟨prepared, arm⟩, _, result⟩ := bind_ok.1 result
      obtain ⟨consumed, armed, result⟩ := bind_ok.1 result
      obtain ⟨⟨row, inserted⟩, insertion, result⟩ := bind_ok.1 result
      obtain ⟨rest, _, result⟩ := bind_ok.1 result
      obtain ⟨retired, retirement, result⟩ := bind_ok.1 result
      obtain ⟨_, _, result⟩ := bind_ok.1 result
      cases result
      have first : WorkKept db consumed := by
        cases arm with
        | none =>
          cases armed
          exact .refl db
        | some key => exact consumeArm_kept armed
      exact (first.trans (insertRow_kept insertion)).trans
        ((WorkKept.of_rest _ rest).trans (retireBlocked_kept retirement))

/-! ## The failure that is given no claim -/

/-- The failure applies to a held job whose row is not starting. -/
def StartsHeld (hooks : QueueHooks ρ) (jobId : String) (generation : Int) (error : String)
    (now : Rat) (db : QueueDb ρ) : Prop :=
  (db.holds.find jobId).isSome ∧ ∃ row job, db.jobs.find jobId = some row ∧ row.decode = .ok job ∧
    row.state ≠ .starting ∧ row.appServerGeneration = generation ∧ jobCanMutate db job = true ∧
    db.archive.frozen .turnQueue jobId = false ∧
    updateFence hooks db row (row.failStart true (boundedError error) now) = none

theorem updateJob_changed {hooks : QueueHooks ρ} {db : QueueDb ρ} {jobId : String} {row : QueueRow}
    {condition : QueueRow → Bool} {assign : QueueRow → QueueRow}
    {keeps : ∀ r, (assign r).jobId = r.jobId} (found : db.jobs.find jobId = some row)
    (chosen : condition row = true) (live : db.archive.frozen .turnQueue jobId = false)
    (unfenced : updateFence hooks db row (assign row) = none) :
    ∃ next, updateJob hooks db jobId condition assign keeps = .ok (true, next) ∧
      next.jobs.find jobId = some (assign row) := by
  have named : row.jobId = jobId := Table.find_key found
  have selected : (row.jobId == jobId && condition row &&
      !db.archive.frozen .turnQueue row.jobId) = true := by
    rw [named, chosen, live]
    simp
  have fences : (db.jobs.select fun r => r.jobId == jobId && condition r &&
      !db.archive.frozen .turnQueue r.jobId).findSome? (fun r => updateFence hooks db r (assign r)) =
        none := by
    rw [List.findSome?_eq_none_iff]
    intro other member
    obtain ⟨there, holds⟩ := List.mem_filter.1 member
    simp only [Bool.and_eq_true, beq_iff_eq] at holds
    rw [Table.eq_of_key there (Table.mem_of_find found) (holds.1.1.trans named.symm)]
    exact unfenced
  have count : db.jobs.count (fun r => r.jobId == jobId && condition r &&
      !db.archive.frozen .turnQueue r.jobId) = 1 := by
    rw [@Table.count_keyed _ _ _ _ _ _ jobId (by
      intro r holds
      simp only [Bool.and_eq_true, beq_iff_eq] at holds
      exact holds.1.1), found, Option.any_some, if_pos selected]
  refine ⟨{ db with
    jobs := db.jobs.update (fun r => r.jobId == jobId && condition r &&
      !db.archive.frozen .turnQueue r.jobId) assign keeps }, ?_, ?_⟩
  · rw [updateJob, updateJobs]
    simp only [fences, count]
    rfl
  · show (db.jobs.update _ assign keeps).find jobId = _
    rw [Table.find_update, found, Option.map_some, if_pos selected]

/-- The failure keeps what is held exactly when it is not such an ambiguous one. -/
theorem recordStartFailure_iff {hooks : QueueHooks ρ} {jobId : String} {generation : Int}
    {error : String} {ambiguous : Bool} {now : Rat} {db next : QueueDb ρ}
    {answer : Except StoreError StoredQueueJob}
    (ran : recordStartFailure hooks jobId generation error ambiguous now db = (answer, next)) :
    WorkKept db next ↔ ¬(ambiguous = true ∧ StartsHeld hooks jobId generation error now db) := by
  constructor
  · rintro kept ⟨rfl, held, row, job, found, decoded, apart, adopted, mutable, live, unfenced⟩
    obtain ⟨middle, update, there⟩ := @updateJob_changed _ hooks db jobId row
      (·.appServerGeneration == generation) (fun r => r.failStart true (boundedError error) now)
      (fun r => r.failStart_jobId true (boundedError error) now) found (by simpa using adopted) live
      unfenced
    obtain ⟨baseline, turns, _⟩ := decode_fields decoded
    obtain ⟨last, decodes⟩ : ∃ last, (row.failStart true (boundedError error) now).decode =
        .ok last := by
      simp only [QueueRow.decode, QueueRow.failStart, turns]
      exact ⟨_, rfl⟩
    have body : recordFailureOfIn hooks jobId generation error true now db = .ok (last, middle) := by
      have before : selectJob db jobId = .ok job := by
        rw [selectJob, found]
        exact decoded
      have after : selectJob middle jobId = .ok last := by
        rw [selectJob, there]
        exact decodes
      rw [recordFailureOfIn, before]
      simp only [bind, Except.bind, mutable, update, after, Bool.not_true, Bool.false_eq_true,
        if_false]
    have whole : recordStartFailure hooks jobId generation error true now db =
        (.ok last, middle) := by
      simp only [recordStartFailure, commit, commitWhen, body]
      rfl
    rw [ran] at whole
    cases whole
    obtain ⟨old, here, starting⟩ := kept.started jobId held _ there rfl
    rw [found] at here
    cases here
    exact apart starting
  · intro clean
    cases answer with
    | error failure => exact commit_error ran ▸ .refl db
    | ok job =>
      have result := commit_ok ran
      simp only [recordFailureOfIn] at result
      obtain ⟨original, selected, result⟩ := bind_ok.1 result
      obtain ⟨mutable, result⟩ := guard_ok.1 result
      obtain ⟨⟨updated, middle⟩, update, result⟩ := bind_ok.1 result
      obtain ⟨_, result⟩ := guard_ok.1 result
      obtain ⟨_, _, result⟩ := bind_ok.1 result
      cases result
      obtain ⟨⟨changed, after⟩, statement, same⟩ := map_ok.1 update
      cases same
      obtain ⟨_, final, fences⟩ := updateJobs_ok statement
      rw [final]
      refine .of_jobs (fun _ => rfl) ?_
      intro row member chosen held starting
      by_contra apart
      refine clean ?_
      have fence := fences row member chosen
      simp only [Bool.and_eq_true, beq_iff_eq, Bool.not_eq_true'] at chosen
      obtain ⟨⟨named, adopted⟩, live⟩ := chosen
      have found : db.jobs.find jobId = some row := named ▸ Table.find_of_mem member
      have ambiguous : ambiguous = true := by
        by_contra definite
        rw [QueueRow.failStart, if_neg definite] at starting
        cases starting
      subst ambiguous
      refine ⟨rfl, named ▸ held, row, original, found, ?_, apart, adopted, ?_, named ▸ live,
        fence⟩
      · rw [selectJob, found] at selected
        exact selected
      · simpa using mutable

/-! ## Runs after a stop -/

inductive WorkEvent (ρ : Type) where
  | promoted
  | enqueued
  | adopted
  | failed
  /-- `record_start_failure`, with what it is given -/
  | startFailed (hooks : QueueHooks ρ) (jobId : String) (generation : Int) (error : String)
    (ambiguous : Bool) (now : Rat)
  | prepared
  | asked
  | began
  | surrounded

/-- One operation on the queue, the intakes or the journal, with any answer.  What happens beside
these tables leaves them alone and drops no hold. -/
inductive WorkStep : QueueDb ρ → WorkEvent ρ → QueueDb ρ → Prop where
  | promoted {db next} {answer} (hooks claim newJob now)
      (call : promotePromptIntakeToQueue hooks claim newJob now db = (answer, next)) :
      WorkStep db .promoted next
  | enqueued {db next} {answer} (hooks newJob) (call : enqueue hooks newJob db = (answer, next)) :
      WorkStep db .enqueued next
  | enqueuedOnMirror {db next} {answer} (hooks newJob expected)
      (call : enqueueIfMirrorMatches hooks newJob expected db = (answer, next)) :
      WorkStep db .enqueued next
  | adopted {db next} {answer} (hooks generation)
      (call : adoptGeneration hooks generation db = (answer, next)) : WorkStep db .adopted next
  | adoptedTarget {db next} {answer} (hooks target generation)
      (call : adoptTargetGeneration hooks target generation db = (answer, next)) :
      WorkStep db .adopted next
  | claimFailed {db next} {answer} (hooks claimed error ambiguous now)
      (call : recordStartFailureIfClaimed hooks claimed error ambiguous now db = (answer, next)) :
      WorkStep db .failed next
  | preflightFailed {db next} {answer} (hooks jobId generation error now)
      (call : recordPreflightFailure hooks jobId generation error now db = (answer, next)) :
      WorkStep db .failed next
  | intakeFailed {db next} {answer} (hooks claim error retryAfter observedAt)
      (call : recordPromptIntakeFailureIfClaimed hooks claim error retryAfter observedAt db =
        (answer, next)) : WorkStep db .failed next
  | startFailed {db next} {answer} (hooks jobId generation error ambiguous now)
      (call : recordStartFailure hooks jobId generation error ambiguous now db = (answer, next)) :
      WorkStep db (.startFailed hooks jobId generation error ambiguous now) next
  | prepared {db next} {answer} (hooks new)
      (call : admitPromptIntake hooks new db = (answer, next)) : WorkStep db .prepared next
  | asked {db next} {answer} (hooks request)
      (call : Ingress.admitRequest hooks request db = (answer, next)) : WorkStep db .asked next
  | began {db next} {answer} (hooks jobId baseline generation now)
      (call : tryBeginAttempt hooks jobId baseline generation now db = (answer, next)) :
      WorkStep db .began next
  | surrounded {db next} (jobs : next.jobs = db.jobs) (intakes : next.intakes = db.intakes)
      (ingress : next.ingress = db.ingress) (holds : HoldsKept db next) :
      WorkStep db .surrounded next

/-- Every failure without a claim but the ambiguous one of held work that is not starting. -/
def WorkEvent.clean (db : QueueDb ρ) : WorkEvent ρ → Prop
  | .startFailed hooks jobId generation error ambiguous now =>
    ¬(ambiguous = true ∧ StartsHeld hooks jobId generation error now db)
  | _ => True

/-- An operation that fails leaves the store as it was. -/
theorem WorkKept.of_commit {α : Type} {db next : QueueDb ρ} {answer : Except StoreError α}
    {body : QueueDb ρ → Except StoreError (α × QueueDb ρ)} (call : commit body db = (answer, next))
    (ok : ∀ value, commit body db = (.ok value, next) → WorkKept db next) : WorkKept db next := by
  cases answer with
  | error failure => exact commit_error call ▸ .refl db
  | ok value => exact ok value call

theorem workStep_iff {db next : QueueDb ρ} {event : WorkEvent ρ} (step : WorkStep db event next) :
    WorkKept db next ↔ event.clean db := by
  have always : WorkKept db next → (WorkKept db next ↔ True) := fun kept => iff_true_intro kept
  cases step with
  | promoted hooks claim newJob now call =>
    exact always (.of_commit call fun _ ran => promote_kept ran)
  | enqueued hooks newJob call => exact always (.of_commit call fun _ ran => enqueue_kept ran)
  | enqueuedOnMirror hooks newJob expected call =>
    exact always (.of_commit call fun _ ran => enqueueIfMirrorMatches_kept ran)
  | adopted hooks generation call =>
    exact always (.of_commit call fun _ ran => adoptGeneration_kept ran)
  | adoptedTarget hooks target generation call =>
    exact always (.of_commit call fun _ ran => adoptTargetGeneration_kept ran)
  | claimFailed hooks claimed error ambiguous now call =>
    exact always (.of_commit call fun _ ran => recordStartFailureIfClaimed_kept ran)
  | preflightFailed hooks jobId generation error now call =>
    exact always (.of_commit call fun _ ran => recordPreflightFailure_kept ran)
  | intakeFailed hooks claim error retryAfter observedAt call =>
    exact always (.of_commit call fun _ ran => recordIntakeFailure_kept ran)
  | startFailed hooks jobId generation error ambiguous now call =>
    exact recordStartFailure_iff call
  | prepared hooks new call =>
    exact always (.of_commit call fun _ ran => admitPromptIntake_kept ran)
  | asked hooks request call => exact always (.of_commit call fun _ ran => admitRequest_kept ran)
  | began hooks jobId baseline generation now call =>
    exact always (.of_commit call fun _ ran => tryBeginAttempt_kept ran)
  | surrounded jobs intakes ingress holds =>
    have same := @WorkKept.of_same _ db { next with holds := db.holds } rfl jobs intakes ingress
    exact always { same with holds := holds }

/-- A run in which every failure is such a one. -/
abbrev CleanRun (db : QueueDb ρ) (events : List (WorkEvent ρ)) (next : QueueDb ρ) : Prop :=
  Run (fun s e t => WorkStep s e t ∧ e.clean s) db events next

/-- A run whose operations all leave held work where it was. -/
abbrev FinalRun (db : QueueDb ρ) (events : List (WorkEvent ρ)) (next : QueueDb ρ) : Prop :=
  Run (fun s e t => WorkStep s e t ∧ WorkKept s t) db events next

theorem finalRun_iff {db next : QueueDb ρ} {events : List (WorkEvent ρ)} :
    FinalRun db events next ↔ CleanRun db events next := by
  constructor
  · intro run
    induction run with
    | nil => exact .nil _
    | cons first _ ih => exact .cons ⟨first.1, (workStep_iff first.1).1 first.2⟩ ih
  · intro run
    induction run with
    | nil => exact .nil _
    | cons first _ ih => exact .cons ⟨first.1, (workStep_iff first.1).2 first.2⟩ ih

theorem FinalRun.kept {db next : QueueDb ρ} {events : List (WorkEvent ρ)}
    (run : FinalRun db events next) : WorkKept db next := by
  induction run with
  | nil => exact .refl _
  | cons first _ ih => exact first.2.trans ih

/-! ## Stops -/

inductive StopRequest where
  /-- `accept_scope` -/
  | nonrunning (call : Store.Stop.StopCall) (allowUncertain : Bool)
  /-- `accept_running` -/
  | running (call : Store.Stop.StopCall) (resident : String) (generation : Int)

def StopRequest.target : StopRequest → String
  | .nonrunning call _ => call.scope.target
  | .running call _ _ => call.scope.target

/-- Whether the stop is accepted, and the store after it. -/
def StopRequest.perform (hooks : StopHooks σ) (db : StopDb σ) :
    StopRequest → Except StoreError Bool × StopDb σ
  | .nonrunning call allowUncertain =>
    let (answer, next) := Stop.acceptScope hooks call allowUncertain db
    (answer.map (·.isSome), next)
  | .running call resident generation =>
    let (answer, next) := Stop.Control.acceptRunning hooks call resident generation db
    (answer.map (·.isSome), next)

theorem perform_unchanged {hooks : StopHooks σ} {request : StopRequest} {db next : StopDb σ}
    {error : StoreError} (result : request.perform hooks db = (.error error, next)) : next = db := by
  cases request with
  | nonrunning call allowUncertain =>
    simp only [StopRequest.perform] at result
    generalize ran : Store.Stop.acceptScope hooks call allowUncertain db = outcome at result
    obtain ⟨answer, last⟩ := outcome
    cases answer with
    | error refused =>
      cases result
      exact acceptScope_unchanged ran nofun
    | ok found => cases result
  | running call resident generation =>
    simp only [StopRequest.perform] at result
    generalize ran : Store.Stop.Control.acceptRunning hooks call resident generation db = outcome
      at result
    obtain ⟨answer, last⟩ := outcome
    cases answer with
    | error refused =>
      cases result
      exact acceptRunning_unchanged ran nofun
    | ok found => cases result

theorem perform_accepted {hooks : StopHooks σ} {request : StopRequest} {db next : StopDb σ}
    (result : request.perform hooks db = (.ok true, next)) : Accepted request.target db next := by
  cases request with
  | nonrunning call allowUncertain =>
    simp only [StopRequest.perform] at result
    generalize ran : Store.Stop.acceptScope hooks call allowUncertain db = outcome at result
    obtain ⟨answer, last⟩ := outcome
    cases answer with
    | error refused => cases result
    | ok found =>
      cases found with
      | none => cases result
      | some receipt =>
        cases result
        exact (acceptScope_ok ran).1
  | running call resident generation =>
    simp only [StopRequest.perform] at result
    generalize ran : Store.Stop.Control.acceptRunning hooks call resident generation db = outcome
      at result
    obtain ⟨answer, last⟩ := outcome
    cases answer with
    | error refused => cases result
    | ok found =>
      cases found with
      | none => cases result
      | some control =>
        cases result
        exact (acceptRunning_ok ran).1

/-- What a target had at a stop is held, and none of it has become a starting job since. -/
structure CoveredFinal (target : String) (db last : QueueDb ρ) : Prop where
  queued : ∀ row ∈ db.jobs.rows, row.targetThreadId = target → HeldFor last target row.jobId ∧
    ∀ later, last.jobs.find row.jobId = some later → later.state = .starting → row.state = .starting
  preparing : ∀ intake ∈ db.intakes.rows, intake.targetThreadId = target →
    HeldFor last target intake.jobId ∧ (last.intakes.find intake.jobId).isSome ∧
      ∀ later, last.jobs.find intake.jobId = some later → later.state = .starting →
        ∃ row, db.jobs.find intake.jobId = some row ∧ row.state = .starting
  unowned : ∀ row ∈ unownedAsks db target, ∃ held, last.ingress.find row.ingressId = some held ∧
    HeldOriginal held ∧ held.eventId = row.eventId ∧ ∀ event, row.eventId = some event →
      (∀ job ∈ last.jobs.rows, job.discordMessageId = some event →
        ∃ old ∈ db.jobs.rows, old.jobId = job.jobId ∧ old.discordMessageId = some event) ∧
      ∀ intake ∈ last.intakes.rows, intake.discordMessageId = some event →
        ∃ old ∈ db.intakes.rows, old.jobId = intake.jobId ∧ old.discordMessageId = some event

theorem Accepted.final {target : String} {db next last : StopDb σ}
    (accepted : Accepted target db next) (kept : WorkKept next last) :
    CoveredFinal target db last where
  queued row member own := by
    have held := accepted.queued row member own
    refine ⟨held.kept kept.holds, ?_⟩
    intro later found starting
    obtain ⟨hold, there, _⟩ := held
    obtain ⟨old, here, starting⟩ := kept.started row.jobId (by rw [there]; rfl) later found starting
    rw [accepted.writes.jobs, Table.find_of_mem member] at here
    cases here
    exact starting
  preparing intake member own := by
    have held := accepted.preparing intake member own
    refine ⟨held.kept kept.holds, ?_⟩
    obtain ⟨hold, there, _⟩ := held
    have isHeld : (next.holds.find intake.jobId).isSome := by
      rw [there]
      rfl
    refine ⟨kept.preparing intake.jobId isHeld ?_, ?_⟩
    · rw [accepted.writes.intakes, Table.find_of_mem member]
      rfl
    · intro later found starting
      obtain ⟨old, here, starting⟩ := kept.started intake.jobId isHeld later found starting
      exact ⟨old, accepted.writes.jobs ▸ here, starting⟩
  unowned row member := by
    obtain ⟨stopped, found, isHeld, event⟩ := accepted.unowned row member
    have there := Table.mem_of_find found
    obtain ⟨held, later, still, same⟩ := kept.originals stopped there isHeld
    rw [Table.find_key found] at later
    refine ⟨held, later, still, same.trans event, ?_⟩
    intro id named
    have covered : StopHeldEvent next id := ⟨stopped, there, isHeld, event.trans named⟩
    constructor
    · intro job inside sent
      rw [← accepted.writes.jobs]
      exact kept.queued id covered job inside sent
    · intro intake inside sent
      rw [← accepted.writes.intakes]
      exact kept.prepared id covered intake inside sent

/-- A stop that fails changes nothing.  An accepted one holds what its target had, and in every run
in which each operation is clean that work stays where it was. -/
theorem accepted_stop_final {hooks : StopHooks σ} {request : StopRequest} {db next : StopDb σ} :
    (∀ error, request.perform hooks db = (.error error, next) → next = db) ∧
    (request.perform hooks db = (.ok true, next) → Accepted request.target db next ∧
      ∀ events last, (FinalRun next events last ↔ CleanRun next events last) ∧
        (CleanRun next events last → CoveredFinal request.target db last)) := by
  refine ⟨fun _ result => perform_unchanged result, ?_⟩
  intro result
  have accepted := perform_accepted result
  refine ⟨accepted, fun events last => ⟨finalRun_iff, ?_⟩⟩
  intro run
  exact accepted.final (finalRun_iff.2 run).kept

/-! ## A waiting job, stopped and started -/

open StopControl in
/-- One pending job on the target of the stop -/
def oneWaiting : StopDb Unit :=
  { oneRunning with
    jobs := ⟨[{ stoppedRow with state := .pending, turnId := none }], List.nodup_singleton _⟩ }

open StopControl in
def waitingStop : StopRequest := .nonrunning stopCall false

def stoppedStore : StopDb Unit := (waitingStop.perform (quietStops .null) oneWaiting).2

theorem waitingStop_accepted :
    waitingStop.perform (quietStops .null) oneWaiting = (.ok true, stoppedStore) :=
  Prod.ext (by decide +kernel) rfl

/-- An ambiguous failure of the stopped job moves it to starting. -/
theorem ambiguous_failure_starts_stopped :
    waitingStop.perform (quietStops .null) oneWaiting = (.ok true, stoppedStore) ∧
    ∃ last : StopDb Unit,
      Run WorkStep stoppedStore [.startFailed quietQueue "job" 3 "lost" true 1] last ∧
      (last.holds.find "job").isSome ∧ (last.jobs.find "job").map (·.state) = some .starting ∧
      ¬CoveredFinal waitingStop.target oneWaiting last := by
  refine ⟨waitingStop_accepted, ?_⟩
  have ran : recordStartFailure quietQueue "job" 3 "lost" true 1 stoppedStore =
      ((recordStartFailure quietQueue "job" 3 "lost" true 1 stoppedStore).1,
        (recordStartFailure quietQueue "job" 3 "lost" true 1 stoppedStore).2) := rfl
  refine ⟨_, .single (.startFailed _ _ _ _ _ _ ran), by decide +kernel, by decide +kernel, ?_⟩
  intro final
  have started : ((recordStartFailure quietQueue "job" 3 "lost" true 1 stoppedStore).2.jobs.find
      "job").map (·.state) = some .starting := by decide +kernel
  obtain ⟨later, found, starting⟩ := Option.map_eq_some_iff.1 started
  have was := (final.queued _ (List.mem_singleton.2 rfl) rfl).2 later found starting
  cases was

/-- Without such a failure the stopped job is not begun. -/
theorem stopped_job_stays : ∃ last : StopDb Unit,
    CleanRun stoppedStore [.began] last ∧ CoveredFinal waitingStop.target oneWaiting last := by
  have ran : tryBeginAttempt quietQueue "job" [] 3 1 stoppedStore =
      ((tryBeginAttempt quietQueue "job" [] 3 1 stoppedStore).1,
        (tryBeginAttempt quietQueue "job" [] 3 1 stoppedStore).2) := rfl
  have run : CleanRun stoppedStore [.began] _ := .single ⟨.began _ _ _ _ _ ran, trivial⟩
  exact ⟨_, run, ((accepted_stop_final.2 waitingStop_accepted).2 _ _).2 run⟩

end CodexRemote.Verified.Stop

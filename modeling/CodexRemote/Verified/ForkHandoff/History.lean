import CodexRemote.Verified.ForkHandoff.Finalize
import CodexRemote.Verified.Queue.Claims

/-! # A fork handoff never changes its target and conserves the queue

Every operation keeps the pinned handoffs, so their history is the same over a whole run.  What one
finalize moves, and when a repeated one succeeds, is read off at the state a run leads to.
-/

namespace CodexRemote.Verified.ForkHandoff

open Foundations Store Store.Fork Verified.Queue

/-! ## Steps -/

inductive ForkCall where
  | begin
  | stage
  | finalize
  | cancel
  | recordAndCancel
  | repair
  | recordFailure
  | recordFinalizeFailure
  | recordCancellationFailure
  | enqueue
  | attempt
  | complete
  | surrounded
deriving DecidableEq, Repr

section

variable {ρ : Type} (hooks : QueueHooks ρ) (forks : ForkHooks ρ)

/-- One call, with any arguments; everything but the handoffs may change around it. -/
inductive HandoffStep : QueueDb ρ → ForkCall → QueueDb ρ → Prop where
  | begin {s} (request now) : HandoffStep s .begin (beginForkHandoff request now s).2
  | stage {s} (handoffId target) : HandoffStep s .stage (stageForkTarget handoffId target s).2
  | finalize {s} (handoffId generation now) :
      HandoffStep s .finalize (finalizeForkHandoff hooks forks handoffId generation now s).2
  | cancel {s} (handoffId) :
      HandoffStep s .cancel (cancelForkHandoffAfterDefiniteFailure handoffId s).2
  | recordAndCancel {s} (expected error now) : HandoffStep s .recordAndCancel
      (recordAndCancelForkHandoffAfterDefiniteFailure hooks expected error now s).2
  | repair {s} (createdAt now) :
      HandoffStep s .repair (repairLegacyDefiniteForkFailures hooks createdAt now s).2
  | recordFailure {s} (handoffId error ambiguous now) : HandoffStep s .recordFailure
      (recordForkHandoffFailure hooks handoffId error ambiguous now s).2
  | recordFinalizeFailure {s} (handoffId error now) : HandoffStep s .recordFinalizeFailure
      (recordForkFinalizeFailure hooks handoffId error now s).2
  | recordCancellationFailure {s} (handoffId forkError cancellationError now) :
      HandoffStep s .recordCancellationFailure
        (recordForkCancellationFailure hooks handoffId forkError cancellationError now s).2
  | enqueue {s} (newJob) : HandoffStep s .enqueue (Store.enqueue hooks newJob s).2
  | attempt {s} (jobId baseline generation now) :
      HandoffStep s .attempt (tryBeginAttempt hooks jobId baseline generation now s).2
  | complete {s} (jobId) : HandoffStep s .complete (completeJob hooks jobId s).2
  | surrounded {s} (next) (same : next.handoffs = s.handoffs) : HandoffStep s .surrounded next

end

section

variable {ρ : Type} {hooks : QueueHooks ρ} {forks : ForkHooks ρ} {db next s t start : QueueDb ρ}
  {handoffId : String} {handoff : ForkHandoff}

/-! ## Every operation keeps the pinned handoffs -/

theorem commit_kept {α ε : Type} {body : QueueDb ρ → Except ε (α × QueueDb ρ)}
    (each : ∀ answer next, body db = .ok (answer, next) → Kept db.handoffs next.handoffs) :
    Kept db.handoffs (commit body db).2.handoffs := by
  obtain same | ⟨answer, next, ran, _, result⟩ := commitWhen_cases (fun _ => true) body db
  · exact .of_eq (congrArg QueueDb.handoffs same)
  · have there : (commit body db).2 = next := congrArg Prod.snd result
    rw [there]
    exact each answer next ran

/-- A call that first checks what it was given -/
theorem checked_kept {α : Type} {valid : Prop} [Decidable valid] {error : ForkHandoffError}
    {body : QueueDb ρ → Except ForkHandoffError (α × QueueDb ρ)}
    (each : ∀ answer next, body db = .ok (answer, next) → Kept db.handoffs next.handoffs) :
    Kept db.handoffs
      (commit (fun db => if valid then body db else .error error) db).2.handoffs := by
  refine commit_kept fun answer next result => ?_
  obtain ⟨_, result⟩ | ⟨_, failed⟩ := ite_ok.1 result
  · exact each answer next result
  · cases failed

theorem begin_kept (request : NewForkHandoff) (now : Rat) :
    Kept db.handoffs (beginForkHandoff request now db).2.handoffs := by
  refine commit_kept fun answer next result => ?_
  obtain ⟨_, valid, result⟩ := bind_ok.1 result
  have named : validIdentity request.handoffId = true := by
    rw [validateBegin] at valid
    obtain ⟨valid, _⟩ | ⟨_, failed⟩ := ite_ok.1 valid
    · simp only [Bool.and_eq_true] at valid
      exact valid.1.1
    · cases failed
  obtain ⟨_, _, result⟩ := bind_ok.1 result
  obtain ⟨existing, _, result⟩ := bind_ok.1 result
  cases existing with
  | some existing =>
    cases result
    exact .refl _
  | none =>
    obtain ⟨_, _, result⟩ := bind_ok.1 result
    obtain ⟨_, _, result⟩ := bind_ok.1 result
    obtain ⟨⟨channel, thread⟩, _, result⟩ := bind_ok.1 result
    cases result
    constructor
    · intro other row found _
      refine ⟨row, ?_, .refl row⟩
      rw [Table.find_insertOrIgnore, found]
      split <;> rfl
    · intro sound row member
      have found := Table.find_of_mem member
      rw [Table.find_insertOrIgnore] at found
      split at found
      · cases old : db.handoffs.find row.handoffId with
        | none =>
          rw [old] at found
          cases found
          exact ⟨by rintro _ ⟨⟩, named⟩
        | some before =>
          rw [old] at found
          cases found
          exact sound _ (Table.mem_of_find old)
      · exact sound row (Table.mem_of_find found)

theorem stage_kept (handoffId target : String) :
    Kept db.handoffs (stageForkTarget handoffId target db).2.handoffs := by
  refine checked_kept fun answer next result => ?_
  obtain ⟨handoff, _, result⟩ := bind_ok.1 result
  split at result
  · obtain ⟨_, result⟩ := guard_ok.1 result
    cases result
    exact .refl _
  · generalize statement : markTargetObserved db handoffId target = marked at result
    obtain ⟨count, after⟩ := marked
    obtain ⟨_, result⟩ := guard_ok.1 result
    obtain ⟨staged, _, result⟩ := bind_ok.1 result
    cases result
    exact markTargetObserved_kept statement

theorem finalize_kept (handoffId : String) (generation : Int) (now : Rat) :
    Kept db.handoffs (finalizeForkHandoff hooks forks handoffId generation now db).2.handoffs := by
  refine checked_kept fun answer next result => ?_
  obtain ⟨_, same⟩ | ⟨_, kept, _⟩ := finalizeIn_cases result
  · exact .of_eq (congrArg QueueDb.handoffs same)
  · exact kept

/-- A handoff that may be cancelled is neither ambiguous nor observed. -/
theorem validateCancellable_ok {done : Unit} (result : validateCancellable handoff = .ok done) :
    handoff.forkFailureAmbiguous = false := by
  rw [validateCancellable] at result
  obtain ⟨unmarked, _⟩ := guard_ok.1 result
  exact Bool.not_eq_true _ ▸ unmarked

theorem cancel_kept (handoffId : String) :
    Kept db.handoffs (cancelForkHandoffAfterDefiniteFailure handoffId db).2.handoffs := by
  refine checked_kept fun answer next result => ?_
  rw [cancelIn] at result
  cases found : byId db handoffId with
  | none =>
    rw [found] at result
    cases result
    exact .refl _
  | some handoff =>
    rw [found] at result
    obtain ⟨_, valid, result⟩ := bind_ok.1 result
    generalize statement : cancelUnobserved db handoffId = removed at result
    obtain ⟨count, after⟩ := removed
    obtain ⟨_, result⟩ := guard_ok.1 result
    cases result
    refine cancelUnobserved_kept statement fun h there => ?_
    have same : some handoff = some h := found.symm.trans there
    cases same
    exact validateCancellable_ok valid

theorem cancelRecordedIn_kept {error : String} {now : Rat} {answer : RecordedDefiniteForkFailure}
    (found : db.handoffs.find handoff.handoffId = some handoff)
    (unmarked : handoff.forkFailureAmbiguous = false)
    (result : cancelRecordedIn hooks handoff error now db = .ok (answer, next)) :
    Kept db.handoffs next.handoffs := by
  rw [cancelRecordedIn] at result
  generalize statement : recordForkFailure db handoff.handoffId error false = recorded at result
  obtain ⟨count, marked⟩ := recorded
  obtain ⟨_, failed⟩ | ⟨one, result⟩ := ite_ok.1 result
  · cases failed
  obtain ⟨⟨affected, told⟩, notices, result⟩ := bind_ok.1 result
  dsimp only at result
  generalize cancel : cancelUnobserved told handoff.handoffId = removed at result
  obtain ⟨gone, after⟩ := removed
  obtain ⟨_, failed⟩ | ⟨_, result⟩ := ite_ok.1 result
  · cases failed
  cases result
  have same := stageDefiniteNotices_handoffs notices
  have first := recordForkFailure_kept statement
  rw [not_not.1 (mt bne_iff_ne.2 one)] at statement
  obtain ⟨row, there, _, written⟩ := updateHandoff_one statement
  rw [found] at there
  cases there
  refine first.trans (same ▸ cancelUnobserved_kept cancel fun h held => ?_)
  rw [same, written] at held
  cases held
  simp only [unmarked, Bool.or_self]

theorem validateDefinite_ok {done : Unit} (result : validateDefinite handoff = .ok done) :
    handoff.forkFailureAmbiguous = false := by
  obtain ⟨_, valid, _⟩ := bind_ok.1 result
  exact validateCancellable_ok valid

theorem recordAndCancel_kept (expected : ForkHandoff) (error : String) (now : Rat) :
    Kept db.handoffs
      (recordAndCancelForkHandoffAfterDefiniteFailure hooks expected error now db).2.handoffs := by
  refine checked_kept fun answer next result => ?_
  obtain ⟨current, found, result⟩ := bind_ok.1 result
  obtain ⟨_, valid, result⟩ := bind_ok.1 result
  obtain ⟨_, failed⟩ | ⟨same, result⟩ := ite_ok.1 result
  · cases failed
  have there := byIdOr_ok found
  rw [← Table.find_key there] at there
  exact cancelRecordedIn_kept there (validateDefinite_ok valid) result

theorem repairIn_kept {now : Rat} {ids : List String} {answer : List RecordedDefiniteForkFailure}
    (result : repairIn hooks now ids db = .ok (answer, next)) :
    Kept db.handoffs next.handoffs := by
  induction ids generalizing db answer with
  | nil =>
    cases result
    exact .refl _
  | cons handoffId rest ih =>
    obtain ⟨handoff, found, result⟩ := bind_ok.1 result
    obtain ⟨_, valid, result⟩ := bind_ok.1 result
    obtain ⟨⟨repaired, middle⟩, first, result⟩ := bind_ok.1 result
    obtain ⟨⟨others, last⟩, later, result⟩ := bind_ok.1 result
    cases result
    have there := byIdOr_ok found
    rw [← Table.find_key there] at there
    exact (cancelRecordedIn_kept there (validateDefinite_ok valid) first).trans (ih later)

theorem recordFailure_kept (handoffId error : String) (ambiguous : Bool) (now : Rat) :
    Kept db.handoffs
      (recordForkHandoffFailure hooks handoffId error ambiguous now db).2.handoffs := by
  refine checked_kept fun answer next result => ?_
  obtain ⟨handoff, _, result⟩ := bind_ok.1 result
  obtain ⟨_, _, result⟩ := bind_ok.1 result
  dsimp only at result
  generalize statement : recordForkFailure db handoffId (boundedForkError error) ambiguous =
    recorded at result
  obtain ⟨count, marked⟩ := recorded
  obtain ⟨_, failed⟩ | ⟨_, result⟩ := ite_ok.1 result
  · cases failed
  have same : next.handoffs = marked.handoffs := by
    obtain ⟨_, result⟩ | ⟨_, result⟩ := ite_ok.1 result
    · obtain ⟨told, notices, result⟩ := bind_ok.1 result
      obtain ⟨_, _, result⟩ := bind_ok.1 result
      cases result
      exact stageUnresolvedNotices_handoffs notices
    · obtain ⟨_, same, result⟩ := bind_ok.1 result
      cases same
      obtain ⟨_, _, result⟩ := bind_ok.1 result
      cases result
      rfl
  exact same ▸ recordForkFailure_kept statement

/-- An update that adds an error, or the mark, to a handoff -/
theorem annotated_kept {condition : ForkHandoff → Bool} {error : String} {mark : Bool} {count : Nat}
    {assign : ForkHandoff → ForkHandoff} {keeps : ∀ h, (assign h).handoffId = h.handoffId}
    (statement : updateHandoff db handoffId condition assign keeps = (count, next))
    (assigns : ∀ h, assign h = { h with
      lastForkError := error
      forkFailureAmbiguous := h.forkFailureAmbiguous || mark }) :
    Kept db.handoffs next.handoffs := by
  refine updateHandoff_kept statement (fun h _ => ?_) (fun h _ row => ?_)
  · rw [assigns]
    refine ⟨rfl, rfl, rfl, rfl, fun marked => ?_, fun _ seen => seen, fun _ done => ⟨done, rfl⟩⟩
    simp only [marked, Bool.true_or]
  · rw [assigns]
    exact ⟨row.final, row.named⟩

theorem recordFinalizeFailure_kept (handoffId error : String) (now : Rat) :
    Kept db.handoffs (recordForkFinalizeFailure hooks handoffId error now db).2.handoffs := by
  refine checked_kept fun answer next result => ?_
  obtain ⟨handoff, _, result⟩ := bind_ok.1 result
  split at result
  · cases result
  · obtain ⟨_, failed⟩ | ⟨_, result⟩ := ite_ok.1 result
    · cases failed
    dsimp only at result
    generalize statement : updateHandoff db handoffId _ _ _ = recorded at result
    obtain ⟨count, marked⟩ := recorded
    obtain ⟨_, failed⟩ | ⟨_, result⟩ := ite_ok.1 result
    · cases failed
    obtain ⟨told, notices, result⟩ := bind_ok.1 result
    obtain ⟨_, _, result⟩ := bind_ok.1 result
    cases result
    have same := stageUnresolvedNotices_handoffs notices
    rw [same]
    refine @annotated_kept _ _ _ _ _ (boundedForkError error) false _ _ _ statement fun h => ?_
    rw [Bool.or_false]

theorem recordCancellationFailure_kept (handoffId forkError cancellationError : String) (now : Rat) :
    Kept db.handoffs
      (recordForkCancellationFailure hooks handoffId forkError cancellationError now db).2.handoffs := by
  refine checked_kept fun answer next result => ?_
  obtain ⟨handoff, _, result⟩ := bind_ok.1 result
  split at result
  · cases result
  · dsimp only at result
    generalize statement : updateHandoff db handoffId _ _ _ = recorded at result
    obtain ⟨count, marked⟩ := recorded
    obtain ⟨_, failed⟩ | ⟨_, result⟩ := ite_ok.1 result
    · cases failed
    obtain ⟨told, notices, result⟩ := bind_ok.1 result
    obtain ⟨_, _, result⟩ := bind_ok.1 result
    cases result
    rw [stageUnresolvedNotices_handoffs notices]
    refine @annotated_kept _ _ _ _ _ (combinedError forkError cancellationError
      handoff.lastForkError) true _ _ _ statement fun h => ?_
    rw [Bool.or_true]

/-- What an insert and a claim write is not among the handoffs. -/
theorem enqueue_kept (newJob : NewQueueJob) :
    Kept db.handoffs (Store.enqueue hooks newJob db).2.handoffs := by
  refine commit_kept fun answer next result => ?_
  obtain ⟨rest, _, result⟩ := bind_ok.1 result
  obtain ⟨_, _, result⟩ := bind_ok.1 result
  obtain ⟨_, failed⟩ | ⟨_, result⟩ := ite_ok.1 result
  · cases failed
  obtain ⟨_, _, result⟩ := bind_ok.1 result
  obtain ⟨_, _, result⟩ := bind_ok.1 result
  obtain ⟨⟨created, after⟩, inserted, result⟩ := bind_ok.1 result
  obtain ⟨job, _, result⟩ := bind_ok.1 result
  cases result
  refine .of_eq ?_
  rw [insertJob] at inserted
  obtain ⟨_, failed⟩ | ⟨_, inserted⟩ := ite_ok.1 inserted
  · cases failed
  split at inserted
  · cases inserted
  · obtain ⟨_, inserted⟩ | ⟨_, inserted⟩ := ite_ok.1 inserted
    · cases inserted
      rfl
    · cases inserted
      rfl

theorem attempt_kept (jobId : String) (baseline : List String) (generation : Int) (now : Rat) :
    Kept db.handoffs (tryBeginAttempt hooks jobId baseline generation now db).2.handoffs := by
  refine commit_kept fun answer next result => .of_eq ?_
  have call : tryBeginAttempt hooks jobId baseline generation now db = (.ok answer, next) := by
    rw [tryBeginAttempt, commit, commitWhen, result]
    rfl
  obtain ⟨_, same⟩ | ⟨_, _, _, _, _, _, _, _, _, only, _⟩ := tryBeginAttempt_spec call
  · rw [same]
  · obtain ⟨rest, frame⟩ := only
    rw [frame]

theorem complete_kept (jobId : String) :
    Kept db.handoffs (completeJob hooks jobId db).2.handoffs := by
  refine commit_kept fun answer next result => .of_eq ?_
  obtain ⟨_, result⟩ | ⟨_, result⟩ := ite_ok.1 result
  · cases result
    rfl
  · obtain ⟨⟨removed, after⟩, deleted, same⟩ := map_ok.1 result
    cases same
    simp only [deleteJob] at deleted
    split at deleted
    · cases deleted
    · cases deleted
      rfl

theorem step_kept {call : ForkCall} (step : HandoffStep hooks forks s call t) :
    Kept s.handoffs t.handoffs := by
  cases step with
  | begin request now => exact begin_kept request now
  | stage handoffId target => exact stage_kept handoffId target
  | finalize handoffId generation now => exact finalize_kept handoffId generation now
  | cancel handoffId => exact cancel_kept handoffId
  | recordAndCancel expected error now => exact recordAndCancel_kept expected error now
  | repair createdAt now => exact commit_kept fun _ _ => repairIn_kept
  | recordFailure handoffId error ambiguous now =>
    exact recordFailure_kept handoffId error ambiguous now
  | recordFinalizeFailure handoffId error now => exact recordFinalizeFailure_kept handoffId error now
  | recordCancellationFailure handoffId forkError cancellationError now =>
    exact recordCancellationFailure_kept handoffId forkError cancellationError now
  | enqueue newJob => exact enqueue_kept newJob
  | attempt jobId baseline generation now => exact attempt_kept jobId baseline generation now
  | complete jobId => exact complete_kept jobId
  | surrounded next same => exact .of_eq same

theorem run_kept {calls : List ForkCall} (run : Run (HandoffStep hooks forks) s calls t) :
    Kept s.handoffs t.handoffs := by
  induction run with
  | nil s => exact .refl _
  | cons first _ ih => exact (step_kept first).trans ih

/-- Both transactions of `complete_app_server_fork_handoff` are steps. -/
theorem complete_run (handoffId target : String) (generation : Int) (now : Rat) :
    ∃ calls, Run (HandoffStep hooks forks) s calls
      (completeForkHandoff hooks forks handoffId target generation now s).2 := by
  rw [completeForkHandoff]
  cases staged : stageForkTarget handoffId target s with
  | mk answer after =>
    have first : HandoffStep hooks forks s .stage after := by
      have step : HandoffStep hooks forks s .stage _ := .stage handoffId target
      rwa [staged] at step
    cases answer with
    | error => exact ⟨_, .single first⟩
    | ok => exact ⟨_, .cons first (.single (.finalize handoffId generation now))⟩

/-! ## What a finalize conserves -/

/-- What identifies a request, and its place in the list order -/
def request (row : QueueRow) : String × Option Int × Rat :=
  (row.jobId, row.discordMessageId, row.createdAt)

theorem finalizedRow_request (target : String) (generation : Int) (now : Rat) (row : QueueRow) :
    request (finalizedRow db handoff target generation now row) = request row := by
  rw [finalizedRow]
  split
  · rfl
  · split <;> rfl

theorem listOrder_request {a b c d : QueueRow} (left : request a = request c)
    (right : request b = request d) : listOrder a b = listOrder c d := by
  obtain ⟨leftId, left⟩ := Prod.mk.inj left
  obtain ⟨_, leftAt⟩ := Prod.mk.inj left
  obtain ⟨rightId, right⟩ := Prod.mk.inj right
  obtain ⟨_, rightAt⟩ := Prod.mk.inj right
  rw [listOrder, listOrder, leftId, leftAt, rightId, rightAt]

variable {target : String} {generation : Int} {now : Rat} {answer : CompletedForkHandoff}

/-- After the transaction the target's pending rows are those that moved. -/
theorem Finalized.pending
    (finalized : Finalized handoffId generation now db answer next handoff target) :
    ∀ row ∈ db.jobs.rows, pendingOn target (finalizedRow db handoff target generation now row) =
      movable db handoff.sourceThreadId row := by
  intro row member
  rw [finalizedRow]
  by_cases named : handoff.ambiguousJobId = some row.jobId
  · rw [if_pos named]
    obtain ⟨starting, found, holds⟩ := finalized.named row.jobId named
    have same : row = starting :=
      Option.some.inj ((Table.find_of_mem member).symm.trans found)
    subst same
    simp only [startingNamed, Bool.and_eq_true, beq_iff_eq] at holds
    have state : (row.state == .pending) = false := by
      rw [holds.1.2]
      rfl
    have running : (RawQueueState.running == RawQueueState.pending) = false := rfl
    simp only [pendingOn, quarantinedAs, quarantineRow, running, movable, state, Bool.and_false,
      Bool.false_and]
  · rw [if_neg named]
    cases moves : movable db handoff.sourceThreadId row with
    | true =>
      simp only [movable, pendingOn, Bool.and_eq_true] at moves
      rw [if_pos rfl]
      simp only [pendingOn, retargetRow, moves.1.2, beq_self_eq_true, Bool.and_self]
    | false =>
      rw [if_neg Bool.false_ne_true]
      simp only [pendingOn, beq_eq_false_iff_ne.2 (finalized.unused row member), Bool.false_and]

/-- The pending jobs of the source are those of the target afterwards, in the same order. -/
theorem Finalized.order
    (finalized : Finalized handoffId generation now db answer next handoff target) :
    pendingIds next target =
      ((db.jobs.select (movable db handoff.sourceThreadId)).mergeSort listOrder).map (·.jobId) := by
  have moved : next.jobs.select (pendingOn target) =
      (db.jobs.select (movable db handoff.sourceThreadId)).map
        (finalizedRow db handoff target generation now) := by
    rw [Table.select, finalized.rows, List.filter_map, Table.select]
    exact congrArg _ (List.filter_congr finalized.pending)
  rw [pendingIds, moved, ← List.map_mergeSort (fun a _ b _ =>
      (listOrder_request (finalizedRow_request target generation now a)
        (finalizedRow_request target generation now b)).symm), List.map_map]
  refine List.map_congr_left fun row _ => ?_
  exact congrArg Prod.fst (finalizedRow_request target generation now row)

/-! ## Main result -/

/-- The job that a handoff names is still there, and its row can be read. -/
def Readable (db : QueueDb ρ) (handoff : ForkHandoff) : Prop :=
  ∀ job, handoff.ambiguousJobId = some job → ∃ stored, selectJob db job = .ok stored

/-- Finalizing a completed handoff changes nothing, and succeeds when its job can be read. -/
theorem finalize_again (named : validIdentity handoffId = true)
    (found : db.handoffs.find handoffId = some handoff)
    (completed : handoff.targetThreadId.isSome = true) (generation : Int) (now : Rat) :
    (finalizeForkHandoff hooks forks handoffId generation now db).2 = db ∧
      ((∃ quarantined, (finalizeForkHandoff hooks forks handoffId generation now db).1 =
        .ok ⟨handoff, quarantined, [], false⟩) ↔ Readable db handoff) := by
  have first : byIdOr db handoffId handoffId = .ok handoff := by
    rw [byIdOr, byId, found]
  rw [finalizeForkHandoff, commit, commitWhen]
  simp only [named, if_true, finalizeIn, first, completed, bind, Except.bind]
  cases job : handoff.ambiguousJobId with
  | none =>
    refine ⟨rfl, fun _ other same => ?_, fun _ => ⟨none, rfl⟩⟩
    rw [job] at same
    cases same
  | some jobId =>
    cases selected : selectJob db jobId with
    | error error =>
      simp only [ofStore, selected, Except.mapError]
      refine ⟨trivial, fun answered => ?_, fun readable => ?_⟩
      · obtain ⟨_, answered⟩ := answered
        cases answered
      · obtain ⟨stored, read⟩ := readable jobId job
        rw [selected] at read
        cases read
    | ok stored =>
      simp only [ofStore, selected, Except.mapError]
      refine ⟨trivial, fun _ other same => ?_, fun _ => ⟨some stored, rfl⟩⟩
      rw [job] at same
      cases same
      exact ⟨stored, selected⟩

/-- For every run: a pinned handoff stays, with its mark, its observed target and its final one; a
final target is the observed one; an applied finalize moves the pending jobs of the source and
nothing else, and quarantines the job it names; and a repeated one changes nothing, and succeeds
just when the job that the handoff names can still be read. -/
theorem fork_handoff (sound : Sound start.handoffs) {calls : List ForkCall}
    (run : Run (HandoffStep hooks forks) start calls s) :
    (∀ handoffId handoff, start.handoffs.find handoffId = some handoff → Pinned handoff →
      ∃ later, s.handoffs.find handoffId = some later ∧ Follows handoff later) ∧
    (∀ handoff ∈ s.handoffs.rows, ∀ target, handoff.targetThreadId = some target →
      handoff.observedTargetThreadId = some target) ∧
    (∀ handoffId generation now answer next,
      finalizeForkHandoff hooks forks handoffId generation now s = (.ok answer, next) →
      answer.applied = true → ∃ handoff target,
        Finalized handoffId generation now s answer next handoff target ∧
        next.jobs.rows.map request = s.jobs.rows.map request ∧
        pendingIds next target =
          ((s.jobs.select (movable s handoff.sourceThreadId)).mergeSort listOrder).map (·.jobId)) ∧
    ∀ handoffId handoff generation now, s.handoffs.find handoffId = some handoff →
      handoff.targetThreadId.isSome = true →
      (finalizeForkHandoff hooks forks handoffId generation now s).2 = s ∧
        ((∃ quarantined, (finalizeForkHandoff hooks forks handoffId generation now s).1 =
          .ok ⟨handoff, quarantined, [], false⟩) ↔ Readable s handoff) := by
  have kept := run_kept run
  refine ⟨kept.pinned, fun handoff member => (kept.sound sound handoff member).final, ?_, ?_⟩
  · intro handoffId generation now answer next call applied
    have result := commit_ok call
    obtain ⟨_, result⟩ | ⟨_, failed⟩ := ite_ok.1 result
    · obtain ⟨unapplied, _⟩ | ⟨_, _, handoff, target, finalized⟩ := finalizeIn_cases result
      · rw [applied] at unapplied
        cases unapplied
      · refine ⟨handoff, target, finalized, ?_, finalized.order⟩
        rw [finalized.rows, List.map_map]
        exact List.map_congr_left fun row _ => finalizedRow_request target generation now row
    · cases failed
  · intro handoffId handoff generation now found completed
    have named := (kept.sound sound handoff (Table.mem_of_find found)).named
    rw [Table.find_key found] at named
    exact finalize_again named found completed generation now

end

/-! ## A handoff whose job has ended -/

def quietForks : ForkHooks Unit where
  detailUsed _ _ := false
  moveSessionDetail _ _ _ := .ok ()
  fenceMapping _ _ _ := none
  mappingFrozen _ _ := false
  fenceNoticeDelete _ _ := none

def followingRow : QueueRow := { waitingRow with jobId := "job-2" }

/-- A job whose start nobody has heard of for more than two minutes, and one that waits behind it -/
def uncertainStart : QueueDb Unit :=
  { onlyJob begunRow with jobs := ⟨[begunRow, followingRow], by decide⟩ }

def uncertainFork : NewForkHandoff := ⟨"handoff", some "job", "thread", 3, "uncertain start"⟩

def forkBegun : QueueDb Unit := (beginForkHandoff uncertainFork 200 uncertainStart).2

def forkStaged : QueueDb Unit := (stageForkTarget "handoff" "fork" forkBegun).2

def forkFinalized : QueueDb Unit :=
  (finalizeForkHandoff quietHooks quietForks "handoff" 4 300 forkStaged).2

def forkEnded : QueueDb Unit := (completeJob quietHooks "job" forkFinalized).2

def forkDone : ForkHandoff :=
  ⟨"handoff", some "job", "thread", 3, 0, 0, "uncertain start", "", false, some "fork", some "fork",
    some 4⟩

def quarantinedJob : StoredQueueJob :=
  { decoded begunRow with
    state := .quarantined
    turnId := some "cdr-quarantined:handoff"
    lastError := "[cdr-rust:app-server-fork-quarantine:v1] uncertain start"
    updatedAt := 300 }

def movedJob : StoredQueueJob :=
  { decoded followingRow with targetThreadId := "fork", appServerGeneration := 4, updatedAt := 300 }

theorem uncertainStart_sound : Sound uncertainStart.handoffs := fun _ member => nomatch member

theorem staged_run : Run (HandoffStep quietHooks quietForks) uncertainStart [.begin, .stage]
    forkStaged := .cons (.begin uncertainFork 200) (.single (.stage "handoff" "fork"))

theorem finalize_ran : finalizeForkHandoff quietHooks quietForks "handoff" 4 300 forkStaged =
    (.ok ⟨forkDone, some quarantinedJob, [movedJob], true⟩, forkFinalized) :=
  Prod.ext (by decide +kernel) rfl

theorem fork_found : forkFinalized.handoffs.find "handoff" = some forkDone := by decide +kernel

/-- The waiting job moves, and the handoff can be finalized again to no effect. -/
theorem fork_moved : (∃ handoff target,
    Finalized "handoff" 4 300 forkStaged ⟨forkDone, some quarantinedJob, [movedJob], true⟩
      forkFinalized handoff target ∧
    forkFinalized.jobs.rows.map request = forkStaged.jobs.rows.map request ∧
    pendingIds forkFinalized target = ((forkStaged.jobs.select
      (movable forkStaged handoff.sourceThreadId)).mergeSort listOrder).map (·.jobId)) ∧
    pendingIds forkFinalized "fork" = ["job-2"] ∧
    (finalizeForkHandoff quietHooks quietForks "handoff" 4 400 forkFinalized).2 = forkFinalized ∧
    ∃ quarantined, (finalizeForkHandoff quietHooks quietForks "handoff" 4 400 forkFinalized).1 =
      .ok ⟨forkDone, quarantined, [], false⟩ := by
  refine ⟨(fork_handoff uncertainStart_sound staged_run).2.2.1 "handoff" 4 300 _ forkFinalized
    finalize_ran rfl, by decide +kernel, ?_⟩
  have run : Run (HandoffStep quietHooks quietForks) uncertainStart ([.begin, .stage] ++ [.finalize])
      forkFinalized := staged_run.append (.single (.finalize "handoff" 4 300))
  -- the quarantined job is still in the queue, so the second finalize answers from the record
  obtain ⟨same, again⟩ :=
    (fork_handoff uncertainStart_sound run).2.2.2 "handoff" forkDone 4 400 fork_found rfl
  refine ⟨same, again.2 fun job named => ?_⟩
  cases named
  exact ⟨quarantinedJob, by decide +kernel⟩

/-- Once the quarantined job is gone, a repeated finalize fails. -/
theorem finalize_not_repeated : ¬ ∀ calls (s : QueueDb Unit),
    Run (HandoffStep quietHooks quietForks) uncertainStart calls s →
    ∀ handoffId handoff generation now, s.handoffs.find handoffId = some handoff →
      handoff.targetThreadId.isSome = true → ∃ quarantined,
        (finalizeForkHandoff quietHooks quietForks handoffId generation now s).1 =
          .ok ⟨handoff, quarantined, [], false⟩ := by
  intro claimed
  have run : Run (HandoffStep quietHooks quietForks) uncertainStart
      ([.begin, .stage] ++ [.finalize, .complete]) forkEnded :=
    staged_run.append (.cons (.finalize "handoff" 4 300) (.single (.complete "job")))
  have found : forkEnded.handoffs.find "handoff" = some forkDone := by decide +kernel
  have failed : (finalizeForkHandoff quietHooks quietForks "handoff" 4 400 forkEnded).1 =
      .error (.store (.queueJobNotFound "job")) := by decide +kernel
  obtain ⟨quarantined, answered⟩ := claimed _ _ run "handoff" forkDone 4 400 found rfl
  rw [failed] at answered
  cases answered

end CodexRemote.Verified.ForkHandoff

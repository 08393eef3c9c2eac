import CodexRemote.Verified.AsyncQuestion.System
import CodexRemote.Verified.Cancellation.Recovery

/-! # The job that is reserved for an answer

While an answer that starts a turn is dispatched, its job is the one job of its thread.  The
operations of the queue pass over it, and no other request of the thread gets into the queue.
-/

namespace CodexRemote.Verified.AsyncQuestion

open Foundations Store Store.AsyncQuestion
open Verified.Queue (QueueEvent QueueStep queueStep_moves JobMove JobsMove HeldBy
  enqueueIn_ok updateIngress_only sameRequest_iff recordNewEvidence_ok)
open Verified.PromptIntake (promote_spec Promotion)
open Verified.Cancellation (insertCancellation_ok cancelCandidate_cases cancelLatest_cases)

variable {ρ : Type}

/-! ## What the queue leaves alone -/

/-- Running jobs stay as they are, and a request joins only a thread without a dispatched answer. -/
structure ActiveKept (db : AsyncDb ρ) (next : QueueDb ρ) : Prop where
  kept : ∀ id row, db.queue.jobs.find id = some row → row.state = .running →
    next.jobs.find id = some row
  old : ∀ row ∈ next.jobs.rows, (∃ before ∈ db.queue.jobs.rows, before.jobId = row.jobId ∧
    before.targetThreadId = row.targetThreadId) ∨ dispatchHeldIn db row.targetThreadId = false

theorem ActiveKept.of_same {db : AsyncDb ρ} {next : QueueDb ρ} (same : next.jobs = db.queue.jobs) :
    ActiveKept db next where
  kept _ _ found _ := same ▸ found
  old row there := Or.inl ⟨row, same ▸ there, rfl, rfl⟩

/-- A running job is neither pending nor starting, so no claim moves it. -/
theorem JobMove.running {row later : QueueRow} {event : QueueEvent} (move : JobMove row event later)
    (running : row.state = .running) : later = row := by
  cases move with
  | still => rfl
  | begin pending => rw [running] at pending; cases pending
  | failPreflight pending => rw [running] at pending; cases pending
  | adopt pending => rw [running] at pending; cases pending
  | run _ holds =>
    have starting := holds.state
    rw [running] at starting
    cases starting
  | failStart _ holds =>
    have starting := holds.state
    rw [running] at starting
    cases starting
  | mark _ holds =>
    have starting := holds.state
    rw [running] at starting
    cases starting
  | refresh => rfl

theorem JobMove.target {row later : QueueRow} {event : QueueEvent} (move : JobMove row event later) :
    later.targetThreadId = row.targetThreadId := by
  cases move <;> rfl

variable {db : AsyncDb ρ} {next : QueueDb ρ} {hooks : QueueHooks ρ}

theorem ActiveKept.of_moves {event : QueueEvent}
    (moves : JobsMove db.queue event next) : ActiveKept db next where
  kept id row found running := by
    obtain ⟨later, after, move⟩ := moves.moved id row found
    rw [JobMove.running move running] at after
    exact after
  old later there := by
    left
    cases found : db.queue.jobs.find later.jobId with
    | none =>
      have gone := moves.absent later.jobId found
      rw [Table.find_of_mem there] at gone
      cases gone
    | some row =>
      obtain ⟨after, same, move⟩ := moves.moved later.jobId row found
      rw [Table.find_of_mem there, Option.some.injEq] at same
      subst same
      exact ⟨row, Table.mem_of_find found, Table.find_key found, (JobMove.target move).symm⟩

/-- A new request of a thread without a dispatched answer -/
theorem ActiveKept.of_append {newJob : NewQueueJob}
    (rows : next.jobs.rows = db.queue.jobs.rows ++ [newJob.row]) (absent : ∀ r ∈ db.queue.jobs.rows,
      sameRequest newJob.jobId newJob.discordMessageId r.jobId r.discordMessageId = false)
    (free : dispatchHeldIn db newJob.targetThreadId = false) : ActiveKept db next where
  kept id row found _ := by
    rw [Table.find_append rows]
    refine (if_neg fun same => ?_).trans found
    have apart := absent row (Table.mem_of_find found)
    have named : row.jobId = newJob.jobId := (Table.find_key found).trans same.symm
    rw [sameRequest_iff.2 (Or.inl named)] at apart
    cases apart
  old row there := by
    rw [rows] at there
    obtain old | new := List.mem_append.1 there
    · exact Or.inl ⟨row, old, rfl, rfl⟩
    · rw [List.mem_singleton.1 new]
      exact Or.inr free

theorem ActiveKept.of_enqueueIn {newJob : NewQueueJob} {answer : QueueEnqueueResult}
    (result : enqueueIn (db.hooks hooks) newJob db.queue = .ok (answer, next)) :
    ActiveKept db next := by
  obtain ⟨_, _, free⟩ := enqueueIn_records result
  obtain ⟨_, _, _, inserted, _⟩ := enqueueIn_ok result
  obtain ⟨_, rows, absent⟩ | ⟨_, same⟩ := inserted
  · exact .of_append rows absent free
  · exact .of_same same

theorem promoteIn_enqueues {claim : PromptIntakeClaim} {newJob : NewQueueJob}
    {now : Timestamp} {db : QueueDb ρ} {answer : QueueEnqueueResult}
    (result : promoteIn hooks claim newJob now db = .ok (answer, next)) :
    ∃ store, enqueueIn hooks newJob db = .ok (answer, store) ∧ next.jobs = store.jobs := by
  unfold promoteIn at result
  split at result
  · cases result
  obtain ⟨_, _, result⟩ := bind_ok.1 result
  split at result
  · cases result
  obtain ⟨_, _, result⟩ := bind_ok.1 result
  obtain ⟨_, _, result⟩ := bind_ok.1 result
  obtain ⟨_, _, result⟩ := bind_ok.1 result
  obtain ⟨_, _, result⟩ := bind_ok.1 result
  obtain ⟨_, _, result⟩ := bind_ok.1 result
  obtain ⟨_, _, result⟩ := bind_ok.1 result
  obtain ⟨⟨enqueued, store⟩, insertion, result⟩ := bind_ok.1 result
  obtain ⟨_, _, result⟩ := bind_ok.1 result
  obtain ⟨recorded, evidence, result⟩ := bind_ok.1 result
  obtain ⟨⟨removed, cleared⟩, deletion, result⟩ := bind_ok.1 result
  obtain ⟨_, result⟩ := guard_ok.1 result
  cases result
  obtain ⟨_, rfl⟩ := PromptIntake.deleteIntakes_ok deletion
  exact ⟨store, insertion, (recordNewEvidence_ok evidence).jobs⟩

/-! ## Cancelling the latest request -/

theorem deleteRequest_active {store : QueueDb ρ}
    {kind : RequestKind} {job : String} {removed : Nat} (same : store.jobs = db.queue.jobs)
    (pending : kind = .queue → ∀ row, db.queue.jobs.find job = some row → row.state = .pending)
    (result : deleteRequest hooks store kind job = .ok (removed, next)) : ActiveKept db next := by
  cases kind with
  | ingress | intake =>
    obtain ⟨_, rfl⟩ := PromptIntake.deleteIntakes_ok result
    exact .of_same same
  | queue =>
    unfold deleteRequest deleteJob at result
    dsimp only at result
    split at result
    · cases result
    · cases result
      refine ⟨fun id row found running => ?_, fun row there => ?_⟩
      · rw [Table.find_delete, same, found]
        have kept : row.jobId ≠ job := by
          intro named
          have waits := pending rfl row (named ▸ Table.find_of_mem (Table.mem_of_find found))
          rw [running] at waits
          cases waits
        simp [Option.filter, kept]
      · exact Or.inl ⟨row, same ▸ (List.mem_filter.1 there).1, rfl, rfl⟩

/-- An eligible candidate of the queue has not started. -/
theorem candidate_pending {db : QueueDb ρ} {target : String} {channel owner : Int}
    {selected : Candidate} (found : (candidates db target channel owner).find? (·.eligible) = some selected)
    (kind : selected.kind = .queue) {row : QueueRow} (there : db.jobs.find selected.job = some row) :
    row.state = .pending := by
  have member := List.mem_of_find?_eq_some found
  have eligible : selected.eligible = true := List.find?_some found
  simp only [candidates, List.mem_mergeSort, List.mem_append] at member
  obtain (queued | prepared) | staged := member
  · obtain ⟨r, listed, rfl⟩ := List.mem_map.1 queued
    have own := Option.some.inj (there.symm.trans (Table.find_of_mem (List.mem_filter.1 listed).1))
    simp only [QueueRow.unsent, Bool.and_eq_true, beq_iff_eq] at eligible
    rw [own]
    exact eligible.1.1
  · obtain ⟨r, _, rfl⟩ := List.mem_map.1 prepared
    cases kind
  · obtain ⟨r, _, rfl⟩ := List.mem_map.1 staged
    cases kind

theorem cancelOwners_jobs {kept : IngressRow → Json} {job : String} {now : Rat}
    {db : QueueDb ρ} {owners : List String}
    (result : cancelOwners hooks kept job now db owners = .ok next) : next.jobs = db.jobs := by
  unfold cancelOwners at result
  refine foldlM_ok (R := fun a b : QueueDb ρ => b.jobs = a.jobs) (fun _ => rfl)
    (fun left right => right.trans left) (fun s key t step => ?_) result
  obtain ⟨⟨changed, after⟩, update, step⟩ := bind_ok.1 step
  cases step
  exact (updateIngress_only update).jobs

theorem ActiveKept.of_jobs {middle : QueueDb ρ} (kept : ActiveKept db middle)
    (same : next.jobs = middle.jobs) : ActiveKept db next where
  kept id row found running := same ▸ kept.kept id row found running
  old row there := kept.old row (same ▸ there)

theorem cancelCandidate_active {selected : Candidate}
    {target : String} {channel owner : Int} {now : Rat} {answer : Option String}
    (pending : selected.kind = .queue →
      ∀ row, db.queue.jobs.find selected.job = some row → row.state = .pending)
    (result : cancelCandidate hooks selected target channel owner now db.queue = .ok (answer, next)) :
    ActiveKept db next := by
  obtain ⟨-, recorded, insertion, ended⟩ := cancelCandidate_cases result
  obtain ⟨frame, _⟩ := insertCancellation_ok insertion
  have same : recorded.jobs = db.queue.jobs := by rw [frame]
  obtain ⟨-, only⟩ | ⟨owners, cleared, -, deletion, owned⟩ := ended
  · exact .of_same (only.jobs.trans same)
  · exact (deleteRequest_active same pending deletion).of_jobs (cancelOwners_jobs owned)

theorem queueMove_active {event : AsyncEvent}
    (move : QueueMove db event next) (clear : event.clears = false) : ActiveKept db next := by
  cases move with
  | attempt step => exact .of_moves (queueStep_moves step)
  | @enqueued _ hooks newJob answer call =>
    cases answer with
    | error e => exact .of_same (congrArg QueueDb.jobs (commit_error call))
    | ok a => exact .of_enqueueIn (commit_ok call)
  | @enqueuedIfMatches _ hooks newJob expected answer call =>
    cases answer with
    | error e => exact .of_same (congrArg QueueDb.jobs (commit_error call))
    | ok a =>
      obtain ⟨_, _, result⟩ := bind_ok.1 (commit_ok call)
      exact .of_enqueueIn result
  | @promoted _ hooks claim newJob now answer call =>
    cases answer with
    | error e => exact .of_same (congrArg QueueDb.jobs (commit_error call))
    | ok a =>
      obtain ⟨store, insertion, same⟩ := promoteIn_enqueues (commit_ok call)
      exact (ActiveKept.of_enqueueIn insertion).of_jobs same
  | @cancelledLatest _ hooks target channel owner now requireMirror answer call =>
    cases answer with
    | error e => exact .of_same (congrArg QueueDb.jobs (commit_error call))
    | ok a =>
      obtain ⟨_, _, found, cancelled⟩ | ⟨-, rfl⟩ := cancelLatest_cases (commit_ok call)
      · exact cancelCandidate_active (fun kind row there => candidate_pending found kind there)
          cancelled
      · exact .of_same rfl
  | recovered => cases clear

end CodexRemote.Verified.AsyncQuestion

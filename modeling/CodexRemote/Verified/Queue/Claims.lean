import CodexRemote.Verified.Queue.Moves

/-! # Inserts into the outbox

A row of the outbox is unique under its delivery id and under its job id.
-/

namespace CodexRemote.Verified.Queue

open Foundations Store

variable {ρ : Type}

/-- Rows of the outbox that stand under this id. -/
def noticesOf (db : QueueDb ρ) (id : String) : Nat :=
  db.outbox.count fun n => n.deliveryId == id || n.jobId == id

variable {db next final : QueueDb ρ} {event : QueueEvent} {row : QueueRow}
  {events : List QueueEvent} {attempt : Int} {jobId : String} {claim : StoredQueueJob}

theorem noticesOf_zero {id : String} :
    noticesOf db id = 0 ↔
      db.outbox.contains (fun n => n.deliveryId == id || n.jobId == id) = false := by
  rw [noticesOf, Table.count, Table.contains, List.countP_eq_zero, List.any_eq_false]

theorem noticesOf_missing {id : String} (free : noticesOf db id = 0) :
    db.outbox.find id = none := by
  rw [Table.find_none_iff]
  intro other there same
  have apart := List.countP_eq_zero.1 free other there
  simp [same] at apart

/-- The store after the insert of a notice. -/
def noticedStore (db : QueueDb ρ) (notice : OutboxNotice) : QueueDb ρ :=
  { db with
    outbox := db.outbox.insertOrIgnore notice
    archive := db.archive.capture .deliveryOutbox notice.deliveryId
      (·.covers notice.targetThreadId notice.channelId) }

theorem insertNotice_adds {hooks : QueueHooks ρ} {notice : OutboxNotice}
    (own : notice.jobId = notice.deliveryId) (passes : hooks.fenceNotice db notice = none)
    (retained : db.archive.recordRetired .deliveryOutbox notice.deliveryId = false)
    (free : noticesOf db notice.deliveryId = 0) :
    insertNotice hooks db notice = .ok (noticedStore db notice) ∧
      (noticedStore db notice).outbox.rows = db.outbox.rows ++ [notice] ∧
      noticesOf (noticedStore db notice) notice.deliveryId = 1 := by
  have added : (noticedStore db notice).outbox.rows = db.outbox.rows ++ [notice] :=
    Table.insertOrIgnore_free (noticesOf_missing free)
  refine ⟨?_, added, ?_⟩
  · unfold insertNotice
    rw [passes]
    simp only [retained, own, noticesOf_zero.1 free, Bool.false_eq_true, if_false]
    rfl
  · rw [noticesOf, Table.count, added, List.countP_append]
    have none : db.outbox.rows.countP
      (fun n => n.deliveryId == notice.deliveryId || n.jobId == notice.deliveryId) = 0 := free
    rw [none]
    simp

theorem insertNotice_ok {hooks : QueueHooks ρ} {notice : OutboxNotice}
    (own : notice.jobId = notice.deliveryId) (result : insertNotice hooks db notice = .ok next) :
    hooks.fenceNotice db notice = none ∧
      ((db.archive.recordRetired .deliveryOutbox notice.deliveryId = true ∧ next = db) ∨
        (db.archive.recordRetired .deliveryOutbox notice.deliveryId = false ∧
          noticesOf db notice.deliveryId = 0 ∧ next = noticedStore db notice)) := by
  unfold insertNotice at result
  split at result
  · cases result
  · next passes =>
    refine ⟨passes, ?_⟩
    obtain ⟨retired, result⟩ | ⟨retained, result⟩ := ite_ok.1 result
    · cases result
      exact .inl ⟨retired, rfl⟩
    · obtain ⟨free, result⟩ := guard_ok.1 result
      cases result
      rw [own] at free
      exact .inr ⟨by simpa using retained, noticesOf_zero.2 (by simpa using free), rfl⟩

/-! ## A claim moves its job at most once

Attempt counts only grow, so what tells a claim from the row it was taken from is how far
the count has got: once it has passed the claim, or the row has left `starting` at the
claim's own count, no later operation recognises the claim.
-/

/-! ## Attempt counts -/

theorem attempt_le_next (attemptCount : Int) : attemptCount ≤ nextAttempt attemptCount := by
  unfold nextAttempt
  split <;> omega

theorem attempt_lt_next {attemptCount : Int} (below : attemptCount < (i64Max : Int)) :
    attemptCount < nextAttempt attemptCount := by
  rw [nextAttempt, if_pos below]
  omega

theorem JobMove.attempt_le {later : QueueRow}
    (move : JobMove row event later) : row.attemptCount ≤ later.attemptCount := by
  cases move with
  | begin | failPreflight => exact attempt_le_next row.attemptCount
  | still | run | failStart | adopt | mark | refresh => exact Int.le_refl _

/-- Attempt counts of every job are below the largest 64-bit integer. -/
def Countable (db : QueueDb ρ) : Prop :=
  ∀ id row, db.jobs.find id = some row → row.attemptCount < (i64Max : Int)

theorem JobsMove.countable
    (moves : JobsMove db event next) (later : Countable next) : Countable db := by
  intro id row found
  obtain ⟨after, present, move⟩ := moves.moved id row found
  exact Int.lt_of_le_of_lt move.attempt_le (later id after present)

theorem countable_of_run
    (run : QueueRun db events final) (last : Countable final) : Countable db := by
  induction run with
  | nil => exact last
  | cons first _ ih => exact (queueStep_moves first).countable (ih last)

/-! ## Attempts that are over -/

/-- The attempt with this count has been made, and is over when it is the last one. -/
def Over (attempt : Int) (row : QueueRow) : Prop :=
  attempt ≤ row.attemptCount ∧ (attempt = row.attemptCount → row.state ≠ .starting)

def OverIn (db : QueueDb ρ) (jobId : String) (attempt : Int) : Prop :=
  ∀ row, db.jobs.find jobId = some row → Over attempt row

theorem Over.not_held {claimed : StoredQueueJob}
    (past : Over attempt row) (same : claimed.attemptCount = attempt) : ¬HeldBy claimed row :=
  fun holds => past.2 (same ▸ holds.attempt.symm) holds.state

theorem OverIn.stale {claimed : StoredQueueJob}
    (past : OverIn db claimed.jobId claimed.attemptCount) : Stale db claimed :=
  fun row found => (past row found).not_held rfl

/-- No move brings an attempt that is over back: a new attempt has a larger count. -/
theorem Over.step {attempt : Int} {row later : QueueRow} {event : QueueEvent}
    (past : Over attempt row) (move : JobMove row event later)
    (below : row.attemptCount < (i64Max : Int)) : Over attempt later := by
  obtain ⟨made, ended⟩ := past
  refine ⟨Int.le_trans made move.attempt_le, ?_⟩
  intro last
  cases move with
  | still | refresh => exact ended last
  | begin pending =>
    have grown := attempt_lt_next below
    have same : attempt = nextAttempt row.attemptCount := last
    omega
  | run => exact RawQueueState.noConfusion
  | failStart own holds => exact absurd holds.state (ended last)
  | failPreflight pending => rw [QueueRow.failPreflight, pending]; exact RawQueueState.noConfusion
  | adopt pending => rw [QueueRow.adopt, pending]; exact RawQueueState.noConfusion
  | mark own holds => exact absurd holds.state (ended last)

theorem OverIn.step {db next : QueueDb ρ} {event : QueueEvent} {jobId : String} {attempt : Int}
    (past : OverIn db jobId attempt) (moves : JobsMove db event next) (countable : Countable db) :
    OverIn next jobId attempt := by
  intro later present
  cases found : db.jobs.find jobId with
  | none =>
    rw [moves.absent jobId found] at present
    cases present
  | some row =>
    obtain ⟨after, same, move⟩ := moves.moved jobId row found
    rw [present, Option.some.injEq] at same
    exact same ▸ (past row found).step move (countable jobId row found)

theorem OverIn.run (run : QueueRun db events final) (past : OverIn db jobId attempt)
    (last : Countable final) : OverIn final jobId attempt := by
  induction run with
  | nil => exact past
  | cons first rest ih =>
    have moves := queueStep_moves first
    exact ih (past.step moves (moves.countable (countable_of_run rest last))) last

/-! ## What ends an attempt -/

/-- A successful begin of an attempt of this job. -/
def QueueEvent.begins (jobId : String) : QueueEvent → Bool
  | .began begun _ _ (.ok (some _)) => begun == jobId
  | _ => false

/-- A move of the job to running, by the claim. -/
def QueueEvent.runs (claim : StoredQueueJob) : QueueEvent → Bool
  | .marked claimed _ _ (.ok (some _)) => claimed == claim
  | _ => false

/-- The attempt of this job that was under way is over: the job is running, has gone back to
pending, or has begun another attempt. -/
def QueueEvent.endsAttempt (jobId : String) : QueueEvent → Bool
  | .began begun _ _ (.ok (some _)) => begun == jobId
  | .marked claimed _ _ (.ok (some _)) => claimed.jobId == jobId
  | .startFailed claimed _ ambiguous (.ok (some _)) => claimed.jobId == jobId && !ambiguous
  | _ => false

/-- At least this many attempts of the job have been made. -/
def MadeIn (db : QueueDb ρ) (jobId : String) (attempt : Int) : Prop :=
  ∀ row, db.jobs.find jobId = some row → attempt ≤ row.attemptCount

theorem MadeIn.step {db next : QueueDb ρ} {event : QueueEvent} {jobId : String} {attempt : Int}
    (made : MadeIn db jobId attempt) (moves : JobsMove db event next) : MadeIn next jobId attempt := by
  intro later present
  cases found : db.jobs.find jobId with
  | none =>
    rw [moves.absent jobId found] at present
    cases present
  | some row =>
    obtain ⟨after, same, move⟩ := moves.moved jobId row found
    rw [present, Option.some.injEq] at same
    exact Int.le_trans (made row found) (same ▸ move.attempt_le)

theorem MadeIn.run (run : QueueRun db events final) (made : MadeIn db jobId attempt) :
    MadeIn final jobId attempt :=
  run.preserves (MadeIn · jobId attempt) (fun _ _ _ step made => made.step (queueStep_moves step)) made

/-- The row of a job after a move that ends its attempt. -/
theorem JobMove.past {later : QueueRow}
    (move : JobMove row event later) (ends : event.endsAttempt row.jobId = true)
    (made : attempt ≤ row.attemptCount) (below : row.attemptCount < (i64Max : Int)) :
    Over attempt later := by
  refine ⟨Int.le_trans made move.attempt_le, ?_⟩
  intro last
  cases move with
  | still elsewhere =>
    exfalso
    unfold QueueEvent.endsAttempt at ends
    split at ends
    · exact elsewhere (by simpa [QueueEvent.moved?] using ends)
    · exact elsewhere (by simpa [QueueEvent.moved?] using ends)
    · simp only [Bool.and_eq_true, beq_iff_eq] at ends
      exact elsewhere (by simp [QueueEvent.moved?, ends.1])
    · cases ends
  | begin =>
    have grown := attempt_lt_next below
    have same : attempt = nextAttempt row.attemptCount := last
    omega
  | run => exact RawQueueState.noConfusion
  | @failStart claimed failed error text ambiguous now own holds =>
    simp only [QueueEvent.endsAttempt, Bool.and_eq_true, Bool.not_eq_true'] at ends
    rw [QueueRow.failStart, ends.2]
    exact RawQueueState.noConfusion
  | failPreflight | adopt | mark | refresh => cases ends

theorem MadeIn.past (made : MadeIn db jobId attempt) (moves : JobsMove db event next)
    (ends : event.endsAttempt jobId = true) (countable : Countable db) :
    OverIn next jobId attempt := by
  intro later present
  cases found : db.jobs.find jobId with
  | none =>
    rw [moves.absent jobId found] at present
    cases present
  | some row =>
    obtain ⟨after, same, move⟩ := moves.moved jobId row found
    rw [present, Option.some.injEq] at same
    have key := Table.find_key found
    exact same ▸ move.past (key ▸ ends) (made row found) (countable jobId row found)

/-- A successful begin returns the claim of the attempt it has made. -/
theorem queueStep_began {baseline : List String} {generation : Int}
    (step : QueueStep db (.began jobId baseline generation (.ok (some claim))) next) :
    ∃ row now, db.jobs.find jobId = some row ∧ row.state = .pending ∧
      row.appServerGeneration = generation ∧
      next.jobs.find jobId = some (row.begin baseline generation now) ∧
      HeldBy claim (row.begin baseline generation now) ∧ claim.jobId = jobId := by
  cases step with
  | failed _ error => exact error.elim
  | began hooks _ _ _ now call =>
    rcases tryBeginAttempt_spec call with
      ⟨impossible, _⟩ | ⟨_, row, answered, found, holds, _, changed, decoded, _, _, _⟩
    · cases impossible
    · cases answered
      obtain ⟨pending, current⟩ := claimable_fields holds
      obtain ⟨heldBy, own⟩ := begin_heldBy decoded
      exact ⟨row, now, found, pending, current, changed, heldBy, own.trans (Table.find_key found)⟩

/-- A claim that moves its job to running is still the attempt on the row. -/
theorem queueStep_runs (step : QueueStep db event next) (runs : event.runs claim = true) :
    ∃ row, db.jobs.find claim.jobId = some row ∧ HeldBy claim row := by
  unfold QueueEvent.runs at runs
  split at runs
  · simp only [beq_iff_eq] at runs
    subst runs
    cases step with
    | failed _ error => exact error.elim
    | marked hooks _ _ _ now call =>
      rcases markRunning_spec call with ⟨impossible, _⟩ | ⟨_, update, _⟩
      · cases impossible
      · obtain ⟨row, found, holds, _⟩ := update.held
        exact ⟨row, found, holds⟩
  · cases runs

theorem runs_endsAttempt
    (runs : event.runs claim = true) : event.endsAttempt claim.jobId = true := by
  unfold QueueEvent.runs at runs
  split at runs
  · simp only [beq_iff_eq] at runs
    simp [QueueEvent.endsAttempt, runs]
  · cases runs

theorem begins_endsAttempt
    (begins : event.begins jobId = true) : event.endsAttempt jobId = true := by
  unfold QueueEvent.begins at begins
  split at begins
  · exact begins
  · cases begins

theorem HeldBy.made (found : db.jobs.find claim.jobId = some row) (holds : HeldBy claim row) :
    MadeIn db claim.jobId claim.attemptCount := by
  intro other present
  rw [found, Option.some.injEq] at present
  exact Int.le_of_eq (present ▸ holds.attempt.symm)

/-- After a run in which an attempt was made and ended, its claim is stale for good. -/
theorem stale_of_ended
    (run : QueueRun db events final) (made : MadeIn db claim.jobId claim.attemptCount)
    (ended : ∃ e ∈ events, e.endsAttempt claim.jobId = true) (last : Countable final) :
    Stale final claim := by
  obtain ⟨e, member, ends⟩ := ended
  obtain ⟨front, back, rfl⟩ := List.append_of_mem member
  obtain ⟨before, after, left, once, right⟩ := run.split_at
  have moves := queueStep_moves once
  have later := countable_of_run right last
  have past := (MadeIn.run left made).past moves ends (moves.countable later)
  exact (OverIn.run right past last).stale

/-- From a state in which the attempt is over, its claim moves no job. -/
theorem runs_none_of_over (run : QueueRun db events final)
    (past : OverIn db claim.jobId claim.attemptCount) (last : Countable final) :
    events.countP (·.runs claim) = 0 := by
  apply List.countP_eq_zero.2
  intro e member runs
  obtain ⟨front, back, rfl⟩ := List.append_of_mem member
  obtain ⟨before, after, left, once, right⟩ := run.split_at
  have here := (queueStep_moves once).countable (countable_of_run right last)
  obtain ⟨row, found, holds⟩ := queueStep_runs once runs
  exact (OverIn.run left past here).stale row found holds

theorem runs_at_most_once
    (run : QueueRun db events final) (last : Countable final) (claim : StoredQueueJob) :
    events.countP (·.runs claim) ≤ 1 := by
  induction run with
  | nil => simp
  | @cons db next final event events first rest ih =>
    cases runs : event.runs claim with
    | false => simpa [List.countP_cons, runs] using ih last
    | true =>
      -- the move itself ends the attempt, so nothing is left to count
      obtain ⟨row, found, holds⟩ := queueStep_runs first runs
      have moves := queueStep_moves first
      have countable := moves.countable (countable_of_run rest last)
      have past := (HeldBy.made found holds).past moves (runs_endsAttempt runs) countable
      simp [runs, runs_none_of_over rest past last]

/-! ## The claim protocol -/

/-- The claims of `try_begin_attempt` over every run of the queue's claim operations.  Counts
never decrease, so the bound on the last state bounds every state before it. -/
theorem queue_claims {db final : QueueDb ρ} {events : List QueueEvent}
    (run : QueueRun db events final) (countable : Countable final) :
    -- a claim moves its job to running at most once
    (∀ claim, events.countP (·.runs claim) ≤ 1) ∧
    -- and no other attempt began between its return and the move
    (∀ front middle back jobId baseline generation claim turnId resident running,
      events = front ++ .began jobId baseline generation (.ok (some claim)) ::
        (middle ++ .marked claim turnId resident (.ok (some running)) :: back) →
      ∀ e ∈ middle, e.begins jobId = false) ∧
    (∀ front event back before after, events = front ++ event :: back →
      QueueRun db front before → QueueStep before event after → QueueRun after back final →
      -- a job reaches starting through a begin at the generation on its row only
      (∀ id row later, before.jobs.find id = some row → row.state ≠ .starting →
        after.jobs.find id = some later → later.state = .starting →
        ∃ baseline claim, event =
            .began id baseline later.appServerGeneration (.ok (some claim)) ∧
          row.state = .pending ∧ row.appServerGeneration = later.appServerGeneration ∧
          later.executionGeneration = some later.appServerGeneration) ∧
      -- an operation given a stale claim changes nothing
      (∀ claim, event.claim? = some claim → Stale before claim → after = before)) ∧
    -- a claim is stale from the end of its attempt on
    (∀ front middle jobId baseline generation claim before,
      events = front ++ .began jobId baseline generation (.ok (some claim)) :: middle →
      ∀ later rest, middle = later ++ rest → (∃ e ∈ later, e.endsAttempt jobId = true) →
      QueueRun db (front ++ .began jobId baseline generation (.ok (some claim)) :: later) before →
      QueueRun before rest final → Stale before claim) := by
  refine ⟨runs_at_most_once run countable, ?_, ?_, ?_⟩
  · rintro front middle back jobId baseline generation claim turnId resident running rfl e member
    obtain ⟨_, begun, _, once, rest⟩ := run.split_at
    obtain ⟨moved, _, between, mark, right⟩ := rest.split_at
    obtain ⟨_, _, _, _, _, present, holds, own⟩ := queueStep_began once
    have made := HeldBy.made (own ▸ present) holds
    have here := (queueStep_moves mark).countable (countable_of_run right countable)
    by_contra begins
    have ends := begins_endsAttempt (Bool.not_eq_false _ ▸ begins)
    have stale := stale_of_ended between made ⟨e, member, own ▸ ends⟩ here
    have runs : (QueueEvent.marked claim turnId resident (.ok (some running))).runs claim = true := by
      simp [QueueEvent.runs]
    obtain ⟨row, found, heldBy⟩ := queueStep_runs mark runs
    exact stale row found heldBy
  · intro front event back before after _ _ step _
    refine ⟨?_, fun claim given stale => queueStep_stale step given stale⟩
    intro id row later found idle present starting
    obtain ⟨after', same, move⟩ := (queueStep_moves step).moved id row found
    rw [present, Option.some.injEq] at same
    subst same
    have key := Table.find_key found
    cases move with
    | still | refresh => exact absurd starting idle
    | begin pending current claimed =>
      subst current
      exact ⟨_, _, by rw [← key]; rfl, pending, rfl, rfl⟩
    | run => cases starting
    | failStart own holds => exact absurd holds.state idle
    | failPreflight pending => cases pending.symm.trans starting
    | adopt pending => cases pending.symm.trans starting
    | mark own holds => exact absurd holds.state idle
  · rintro front middle jobId baseline generation claim before rfl later rest rfl ended prior after
    obtain ⟨_, begun, _, once, between⟩ := prior.split_at
    obtain ⟨_, _, _, _, _, present, holds, own⟩ := queueStep_began once
    have made := HeldBy.made (own ▸ present) holds
    exact stale_of_ended between made (own ▸ ended) (countable_of_run after countable)

/-! ## One job, begun and running -/

/-- Other modules check and write nothing. -/
def quietHooks : QueueHooks Unit where
  fenceUpdate _ _ _ := none
  fenceInsert _ _ := none
  fenceDelete _ _ := none
  fenceIntakeUpdate _ _ _ := none
  fenceIntakeInsert _ _ := none
  fenceIntakeDelete _ _ := none
  fenceIngress _ _ _ := none
  fenceNotice _ _ := none
  asyncAdmission _ _ := .ok ()
  asyncDispatchHeld _ _ := false
  beforeEnqueue _ _ := .ok ()
  bindRunning _ _ := .ok ()
  recordJobOrigin _ _ := .ok ()
  bindLateStart _ _ _ _ := .ok ()
  stageStartNotice _ _ _ := .ok ()
  newExecutionPrompt row := .ok row.newCommandPrompt
  promoteNewReply _ _ _ _ := .ok ()
  recordRecovery _ _ _ _ _ _ := .ok ()
  sha256Hex text := text
  jobJson job := job.jobId
  requestEvidence _ _ := ""
  ingressEvidence row := row.ingressId

def waitingRow : QueueRow where
  jobId := "job"
  targetThreadId := "thread"
  channelId := 7
  ownerUserId := some 1
  discordMessageId := some 42
  appServerGeneration := 3
  executionGeneration := none
  prompt := "prompt"
  queued := true
  ackSent := false
  state := .pending
  attemptCount := 0
  turnId := none
  baselineTurnIds := .turns []
  lastError := ""
  createdAt := 0
  updatedAt := 0
  goalWaiting := false
  turnObservationGeneration := none

def onlyJob (row : QueueRow) : QueueDb Unit where
  archive := .empty
  jobs := ⟨[row], List.nodup_singleton _⟩
  intakes := .empty
  cancellations := .empty
  holds := .empty
  handoffs := .empty
  ingress := .empty
  outbox := .empty
  deadTargets := []
  incidents := []
  runtime := none
  exactRouting := false
  rest := ()

def begunRow : QueueRow := waitingRow.begin ["turn-1"] 3 1
def runningRow : QueueRow := begunRow.run "turn-2" 2

def decoded (row : QueueRow) : StoredQueueJob :=
  match row.decode with
  | .ok job => job
  | .error _ => ⟨"", "", 0, none, none, 0, none, none, false, "", false, false, .pending, 0, none, [], "", 0, 0⟩

theorem queue_claim_runs_once :
    [QueueEvent.began "job" ["turn-1"] 3 (.ok (some (decoded begunRow))),
      .marked (decoded begunRow) "turn-2" none (.ok (some (decoded runningRow)))].countP
        (·.runs (decoded begunRow)) ≤ 1 := by
  have began : tryBeginAttempt quietHooks "job" ["turn-1"] 3 1 (onlyJob waitingRow) =
      (.ok (some (decoded begunRow)), onlyJob begunRow) := by rfl
  have marked : markRunningWithResidentIfClaimed quietHooks (decoded begunRow) "turn-2" none 2
      (onlyJob begunRow) = (.ok (some (decoded runningRow)), onlyJob runningRow) := by rfl
  have run : QueueRun (onlyJob waitingRow)
      [.began "job" ["turn-1"] 3 (.ok (some (decoded begunRow))),
        .marked (decoded begunRow) "turn-2" none (.ok (some (decoded runningRow)))]
      (onlyJob runningRow) :=
    .cons (.began quietHooks _ _ _ _ began) (.single (.marked quietHooks _ _ _ _ marked))
  have countable : Countable (onlyJob runningRow) := by
    intro id row found
    have only : row ∈ [runningRow] := Table.mem_of_find found
    rw [List.mem_singleton.1 only]
    decide
  exact (queue_claims run countable).1 _

end CodexRemote.Verified.Queue

import CodexRemote.Store.Queue.Completion
import CodexRemote.Verified.Queue.Inserts
import CodexRemote.Verified.Queue.Claims

/-! # A completion moves its job from the queue to the outbox -/

namespace CodexRemote.Verified.Queue

open Foundations Store

variable {ρ : Type}

/-! ## The writes of the transaction -/

variable {db next : QueueDb ρ} {delivery : OutboxNotice} {hooks : CompletionHooks ρ}

theorem insertDelivery_ok {hooks : QueueHooks ρ} (own : delivery.jobId = delivery.deliveryId)
    (result : insertDelivery hooks db delivery = .ok next) :
    next = db ∨ (noticesOf db delivery.deliveryId = 0 ∧ next = noticedStore db delivery) := by
  unfold insertDelivery at result
  split at result
  · cases result
  · obtain ⟨_, result⟩ | ⟨_, result⟩ := ite_ok.1 result
    · cases result
      exact .inl rfl
    · obtain ⟨_, ⟨_, same⟩ | ⟨_, free, added⟩⟩ := insertNotice_ok own result
      · exact .inl same
      · exact .inr ⟨free, added⟩

theorem selectDelivery_ok {id : String}
    (result : selectDelivery db id = .ok delivery) : db.outbox.find id = some delivery := by
  unfold selectDelivery at result
  split at result
  · cases result
  · next found =>
    cases result
    exact found

/-- The row of the job, unless an archive keeps it. -/
def leaving (db : QueueDb ρ) (jobId : String) (row : QueueRow) : Bool :=
  row.jobId == jobId && !db.archive.recordRetired .turnQueue row.jobId

theorem deleteJob_ok {hooks : QueueHooks ρ} {jobId : String} {removed : Nat}
    (result : deleteJob hooks db jobId = .ok (removed, next)) :
    next = { db with jobs := db.jobs.delete (leaving db jobId) } := by
  unfold deleteJob at result
  dsimp only at result
  split at result
  · cases result
  · cases result
    rfl

theorem clearJournal_ok {thread turn : String}
    (result : clearJournal hooks db thread turn = .ok next) : ∃ rest, next = db.withRest rest := by
  obtain ⟨retained, _, result⟩ := bind_ok.1 result
  obtain ⟨rest, _, result⟩ := bind_ok.1 result
  obtain ⟨last, _, result⟩ := bind_ok.1 result
  cases result
  exact ⟨last, rfl⟩

/-! ## A staged completion -/

/-- The delivery of this completion was inserted, or an earlier one stands under its id. -/
inductive DeliveryKept (db next : QueueDb ρ) (jobId : String) (new delivery : OutboxNotice) : Prop
  | inserted (free : noticesOf db jobId = 0) (same : delivery = new)
      (rows : next.outbox.rows = db.outbox.rows ++ [delivery])
  | earlier (stood : db.outbox.find jobId = some delivery) (outbox : next.outbox = db.outbox)

structure Staged (call : CompletionCall) (db next : QueueDb ρ) (delivery : OutboxNotice) : Prop where
  job : ∃ row job turn, db.jobs.find call.jobId = some row ∧ row.decode = .ok job ∧
    job.turnId = some turn ∧
    (∀ expected, call.expected = some expected →
      job = expected ∧ job.state = .running ∧ runningRows db expected = 1) ∧
    DeliveryKept db next call.jobId (job.delivery turn call.content call.now) delivery
  stands : next.outbox.find call.jobId = some delivery
  /-- No other row of the queue is touched, nor any other table of it. -/
  frame : next = { db with
    jobs := db.jobs.delete (leaving db call.jobId)
    outbox := next.outbox
    archive := next.archive
    rest := next.rest }

theorem stageTurn_ok {call : CompletionCall} {job : StoredQueueJob} {turn : String}
    (result : stageTurn hooks call job turn db = .ok (delivery, next)) :
    DeliveryKept db next job.jobId (job.delivery turn call.content call.now) delivery ∧
      next.outbox.find job.jobId = some delivery ∧ next = { db with
        jobs := db.jobs.delete (leaving db job.jobId)
        outbox := next.outbox
        archive := next.archive
        rest := next.rest } := by
  unfold stageTurn at result
  obtain ⟨reconciled, _, result⟩ := bind_ok.1 result
  obtain ⟨settled, _, result⟩ := bind_ok.1 result
  obtain ⟨inserted, insertion, result⟩ := bind_ok.1 result
  obtain ⟨mirrored, _, result⟩ := bind_ok.1 result
  obtain ⟨⟨removed, deleted⟩, deletion, result⟩ := bind_ok.1 result
  obtain ⟨cleared, clearing, result⟩ := bind_ok.1 result
  obtain ⟨selected, selection, result⟩ := bind_ok.1 result
  have gone := deleteJob_ok deletion
  obtain ⟨journal, rfl⟩ := clearJournal_ok clearing
  have stands := selectDelivery_ok selection
  obtain ⟨last, rfl, rfl⟩ : ∃ rest, selected = delivery ∧ next = deleted.withRest rest := by
    split at result
    · cases result
      exact ⟨journal, rfl, rfl⟩
    · obtain ⟨_, result⟩ | ⟨_, result⟩ := ite_ok.1 result
      · obtain ⟨last, _, result⟩ := bind_ok.1 result
        cases result
        exact ⟨last, rfl, rfl⟩
      · cases result
        exact ⟨journal, rfl, rfl⟩
  obtain same | ⟨free, added⟩ := insertDelivery_ok rfl insertion
  · subst same gone
    exact ⟨.earlier stands rfl, stands, rfl⟩
  · -- the insert captures nothing of the queue, so the same row leaves it
    have kept : leaving inserted job.jobId = leaving db job.jobId := by
      funext row
      rw [added]
      simp only [leaving, noticedStore]
      rw [Archive.capture_recordRetired _ (by decide)]
      rfl
    have rows : inserted.outbox.rows = db.outbox.rows ++
        [job.delivery turn call.content call.now] := by
      rw [added]
      exact Table.insertOrIgnore_free (noticesOf_missing free)
    have own : selected = job.delivery turn call.content call.now := by
      have found : inserted.outbox.find job.jobId = some selected := by
        rw [gone] at stands
        exact stands
      rw [Table.find_append rows] at found
      exact (Option.some.inj (found.symm.trans (if_pos rfl)))
    subst gone
    refine ⟨.inserted free own (own ▸ rows), stands, ?_⟩
    show _ = _
    rw [← kept, added]
    rfl

theorem stageCompletion_ok {call : CompletionCall}
    (ran : stageCompletion hooks call db = (.ok delivery, next)) : Staged call db next delivery := by
  have result := commit_ok ran
  unfold stageCompletionIn at result
  obtain ⟨job, selected, result⟩ := bind_ok.1 result
  obtain ⟨_, owned, result⟩ := bind_ok.1 result
  obtain ⟨_, _, result⟩ := bind_ok.1 result
  obtain ⟨rest, _, result⟩ := bind_ok.1 result
  have found : ∃ row, db.jobs.find call.jobId = some row ∧ row.decode = .ok job := by
    unfold selectJob at selected
    split at selected
    · cases selected
    · next row found => exact ⟨row, found, selected⟩
  obtain ⟨row, found, decoded⟩ := found
  have named : job.jobId = call.jobId := by
    obtain ⟨_, _, _, own, _⟩ := decode_fields decoded
    exact own.trans (Table.find_key found)
  cases runs : job.turnId with
  | none =>
    rw [runs] at result
    cases result
  | some turn =>
    rw [runs] at result
    obtain ⟨kept, stands, frame⟩ := stageTurn_ok result
    rw [named] at kept stands frame
    refine ⟨⟨row, job, turn, found, decoded, runs, ?_, ?_⟩, stands, frame⟩
    · intro expected given
      unfold validateOwnership at owned
      rw [given] at owned
      obtain ⟨fits, _⟩ := guard_ok.1 owned
      simpa only [not_or, not_not] using fits
    · cases kept with
      | inserted free same rows => exact .inserted free same rows
      | earlier stood outbox => exact .earlier stood outbox

/-! ## Runs -/

inductive CompletionEvent where
  | staged (call : CompletionCall) (answer : Except StoreError OutboxNotice)
  | delivered (deliveryId : String)
  | enqueued (newJob : NewQueueJob) (answer : Except StoreError QueueEnqueueResult)
  | moved (event : QueueEvent)

/-- Completions are staged and delivered while jobs are enqueued, claimed, run and given back. -/
inductive CompletionStep (hooks : CompletionHooks ρ) :
    QueueDb ρ → CompletionEvent → QueueDb ρ → Prop where
  | staged {db next : QueueDb ρ} (call : CompletionCall) {answer : Except StoreError OutboxNotice}
      (ran : stageCompletion hooks call db = (answer, next)) :
      CompletionStep hooks db (.staged call answer) next
  | delivered (db : QueueDb ρ) (deliveryId : String) :
      CompletionStep hooks db (.delivered deliveryId)
        { db with outbox := db.outbox.remove deliveryId }
  | enqueued {db next : QueueDb ρ} (newJob : NewQueueJob)
      {answer : Except StoreError QueueEnqueueResult}
      (ran : enqueue hooks.queue newJob db = (answer, next)) :
      CompletionStep hooks db (.enqueued newJob answer) next
  | moved {db next : QueueDb ρ} {event : QueueEvent} (step : QueueStep db event next)
      (outbox : next.outbox = db.outbox) : CompletionStep hooks db (.moved event) next

theorem enqueue_outbox {hooks : QueueHooks ρ} {newJob : NewQueueJob}
    {answer : Except StoreError QueueEnqueueResult}
    (ran : enqueue hooks newJob db = (answer, next)) : next.outbox = db.outbox := by
  cases answer with
  | error e => rw [commit_error ran]
  | ok answer =>
    have result := commit_ok ran
    unfold enqueueIn at result
    obtain ⟨rest, _, result⟩ := bind_ok.1 result
    obtain ⟨_, _, result⟩ := bind_ok.1 result
    obtain ⟨_, result⟩ := guard_ok.1 result
    obtain ⟨_, _, result⟩ := bind_ok.1 result
    obtain ⟨_, _, result⟩ := bind_ok.1 result
    obtain ⟨⟨created, after⟩, inserted, result⟩ := bind_ok.1 result
    obtain ⟨job, _, result⟩ := bind_ok.1 result
    cases result
    unfold insertJob at inserted
    obtain ⟨_, inserted⟩ := guard_ok.1 inserted
    split at inserted
    · cases inserted
    · obtain ⟨_, inserted⟩ | ⟨_, inserted⟩ := ite_ok.1 inserted <;> cases inserted <;> rfl

/-- An enqueue keeps the rows of the queue, and may add the row of its own job. -/
theorem enqueue_jobs {hooks : QueueHooks ρ} {newJob : NewQueueJob}
    {answer : Except StoreError QueueEnqueueResult}
    (ran : enqueue hooks newJob db = (answer, next)) (id : String) :
    ((db.jobs.find id).isSome → (next.jobs.find id).isSome) ∧
      (id ≠ newJob.jobId → next.jobs.find id = db.jobs.find id) := by
  cases answer with
  | error e =>
    rw [commit_error ran]
    exact ⟨fun present => present, fun _ => rfl⟩
  | ok answer =>
    obtain ⟨_, _, _, ⟨_, rows, _⟩ | ⟨_, same⟩, _⟩ := enqueueIn_ok (commit_ok ran)
    · rw [Table.find_append rows]
      constructor
      · intro present
        split
        · rfl
        · exact present
      · intro other
        exact if_neg fun same => other same.symm
    · rw [same]
      exact ⟨fun present => present, fun _ => rfl⟩

/-- A job leaves the queue when its completion is staged, and not otherwise. -/
theorem CompletionStep.lost
    {event : CompletionEvent} {id : String} (step : CompletionStep hooks db event next)
    (present : (db.jobs.find id).isSome) (gone : ¬(next.jobs.find id).isSome) :
    ∃ call delivery, event = .staged call (.ok delivery) ∧ call.jobId = id ∧
      next.outbox.find id = some delivery := by
  cases step with
  | staged call ran =>
    rename_i answer
    cases answer with
    | error e => exact absurd (commit_error ran ▸ present) gone
    | ok delivery =>
      have staged := stageCompletion_ok ran
      by_cases own : call.jobId = id
      · exact ⟨call, delivery, rfl, own, own ▸ staged.stands⟩
      · have same : next.jobs.find id = db.jobs.find id := by
          rw [staged.frame]
          simp only [Table.find_delete]
          cases found : db.jobs.find id with
          | none => rfl
          | some row =>
            have key := Table.find_key found
            simp [leaving, key, Ne.symm own]
        exact absurd (same ▸ present) gone
  | delivered deliveryId => exact absurd present gone
  | enqueued newJob ran => exact absurd ((enqueue_jobs ran id).1 present) gone
  | moved step outbox =>
    obtain ⟨row, found⟩ := Option.isSome_iff_exists.1 present
    obtain ⟨later, after, _⟩ := (queueStep_moves step).moved id row found
    rw [after] at gone
    exact absurd rfl gone

/-- No id stands in the queue and in the outbox. -/
def Apart (db : QueueDb ρ) : Prop :=
  ∀ id, db.jobs.find id = none ∨ db.outbox.find id = none

/-- A new job does not take the id of a delivery that waits, and no archive keeps the row of a
job whose completion is staged. -/
def FreshStep (db : QueueDb ρ) : CompletionEvent → Prop
  | .enqueued newJob _ => db.outbox.find newJob.jobId = none
  | .staged call _ => db.archive.recordRetired .turnQueue call.jobId = false
  | _ => True

theorem CompletionStep.apart {event : CompletionEvent} (step : CompletionStep hooks db event next)
    (fresh : FreshStep db event) (apart : Apart db) : Apart next := by
  intro id
  cases step with
  | staged call ran =>
    rename_i answer
    cases answer with
    | error e => exact commit_error ran ▸ apart id
    | ok delivery =>
      have staged := stageCompletion_ok ran
      have jobs : next.jobs.find id = (db.jobs.find id).filter
          (fun row => !leaving db call.jobId row) := by
        rw [staged.frame]
        exact Table.find_delete id
      by_cases own : call.jobId = id
      · left
        rw [jobs]
        cases found : db.jobs.find id with
        | none => rfl
        | some row =>
          have key := Table.find_key found
          rw [FreshStep, own] at fresh
          simp [leaving, key, own, fresh]
      · obtain absent | free := apart id
        · left
          rw [jobs, absent]
          rfl
        · right
          obtain ⟨row, job, turn, found, decoded, _, _, kept⟩ := staged.job
          cases kept with
          | earlier stood outbox => rw [outbox, free]
          | inserted unused same rows =>
            have named : delivery.deliveryId = call.jobId := by
              obtain ⟨_, _, _, named, _⟩ := decode_fields decoded
              rw [same]
              exact named.trans (Table.find_key found)
            rw [Table.find_append rows, if_neg (named ▸ own), free]
  | delivered deliveryId =>
    obtain absent | free := apart id
    · exact .inl absent
    · right
      show (db.outbox.delete _).find id = none
      rw [Table.find_delete, free]
      rfl
  | enqueued newJob ran =>
    rw [enqueue_outbox ran]
    by_cases own : id = newJob.jobId
    · exact .inr (own ▸ fresh)
    · rw [(enqueue_jobs ran id).2 own]
      exact apart id
  | moved step outbox =>
    obtain absent | free := apart id
    · exact .inl ((queueStep_moves step).absent id absent)
    · exact .inr (outbox ▸ free)

/-! ## The calls of a run -/

structure CompletionsConserve (hooks : CompletionHooks ρ) : Prop where
  /-- A call that is refused changes nothing. -/
  refused : ∀ {db next : QueueDb ρ} {call : CompletionCall} {error : StoreError},
    stageCompletion hooks call db = (.error error, next) → next = db
  /-- The job of any other call leaves the queue, and its delivery is in the outbox. -/
  staged : ∀ {db next : QueueDb ρ} {call : CompletionCall} {delivery : OutboxNotice},
    stageCompletion hooks call db = (.ok delivery, next) → Staged call db next delivery
  /-- A job that left the queue in a run left it for the outbox. -/
  conserved : ∀ {db final : QueueDb ρ} {events : List CompletionEvent} {id : String},
    Run (CompletionStep hooks) db events final → (db.jobs.find id).isSome →
    ¬(final.jobs.find id).isSome → ∃ front back call delivery before after,
      events = front ++ .staged call (.ok delivery) :: back ∧ call.jobId = id ∧
      Run (CompletionStep hooks) db front before ∧
      stageCompletion hooks call before = (.ok delivery, after) ∧
      after.outbox.find id = some delivery ∧ Run (CompletionStep hooks) after back final
  /-- Ids that start apart stay apart, while new jobs have ids of their own. -/
  apart : ∀ {db final : QueueDb ρ} {events : List CompletionEvent},
    Run (fun s e t => CompletionStep hooks s e t ∧ FreshStep s e) db events final →
    Apart db → Apart final

theorem completions_conserve (hooks : CompletionHooks ρ) : CompletionsConserve hooks where
  refused ran := commit_error ran
  staged ran := stageCompletion_ok ran
  conserved := by
    intro db final events id run present gone
    obtain ⟨front, event, back, before, after, rfl, reached, step, here, lost, rest⟩ :=
      run.loses (fun db => (db.jobs.find id).isSome) present gone
    obtain ⟨call, delivery, rfl, own, stands⟩ := step.lost here lost
    cases step with
    | staged call ran => exact ⟨front, back, call, delivery, before, after, rfl, own, reached, ran,
        stands, rest⟩
  apart run start := run.preserves Apart (fun _ _ _ step held => step.1.apart step.2 held) start

/-! ## A job whose delivery still waits -/

def quietCompletion : CompletionHooks Unit where
  queue := quietHooks
  reconcileJob _ _ := .ok ()
  settleOwned _ _ _ := .ok ()
  insertMirrorEvent _ _ _ _ := .ok ()
  retainTerminalJournal _ _ _ := .ok false
  deleteObservedCompletion _ _ _ := .ok ()
  deleteObservedAnswer _ _ _ := .ok ()
  stageCandidate _ _ _ := .ok ()

def firstDelivery : OutboxNotice := ⟨"job", "job", "thread", "turn-2", 7, "first answer", 3⟩

/-- The delivery of the first answer waits; the queue holds these rows. -/
def answered (jobs : Table QueueRow.jobId) : QueueDb Unit :=
  { onlyJob runningRow with
    jobs := jobs
    outbox := ⟨[firstDelivery], List.nodup_singleton _⟩ }

/-- The same job again, as a request of its own. -/
def sameJob : NewQueueJob where
  jobId := "job"
  targetThreadId := "thread"
  channelId := 7
  ownerUserId := some 1
  discordMessageId := none
  appServerGeneration := 3
  prompt := "prompt"
  queued := true
  ackSent := false
  createdAt := 4

def again : QueueRow := sameJob.row
def begunAgain : QueueRow := again.begin ["turn-2"] 3 5
def runningAgain : QueueRow := begunAgain.run "turn-3" 6
def oneJob (row : QueueRow) : Table QueueRow.jobId := (onlyJob row).jobs

/-- A job enqueued again under an id whose delivery waits is in both tables; when it completes,
its row goes and the older delivery stands. -/
theorem second_answer_not_staged :
    stageCompletion quietCompletion (stageOwned (decoded runningRow) "first answer" 3 none)
        (onlyJob runningRow) = (.ok firstDelivery, answered .empty) ∧
      enqueue quietHooks sameJob (answered .empty) =
        (.ok ⟨decoded again, true⟩, answered (oneJob again)) ∧
      ¬ Apart (answered (oneJob again)) ∧
      tryBeginAttempt quietHooks "job" ["turn-2"] 3 5 (answered (oneJob again)) =
        (.ok (some (decoded begunAgain)), answered (oneJob begunAgain)) ∧
      markRunningWithResidentIfClaimed quietHooks (decoded begunAgain) "turn-3" none 6
        (answered (oneJob begunAgain)) =
          (.ok (some (decoded runningAgain)), answered (oneJob runningAgain)) ∧
      stageCompletion quietCompletion (stageOwned (decoded runningAgain) "second answer" 7 none)
        (answered (oneJob runningAgain)) = (.ok firstDelivery, answered .empty) := by
  refine ⟨by rfl, by rfl, fun apart => ?_, by rfl, by rfl, by rfl⟩
  obtain absent | free := apart "job"
  · exact absurd absent (by decide)
  · exact absurd free (by decide)

end CodexRemote.Verified.Queue

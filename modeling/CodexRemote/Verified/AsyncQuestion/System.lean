import CodexRemote.Verified.AsyncQuestion.Dispatching
import CodexRemote.Verified.PromptIntake.Moves

/-! # Async questions beside the queue

The operations on questions and the operations of the queue take turns in any order.  What the
rest of the store does to the queue is left open; it may close a steered answer whose turn ended.
-/

namespace CodexRemote.Verified.AsyncQuestion

open Foundations Store Store.AsyncQuestion
open Verified.Queue (QueueEvent QueueStep queueStep_moves JobMove HeldBy)
open Verified.PromptIntake (promote_spec Promotion)

variable {ρ : Type}

inductive AsyncEvent where
  | observed (answer : Except StoreError Unit)
  | reconciled
  | ownerConfirmed (id : String) (answer : Except StoreError Bool)
  | bound (id message : String) (answer : Except StoreError Unit)
  | began (c : Claim) (answer : Except StoreError Question)
  | confirmed (id turn : String) (answer : Except StoreError Unit)
  | rejected (id : String) (answer : Except StoreError Unit)
  | errorRecorded (id : String) (answer : Except StoreError Unit)
  | inboxRetired
  | inboxCompacted
  | retired (answer : Except StoreError Nat)
  | compacted (answer : Except StoreError Nat)
  | queued (event : QueueEvent)
  | enqueued (answer : Except StoreError QueueEnqueueResult)
  | promoted (answer : Except StoreError QueueEnqueueResult)
  | cancelledLatest (answer : Except StoreError (Option String))
  | recovered (answer : Except StoreError RecoveryCancellation)
  | elsewhere

/-- A successful claim of an answer to this question -/
def AsyncEvent.begins (id : String) : AsyncEvent → Bool
  | .began c (.ok _) => c.id == id
  | _ => false

/-- The rest of the store, which may settle the turn of a steered answer -/
def AsyncEvent.settles : AsyncEvent → Bool
  | .elsewhere => true
  | _ => false

/-- The step may remove or rewrite jobs that are not pending. -/
def AsyncEvent.clears : AsyncEvent → Bool
  | .recovered _ | .elsewhere => true
  | _ => false

/-- An operation of the queue, which asks the questions whether an answer is dispatched -/
inductive QueueMove (db : AsyncDb ρ) : AsyncEvent → QueueDb ρ → Prop where
  | attempt {next : QueueDb ρ} {event : QueueEvent} (step : QueueStep db.queue event next) :
      QueueMove db (.queued event) next
  | enqueued {next : QueueDb ρ} (hooks : QueueHooks ρ) (newJob : NewQueueJob)
      {answer : Except StoreError QueueEnqueueResult}
      (call : enqueue (db.hooks hooks) newJob db.queue = (answer, next)) :
      QueueMove db (.enqueued answer) next
  | enqueuedIfMatches {next : QueueDb ρ} (hooks : QueueHooks ρ) (newJob : NewQueueJob)
      (expected : ExpectedMirrorMapping) {answer : Except StoreError QueueEnqueueResult}
      (call : enqueueIfMirrorMatches (db.hooks hooks) newJob expected db.queue = (answer, next)) :
      QueueMove db (.enqueued answer) next
  | promoted {next : QueueDb ρ} (hooks : QueueHooks ρ) (claim : PromptIntakeClaim)
      (newJob : NewQueueJob) (now : Timestamp) {answer : Except StoreError QueueEnqueueResult}
      (call : promotePromptIntakeToQueue (db.hooks hooks) claim newJob now db.queue =
        (answer, next)) : QueueMove db (.promoted answer) next
  | cancelledLatest {next : QueueDb ρ} (hooks : QueueHooks ρ) (target : String)
      (channel owner : Int) (now : Timestamp) (requireMirror : Bool)
      {answer : Except StoreError (Option String)}
      (call : cancelLatestPendingOnRoute (db.hooks hooks) target channel owner now requireMirror
        db.queue = (answer, next)) : QueueMove db (.cancelledLatest answer) next
  | recovered {next : QueueDb ρ} (hooks : QueueHooks ρ) (target : String) (channel owner : Int)
      (now : Timestamp) (check : QueueDb ρ → Except StoreError Unit)
      {answer : Except StoreError RecoveryCancellation}
      (call : cancelForRecoveryChecked (db.hooks hooks) target channel owner now check db.queue =
        (answer, next)) : QueueMove db (.recovered answer) next

/-- One transaction or statement of a caller.  `bind_receipt`, `retire_old_owner` and
`compact_terminal` are their statements, one after the other. -/
inductive AsyncStep (hooks : QuestionHooks ρ) : AsyncDb ρ → AsyncEvent → AsyncDb ρ → Prop where
  | observed {db next : AsyncDb ρ} (n : NewQuestion) {answer : Except StoreError Unit}
      (call : recordObservation hooks n db = (answer, next)) :
      AsyncStep hooks db (.observed answer) next
  | reconciled (db : AsyncDb ρ) (scope : Scope) :
      AsyncStep hooks db .reconciled (reconcileIn scope db).2
  | ownerConfirmed {db next : AsyncDb ρ} (id : String) {answer : Except StoreError Bool}
      (call : AsyncQuestion.ownerConfirmed hooks id db = (answer, next)) :
      AsyncStep hooks db (.ownerConfirmed id answer) next
  | bound {db next : AsyncDb ρ} (id message : String) (interactive : Bool)
      {answer : Except StoreError Unit}
      (call : bindMessage hooks id message interactive db = (answer, next)) :
      AsyncStep hooks db (.bound id message answer) next
  | began {db next : AsyncDb ρ} (queue : QueueHooks ρ) (c : Claim)
      {answer : Except StoreError Question}
      (call : beginDispatch hooks queue c db = (answer, next)) :
      AsyncStep hooks db (.began c answer) next
  | confirmed {db next : AsyncDb ρ} (queue : QueueHooks ρ) (id turn : String) (now : Rat)
      {answer : Except StoreError Unit}
      (call : confirmDispatch hooks queue id turn now db = (answer, next)) :
      AsyncStep hooks db (.confirmed id turn answer) next
  | rejected {db next : AsyncDb ρ} (queue : QueueHooks ρ) (id error : String) (now : Rat)
      {answer : Except StoreError Unit}
      (call : rejectDefinite hooks queue id error now db = (answer, next)) :
      AsyncStep hooks db (.rejected id answer) next
  | errorRecorded {db next : AsyncDb ρ} (id error : String) (now : Rat)
      {answer : Except StoreError Unit}
      (call : recordError hooks id error now db = (answer, next)) :
      AsyncStep hooks db (.errorRecorded id answer) next
  | inboxRetired (db : AsyncDb ρ) (runtime : String) (generation : Int) :
      AsyncStep hooks db .inboxRetired (retireInbox runtime generation db)
  | retired {db next : AsyncDb ρ} (runtime : String) (generation : Int) (now : Rat)
      {answer : Except StoreError Nat}
      (call : commit (retireQuestionsIn hooks runtime generation now) db = (answer, next)) :
      AsyncStep hooks db (.retired answer) next
  | superseded {db next : AsyncDb ρ} (runtime : String) (generation : Int) (thread turn : String)
      (now : Rat) {answer : Except StoreError Nat}
      (call : supersede hooks runtime generation thread turn now db = (answer, next)) :
      AsyncStep hooks db (.retired answer) next
  | inboxCompacted (db : AsyncDb ρ) (now : Rat) :
      AsyncStep hooks db .inboxCompacted (compactInbox now db)
  | compacted {db next : AsyncDb ρ} (now : Rat) {answer : Except StoreError Nat}
      (call : commit (compactQuestionsIn hooks now) db = (answer, next)) :
      AsyncStep hooks db (.compacted answer) next
  | queue {db : AsyncDb ρ} {event : AsyncEvent} {store : QueueDb ρ}
      (move : QueueMove db event store) (records : db.queue.archive.Extends store.archive) :
      AsyncStep hooks db event { db with queue := store }
  | elsewhere {db next : AsyncDb ρ} (inbox : next.inbox = db.inbox)
      (records : db.queue.archive.Extends next.queue.archive)
      (questions : ∀ id, next.questions.find id = db.questions.find id ∨
        ∃ row, db.questions.find id = some row ∧ row.state = .dispatching ∧
          row.dispatchMode = some .steer ∧
          next.questions.find id = some { row with state := .closedUnknown }) :
      AsyncStep hooks db .elsewhere next

abbrev AsyncRun (hooks : QuestionHooks ρ) (db : AsyncDb ρ) (events : List AsyncEvent)
    (next : AsyncDb ρ) : Prop :=
  Run (AsyncStep hooks) db events next

/-! ## Whole calls -/

variable {db next : AsyncDb ρ} {hooks : QuestionHooks ρ} {event : AsyncEvent}

theorem bindReceipt_runs {id : String} {interactive : Bool} {answer : Except StoreError Unit}
    (call : bindReceipt hooks id interactive db = (answer, next)) :
    ∃ events, AsyncRun hooks db events next := by
  unfold bindReceipt at call
  split at call
  · cases call
    exact ⟨[], .nil db⟩
  · split at call
    · next confirmed =>
      cases call
      exact ⟨_, .single (.ownerConfirmed id confirmed)⟩
    · next confirmed =>
      cases call
      exact ⟨_, .single (.ownerConfirmed id confirmed)⟩
    · next confirmed =>
      split at call
      · cases call
        exact ⟨_, .single (.ownerConfirmed id confirmed)⟩
      · next message _ =>
        exact ⟨_, .cons (.ownerConfirmed id confirmed) (.single (.bound id message interactive call))⟩

theorem retireOldOwner_runs {runtime : String} {generation : Int}
    {now : Rat} {answer : Except StoreError Nat}
    (call : retireOldOwner hooks runtime generation now db = (answer, next)) :
    AsyncRun hooks db [.inboxRetired, .retired answer] next :=
  .cons (.inboxRetired db runtime generation) (.single (.retired runtime generation now call))

theorem compactTerminal_runs {now : Timestamp}
    {answer : Except StoreError Nat} (call : compactTerminal hooks now db = (answer, next)) :
    ∃ events, AsyncRun hooks db events next := by
  cases now with
  | none =>
    cases call
    exact ⟨[], .nil db⟩
  | some now => exact ⟨_, .cons (.inboxCompacted db now) (.single (.compacted now call))⟩

/-! ## One step -/

theorem Ended.move {begins : String → Bool} {settles : Bool} {db next : AsyncDb ρ} {id : String}
    {row later : QuestionRow} (ended : Ended db next id row later)
    (state : StateMove .dispatching later.state) : QuestionsMove begins settles db next ∧
      ∀ other, db.questions.find other = none → next.questions.find other = none := by
  refine ⟨fun other before found => ?_, fun other absent => ?_⟩
  · by_cases same : other = id
    · subst same
      rw [ended.asked] at found
      cases found
      exact ⟨later, ended.after, .kept ended.pin ended.answer (Or.inr (ended.dispatching ▸ state))
        fun _ => ended.dispatching⟩
    · exact ⟨before, (ended.others other same).trans found, .refl _ _ before⟩
  · by_cases same : other = id
    · subst same
      rw [ended.asked] at absent
      cases absent
    · exact (ended.others other same).trans absent

theorem Began.filed {c : Claim} {q : Question} {later : QuestionRow}
    (began : Began db next c q later) : Filed later := by
  cases mode : c.mode with
  | start =>
    have named : later.id = c.id := Table.find_key began.after
    rw [Filed, named]
    exact Or.inr (began.start mode).1
  | steer => exact Or.inl (began.steer mode).1

theorem Began.move {db next : AsyncDb ρ} {c : Claim} {q claimed : Question} {later : QuestionRow}
    (began : Began db next c q later) :
    QuestionsMove (fun id => (AsyncEvent.began c (.ok claimed)).begins id) false db next ∧
      ∀ other, db.questions.find other = none → next.questions.find other = none := by
  refine ⟨fun other before found => ?_, fun other absent => ?_⟩
  · by_cases same : other = c.id
    · subst same
      rw [began.asked] at found
      cases found
      exact ⟨later, began.after, .dispatched (beq_self_eq_true c.id) began.pin began.opened
        began.dispatching began.filed⟩
    · exact ⟨before, (began.others other same).trans found, .refl _ _ before⟩
  · by_cases same : other = c.id
    · subst same
      rw [began.asked] at absent
      cases absent
    · exact (began.others other same).trans absent

/-- What one step does to the two tables of the questions -/
structure StepFacts (db : AsyncDb ρ) (event : AsyncEvent) (next : AsyncDb ρ) : Prop where
  moves : QuestionsMove (fun id => event.begins id) event.settles db next
  fresh : ∀ id row, db.questions.find id = none → next.questions.find id = some row →
    ∃ i job, db.inbox.find id = some i ∧ i.state = .waiting ∧ RunsAlone db i job ∧ row = i.question
  inbox : InboxMoves db next
  records : db.queue.archive.Extends next.queue.archive
  apart : Apart db → Apart next

/-- A step that adds no question -/
theorem StepFacts.of_moves (moves : QuestionsMove (fun id => event.begins id) event.settles db next)
    (absent : ∀ id, db.questions.find id = none → next.questions.find id = none)
    (inbox : InboxMoves db next) (records : db.queue.archive.Extends next.queue.archive) :
    StepFacts db event next where
  moves := moves
  fresh id row gone found := by
    rw [absent id gone] at found
    cases found
  inbox := inbox
  records := records
  apart apart := apart.of_moves inbox records absent

theorem StepFacts.refl (db : AsyncDb ρ) (event : AsyncEvent) : StepFacts db event db :=
  .of_moves (.of_same rfl) (fun _ gone => gone) (.of_same rfl) (.refl _)

theorem StepFacts.of_quiet (quiet : QuietMove db next) :
    StepFacts db event next :=
  .of_moves (.of_quiet quiet) quiet.only.absent (.of_same quiet.only.inbox) quiet.only.kept.records

/-- A transaction that fails changes nothing. -/
theorem StepFacts.of_commit {α : Type} {body : AsyncDb ρ → Except StoreError (α × AsyncDb ρ)}
    {answer : Except StoreError α} (call : commit body db = (answer, next))
    (each : ∀ a, body db = .ok (a, next) → StepFacts db event next) : StepFacts db event next := by
  cases answer with
  | error e =>
    cases commit_error call
    exact .refl db event
  | ok a => exact each a (commit_ok call)

theorem step_facts (step : AsyncStep hooks db event next) : StepFacts db event next := by
  cases step with
  | observed n call =>
    refine .of_commit call fun a result => ?_
    obtain ⟨inbox, queue, questions⟩ := recordObservationIn_ok result
    exact .of_moves (.of_same questions) (fun id gone => by rw [questions]; exact gone) inbox
      queue.records
  | reconciled scope =>
    have spec := reconcileIn_ok scope db
    refine ⟨fun id row found => ⟨row, spec.kept id row found, .refl _ _ row⟩, spec.fresh, spec.inbox,
      spec.queue.records, reconcileIn_apart scope⟩
  | ownerConfirmed id call => exact .of_commit call fun a result => .of_quiet (ownerConfirmedIn_ok result)
  | bound id message interactive call =>
    exact .of_commit call fun a result => .of_quiet (bindMessageIn_ok result)
  | @began _ queue c answer call =>
    cases answer with
    | error e =>
      cases commit_error call
      exact .refl db _
    | ok claimed =>
      obtain ⟨q, later, began⟩ := begin_spec call
      obtain ⟨moves, absent⟩ := @Began.move _ _ _ _ _ claimed _ began
      exact .of_moves moves absent (.of_same began.inbox) began.records
  | @confirmed _ queue id turn now answer call =>
    cases answer with
    | error e =>
      cases commit_error call
      exact .refl db _
    | ok done =>
      obtain ⟨row, ended, _⟩ := confirm_spec call
      obtain ⟨moves, absent⟩ := @Ended.move _ (fun _ => false) false _ _ _ _ _ ended .submitted
      refine .of_moves moves absent (.of_same ended.inbox) ?_
      rw [ended.archive]
      exact .refl _
  | @rejected _ queue id error now answer call =>
    cases answer with
    | error e =>
      cases commit_error call
      exact .refl db _
    | ok done =>
      obtain ⟨row, ended, _⟩ := reject_spec call
      obtain ⟨moves, absent⟩ := @Ended.move _ (fun _ => false) false _ _ _ _ _ ended .rejected
      refine .of_moves moves absent (.of_same ended.inbox) ?_
      rw [ended.archive]
      exact .refl _
  | errorRecorded id error now call =>
    exact .of_commit call fun a result => .of_quiet (recordErrorIn_ok result)
  | inboxRetired runtime generation =>
    refine .of_moves (.of_same rfl) (fun _ gone => gone) (.of_update fun i chosen => ?_) (.refl _)
    exact ⟨rfl, fun waiting => by cases waiting⟩
  | retired runtime generation now call =>
    exact .of_commit call fun a result => .of_quiet (retireQuestionsIn_ok result)
  | superseded runtime generation thread turn now call =>
    exact .of_commit call fun a result => .of_quiet (supersedeIn_ok result)
  | inboxCompacted now =>
    refine .of_moves (.of_same rfl) (fun _ gone => gone) (.of_update fun i chosen => ?_) (.refl _)
    exact ⟨rfl, fun waiting => waiting⟩
  | compacted now call =>
    exact .of_commit call fun a result => .of_quiet (compactQuestionsIn_ok result)
  | queue move records => exact .of_moves (.of_same rfl) (fun _ gone => gone) (.of_same rfl) records
  | elsewhere inbox records questions =>
    refine .of_moves (fun id row found => ?_) (fun id gone => ?_) (.of_same inbox) records
    · obtain same | ⟨before, there, dispatching, steered, after⟩ := questions id
      · exact ⟨row, same.trans found, .refl _ _ row⟩
      · rw [found] at there
        cases there
        exact ⟨_, after, .closed rfl steered dispatching rfl⟩
    · obtain same | ⟨before, there, _⟩ := questions id
      · exact same.trans gone
      · rw [gone] at there
        cases there

end CodexRemote.Verified.AsyncQuestion

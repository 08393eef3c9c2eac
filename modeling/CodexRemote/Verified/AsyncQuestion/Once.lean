import CodexRemote.Verified.AsyncQuestion.Reserved
import CodexRemote.Verified.Queue.Claims

/-! # A question is answered once

The invariant of the store has three parts: the inbox and the questions stay apart, an answer
has no job but its own, and the job of a dispatched start is the one job of its thread.  The
last part needs that nothing else removes the job, so it is kept by the steps that do not clear.
-/

namespace CodexRemote.Verified.AsyncQuestion

open Foundations Store Store.AsyncQuestion

variable {ρ : Type}

/-! ## The invariant -/

def AllFiled (db : AsyncDb ρ) : Prop :=
  ∀ id row, db.questions.find id = some row → Filed row

/-- Every dispatched answer that starts a turn has its reserved job. -/
def AllReserved (db : AsyncDb ρ) : Prop :=
  ∀ id row, db.questions.find id = some row → row.state = .dispatching →
    row.dispatchMode = some .start → row.replyJobId = some (replyJob id) ∧ Reserved db row

structure WellKept (db : AsyncDb ρ) : Prop where
  apart : Apart db
  filed : AllFiled db
  reserved : AllReserved db

variable {db next : AsyncDb ρ} {event : AsyncEvent} {id : String} {later row : QuestionRow}
  {hooks : QuestionHooks ρ}

theorem StepFacts.filed (facts : StepFacts db event next)
    (filed : AllFiled db) : AllFiled next := by
  intro id later found
  cases before : db.questions.find id with
  | none =>
    obtain ⟨i, job, _, _, _, rfl⟩ := facts.fresh id later before found
    exact Or.inl rfl
  | some row =>
    obtain ⟨after, same, move⟩ := facts.moves id row before
    cases found.symm.trans same
    exact move.filed (filed id row before)

/-- A question that is dispatched after a step was dispatched before it, or the step is its
claim. -/
theorem StepFacts.dispatched (facts : StepFacts db event next)
    (found : next.questions.find id = some later) (dispatching : later.state = .dispatching)
    (unclaimed : event.begins id = false) :
    ∃ row, db.questions.find id = some row ∧ row.state = .dispatching ∧ SamePin row later ∧
      SameAnswer row later := by
  cases before : db.questions.find id with
  | none =>
    obtain ⟨i, job, _, _, _, rfl⟩ := facts.fresh id later before found
    cases dispatching
  | some row =>
    obtain ⟨after, same, move⟩ := facts.moves id row before
    cases found.symm.trans same
    refine ⟨row, rfl, ?_⟩
    cases move with
    | kept pin answer _ undispatched => exact ⟨undispatched dispatching, pin, answer⟩
    | dispatched begins =>
      exact absurd (unclaimed.symm.trans begins) (by decide)
    | closed _ _ _ same =>
      subst same
      cases dispatching

/-! ## The reserved job over one step -/

theorem replyJob_injective {a b : String} (same : replyJob a = replyJob b) : a = b :=
  String.append_right_inj _ |>.1 same

/-- What a step does to the job that is reserved for a question, and to its thread -/
structure JobKept (db next : AsyncDb ρ) (q : QuestionRow) : Prop where
  job : ∀ row, db.queue.jobs.find (replyJob q.id) = some row → row.decodedState = .quarantined →
    next.queue.jobs.find (replyJob q.id) = some row
  old : ∀ row ∈ next.queue.jobs.rows, row.targetThreadId = q.threadId →
    ∃ before ∈ db.queue.jobs.rows, before.jobId = row.jobId ∧
      before.targetThreadId = row.targetThreadId

theorem JobKept.of_same {db next : AsyncDb ρ} {q : QuestionRow}
    (same : next.queue.jobs = db.queue.jobs) : JobKept db next q where
  job _ found _ := same ▸ found
  old row there _ := ⟨row, same ▸ there, rfl, rfl⟩

theorem Reserved.carry {q : QuestionRow} (reserved : Reserved db q)
    (kept : JobKept db next q) (pin : SamePin q later)
    (records : db.queue.archive.Extends next.queue.archive) : Reserved next later := by
  obtain ⟨row, found, quarantined, target, turn⟩ := reserved.job
  refine ⟨⟨row, ?_, quarantined, ?_, ?_⟩, fun other there same => ?_⟩
  · rw [pin.id]
    exact kept.job row found quarantined
  · rw [pin.thread]
    exact target
  · rw [pin.id]
    obtain attached | recorded := turn
    · exact Or.inl attached
    · exact Or.inr (records.recordRetired recorded)
  · rw [pin.thread] at same
    obtain ⟨before, present, named, target⟩ := kept.old other there same
    rw [← named, pin.id]
    exact reserved.only before present (target.trans same)

theorem decodedState_running {row : QueueRow} (quarantined : row.decodedState = .quarantined) :
    row.state = .running := by
  unfold QueueRow.decodedState at quarantined
  split at quarantined
  · cases quarantined
  · cases quarantined
  · next running => exact running

/-- A row that one of the two ends left as it is, or the job of another question -/
theorem JobKept.of_others {q : QuestionRow} {reply : String} (different : replyJob q.id ≠ reply)
    (others : ∀ other, other ≠ reply → next.queue.jobs.find other = db.queue.jobs.find other)
    (own : ∀ row, next.queue.jobs.find reply = some row → row.targetThreadId = q.threadId →
      ∃ before, db.queue.jobs.find reply = some before ∧
        before.targetThreadId = row.targetThreadId) : JobKept db next q where
  job row found _ := (others _ different).trans found
  old row there target := by
    have found := Table.find_of_mem there
    by_cases same : row.jobId = reply
    · rw [same] at found
      obtain ⟨before, present, target⟩ := own row found target
      exact ⟨before, Table.mem_of_find present, (Table.find_key present).trans same.symm, target⟩
    · rw [others _ same] at found
      exact ⟨row, Table.mem_of_find found, rfl, rfl⟩

/-- A claim takes a job in its own thread only, where it is then the one job. -/
theorem Began.jobs {c : Claim} {q : Question} {claimed : QuestionRow}
    (began : Began db next c q claimed) (reserved : Reserved db row) (other : row.id ≠ c.id) :
    JobKept db next row := by
  cases mode : c.mode with
  | steer => exact .of_same (began.steer mode).2.1
  | start =>
    obtain ⟨_, own, others⟩ := began.start mode
    have different : replyJob row.id ≠ replyJob c.id := fun same => other (replyJob_injective same)
    have named : claimed.id = c.id := Table.find_key began.after
    refine .of_others different others fun job found target => ?_
    -- were the new job in this thread, both reserved jobs would be its one job
    obtain ⟨mine, there, _, home, _⟩ := reserved.job
    obtain ⟨taken, present, _, taken_home, _⟩ := own.job
    rw [named] at present
    cases found.symm.trans present
    have kept : next.queue.jobs.find (replyJob row.id) = some mine :=
      (others _ different).trans there
    have sole := own.only mine (Table.mem_of_find kept)
      (home.trans (target.symm.trans taken_home))
    rw [Table.find_key kept, named] at sole
    exact absurd sole different

/-- The confirmation of another question touches the job of that question only. -/
theorem Accepted.jobs {turn : String}
    {job : QueueRow} {now : Rat} (accepted : Accepted db next id turn (replyJob id) job now)
    (other : row.id ≠ id) : JobKept db next row := by
  refine .of_others (fun same => other (replyJob_injective same)) accepted.others
    fun after found _ => ?_
  cases found.symm.trans accepted.after
  exact ⟨job, accepted.there, rfl⟩

theorem Released.jobs
    (released : Released db next id (replyJob id)) (other : row.id ≠ id) : JobKept db next row :=
  .of_others (fun same => other (replyJob_injective same)) released.others
    fun after found _ => ⟨after, released.left after found, rfl⟩

/-- The end of a dispatch leaves the jobs of the other questions alone. -/
theorem Ended.jobs {ended_row after : QuestionRow}
    (ended : Ended db next id ended_row after) (filed : AllFiled db)
    (started : ended_row.replyJobId = some (replyJob id) → JobKept db next row)
    (steered : ended_row.replyJobId = none → next.queue.jobs = db.queue.jobs) :
    JobKept db next row := by
  have named : ended_row.id = id := Table.find_key ended.asked
  obtain unfiled | own := filed id ended_row ended.asked
  · exact .of_same (steered unfiled)
  · exact started (named ▸ own)

/-- The queue passes over a reserved job, and lets no other request into its thread. -/
theorem ActiveKept.jobs {store : QueueDb ρ}
    (active : ActiveKept db store) (found : db.questions.find row.id = some row)
    (dispatching : row.state = .dispatching) (started : row.dispatchMode = some .start) :
    JobKept db { db with queue := store } row where
  job job found quarantined := active.kept _ job found (decodedState_running quarantined)
  old job there target := by
    obtain before | free := active.old job there
    · exact before
    · have held : dispatchHeldIn db job.targetThreadId = true :=
        List.any_eq_true.2 ⟨row, Table.mem_of_find found, by simp [target, dispatching, started]⟩
      rw [free] at held
      cases held

/-- A transaction that has nothing to do with jobs -/
theorem JobKept.of_commit {α : Type} {body : AsyncDb ρ → Except StoreError (α × AsyncDb ρ)}
    {answer : Except StoreError α} (call : commit body db = (answer, next))
    (each : ∀ a, body db = .ok (a, next) → next.queue.jobs = db.queue.jobs) :
    JobKept db next row := by
  cases answer with
  | error e =>
    cases commit_error call
    exact .of_same rfl
  | ok a => exact .of_same (each a (commit_ok call))

/-- What one step does to the reserved job of a question that stays dispatched -/
theorem step_jobs (step : AsyncStep hooks db event next) (clear : event.clears = false)
    (filed : AllFiled db) (reserved : Reserved db row)
    (found : db.questions.find row.id = some row) (dispatching : row.state = .dispatching)
    (started : row.dispatchMode = some .start) (after : next.questions.find row.id = some later)
    (stays : later.state = .dispatching) : JobKept db next row := by
  cases step with
  | observed n call => exact .of_commit call fun a result => (recordObservationIn_ok result).2.1.jobs
  | reconciled scope => exact .of_same (reconcileIn_ok scope db).queue.jobs
  | ownerConfirmed id call =>
    exact .of_commit call fun a result => (ownerConfirmedIn_ok result).only.jobs
  | bound id message interactive call =>
    exact .of_commit call fun a result => (bindMessageIn_ok result).only.jobs
  | @began _ queue c answer call =>
    cases answer with
    | error e =>
      cases commit_error call
      exact .of_same rfl
    | ok answered =>
      obtain ⟨q, claimed, began⟩ := begin_spec call
      refine began.jobs reserved fun same => ?_
      -- a claim takes an open question
      have there := began.asked
      rw [← same, found] at there
      cases there
      exact absurd (dispatching.symm.trans began.opened) (by decide)
  | @confirmed _ queue id turn now answer call =>
    cases answer with
    | error e =>
      cases commit_error call
      exact .of_same rfl
    | ok done =>
      obtain ⟨ended_row, ended, start, steer⟩ := confirm_spec call
      have other : row.id ≠ id := by
        intro same
        rw [same, ended.after] at after
        cases after
        cases stays
      refine ended.jobs filed (fun own => ?_) fun unfiled => (steer unfiled).2
      obtain ⟨job, accepted⟩ := start _ own
      exact accepted.jobs other
  | @rejected _ queue id error now answer call =>
    cases answer with
    | error e =>
      cases commit_error call
      exact .of_same rfl
    | ok done =>
      obtain ⟨ended_row, ended, start, steer⟩ := reject_spec call
      have other : row.id ≠ id := by
        intro same
        rw [same, ended.after] at after
        cases after
        cases stays
      exact ended.jobs filed (fun own => (start _ own).jobs other) steer
  | errorRecorded id error now call =>
    exact .of_commit call fun a result => (recordErrorIn_ok result).only.jobs
  | inboxRetired runtime generation => exact .of_same rfl
  | retired runtime generation now call =>
    exact .of_commit call fun a result => (retireQuestionsIn_ok result).only.jobs
  | superseded runtime generation thread turn now call =>
    exact .of_commit call fun a result => (supersedeIn_ok result).only.jobs
  | inboxCompacted now => exact .of_same rfl
  | compacted now call =>
    exact .of_commit call fun a result => (compactQuestionsIn_ok result).only.jobs
  | queue move records =>
    exact (queueMove_active move clear).jobs found dispatching started
  | elsewhere => cases clear

/-! ## Steps and runs -/

theorem step_begins (step : AsyncStep hooks db event next) (begins : event.begins id = true) :
    ∃ c answered q later, event = .began c (.ok answered) ∧ c.id = id ∧ Began db next c q later := by
  cases step with
  | @began _ queue c answer call =>
    cases answer with
    | error e => cases begins
    | ok answered =>
      obtain ⟨q, later, began⟩ := begin_spec call
      exact ⟨c, answered, q, later, rfl, beq_iff_eq.1 begins, began⟩
  | queue move => cases move <;> cases begins
  | _ => cases begins

theorem step_reserved
    (step : AsyncStep hooks db event next) (clear : event.clears = false) (filed : AllFiled db)
    (reserved : AllReserved db) : AllReserved next := by
  have facts := step_facts step
  intro id later found dispatching started
  cases begins : event.begins id with
  | true =>
    obtain ⟨c, answered, q, claimed, _, rfl, began⟩ := step_begins step begins
    cases found.symm.trans began.after
    have mode : c.mode = .start := Option.some.inj (began.mode.symm.trans started)
    obtain ⟨reply, own, _⟩ := began.start mode
    exact ⟨reply, own⟩
  | false =>
    obtain ⟨row, before, was, pin, answer⟩ := facts.dispatched found dispatching begins
    have mode : row.dispatchMode = some .start := answer.mode.symm.trans started
    obtain ⟨reply, own⟩ := reserved id row before was mode
    have named : row.id = id := Table.find_key before
    subst named
    exact ⟨answer.reply.trans reply, own.carry
      (step_jobs step clear filed own before was mode found dispatching) pin facts.records⟩

/-- Questions and observations stay apart and filed over any run. -/
theorem run_kept {events : List AsyncEvent}
    (run : AsyncRun hooks db events next) (apart : Apart db) (filed : AllFiled db) :
    Apart next ∧ AllFiled next :=
  run.preserves (fun db => Apart db ∧ AllFiled db)
    (fun _ _ _ step kept => ⟨(step_facts step).apart kept.1, (step_facts step).filed kept.2⟩)
    ⟨apart, filed⟩

theorem run_wellKept {events : List AsyncEvent}
    (run : AsyncRun hooks db events next) (clear : ∀ event ∈ events, event.clears = false)
    (start : WellKept db) : WellKept next := by
  refine run.preserves_of WellKept (·.clears = false) (fun s event t allowed step kept => ?_) clear start
  have facts := step_facts step
  exact ⟨facts.apart kept.apart, facts.filed kept.filed,
    step_reserved step allowed kept.filed kept.reserved⟩

/-- A question that is not dispatched yet has one claim left. -/
def claimsLeft (id : String) (db : AsyncDb ρ) : Nat :=
  if (db.questions.find id).all (·.state.undispatched) then 1 else 0

theorem step_claims (id : String) (step : AsyncStep hooks db event next) :
    (event.begins id).toNat + claimsLeft id next ≤ claimsLeft id db + (false : Bool).toNat := by
  have facts := step_facts step
  cases begins : event.begins id with
  | true =>
    obtain ⟨c, answered, q, later, _, rfl, began⟩ := step_begins step begins
    simp [claimsLeft, began.asked, began.after, began.opened, began.dispatching,
      QuestionState.undispatched]
  | false =>
    simp only [claimsLeft, Bool.toNat_false, Nat.zero_add, Nat.add_zero]
    cases before : db.questions.find id with
    | none => split <;> simp
    | some row =>
      obtain ⟨later, after, move⟩ := facts.moves id row before
      rw [after]
      cases undispatched : row.state.undispatched with
      | true => split <;> simp [undispatched]
      | false => simp [move.undispatched undispatched]

/-- A question is claimed at most once. -/
theorem run_claims {events : List AsyncEvent}
    (id : String) (run : AsyncRun hooks db events next) : events.countP (·.begins id) ≤ 1 := by
  have spent := run.spends_le (claimsLeft id) (·.begins id) (fun _ => false)
    fun _ _ _ step => step_claims id step
  have credit : claimsLeft id db ≤ 1 := by
    unfold claimsLeft
    split <;> omega
  simp only [List.countP_false, Function.const_apply] at spent
  omega

/-! ## The reserved job at the end of a dispatch -/

theorem step_confirms {turn : String}
    (step : AsyncStep hooks db (.confirmed id turn (.ok ())) next) (filed : AllFiled db) :
    ∃ row now, Ended db next id row (row.submit turn now) ∧
      (row.replyJobId.isSome → ∃ job, Accepted db next id turn (replyJob id) job now) := by
  cases step with
  | @confirmed _ queue _ _ now _ call =>
    obtain ⟨row, ended, started, _⟩ := confirm_spec call
    refine ⟨row, now, ended, fun some_reply => ?_⟩
    have named : row.id = id := Table.find_key ended.asked
    obtain none_ | own := filed id row ended.asked
    · rw [none_] at some_reply
      cases some_reply
    · exact started _ (named ▸ own)
  | queue move => cases move

theorem step_rejects
    (step : AsyncStep hooks db (.rejected id (.ok ())) next) (filed : AllFiled db) :
    ∃ row error now, Ended db next id row (row.reject error now) ∧
      (row.replyJobId.isSome → Released db next id (replyJob id)) := by
  cases step with
  | @rejected _ queue _ error now _ call =>
    obtain ⟨row, ended, started, _⟩ := reject_spec call
    refine ⟨row, error, now, ended, fun some_reply => ?_⟩
    have named : row.id = id := Table.find_key ended.asked
    obtain none_ | own := filed id row ended.asked
    · rw [none_] at some_reply
      cases some_reply
    · exact started _ (named ▸ own)
  | queue move => cases move

/-- A definite rejection removes the reserved job, unless an archived room keeps its row. -/
theorem Released.reserved
    (released : Released db next row.id (replyJob row.id)) (reserved : Reserved db row) :
    next.queue.jobs.find (replyJob row.id) = none ∨
      db.queue.archive.recordRetired .turnQueue (replyJob row.id) = true := by
  obtain gone | recorded | foreign := released.gone
  · exact Or.inl gone
  · exact Or.inr recorded
  · obtain ⟨job, found, _, _, attached | recorded⟩ := reserved.job
    · exact absurd attached (foreign job found)
    · exact Or.inr recorded

/-- What the claim of an answer needs and leaves -/
structure ClaimedBy (db next : AsyncDb ρ) (c : Claim) (row later : QuestionRow) : Prop where
  asked : db.questions.find c.id = some row
  opened : row.state = .opened
  runtime : row.runtimeId = c.runtimeId
  generation : row.generation = c.generation
  channel : row.channelId = c.channel
  owner : row.ownerUserId = c.actor
  message : row.messageId = some c.message
  after : next.questions.find c.id = some later
  dispatching : later.state = .dispatching
  chosen : later.chosen = c.answer.index?
  text : later.answerText = c.answer.text?
  mode : later.dispatchMode = some c.mode

theorem Began.claimedBy {c : Claim} {q : Question}
    (began : Began db next c q later) : ClaimedBy db next c q.row later := by
  have agrees := began.agrees
  simp only [Claim.matches, Bool.and_eq_true, beq_iff_eq] at agrees
  obtain ⟨⟨⟨⟨⟨runtime, generation⟩, channel⟩, owner⟩, message⟩, _⟩ := agrees
  exact ⟨began.asked, began.opened, runtime, generation, channel, owner, message, began.after,
    began.dispatching, began.chosen, began.text, began.mode⟩

/-- A question moves forward, and what it was dispatched with stays. -/
theorem StepFacts.forward (facts : StepFacts db event next)
    (found : db.questions.find id = some row) :
    ∃ later, next.questions.find id = some later ∧ SamePin row later ∧
      (later.state = row.state ∨ StateMove row.state later.state ∨
        (event.settles = true ∧ row.dispatchMode = some .steer ∧ row.state = .dispatching ∧
          later.state = .closedUnknown)) ∧
      (row.state.undispatched = false → SameAnswer row later) := by
  obtain ⟨later, after, move⟩ := facts.moves id row found
  exact ⟨later, after, move.pin, move.state, move.keepsAnswer⟩

theorem question_answered_once {hooks : QuestionHooks ρ} {db before next : AsyncDb ρ}
    {events : List AsyncEvent} {event : AsyncEvent} (start : WellKept db)
    (run : AsyncRun hooks db events before) (step : AsyncStep hooks before event next) :
    Apart next ∧
      (∀ id row, before.questions.find id = some row →
        ∃ later, next.questions.find id = some later ∧ SamePin row later ∧
          (later.state = row.state ∨ StateMove row.state later.state ∨
            (event.settles = true ∧ row.dispatchMode = some .steer ∧ row.state = .dispatching ∧
              later.state = .closedUnknown)) ∧
          (row.state.undispatched = false → SameAnswer row later)) ∧
      (∀ id row, before.questions.find id = none → next.questions.find id = some row →
        ∃ i job, before.inbox.find id = some i ∧ i.state = .waiting ∧ RunsAlone before i job ∧
          row = i.question) ∧
      InboxMoves before next ∧
      (∀ id, (events ++ [event]).countP (·.begins id) ≤ 1) ∧
      (∀ c answered, event = .began c (.ok answered) →
        ∃ row later, ClaimedBy before next c row later) ∧
      (∀ id turn, event = .confirmed id turn (.ok ()) →
        ∃ row now, Ended before next id row (row.submit turn now) ∧
          (row.replyJobId.isSome → ∃ job, Accepted before next id turn (replyJob id) job now)) ∧
      ((∀ e ∈ events, e.clears = false) →
        (event.clears = false → AllReserved next) ∧
        ∀ id, event = .rejected id (.ok ()) →
          ∃ row error now, Ended before next id row (row.reject error now) ∧
            (row.dispatchMode = some .start → next.queue.jobs.find (replyJob id) = none ∨
              before.queue.archive.recordRetired .turnQueue (replyJob id) = true)) := by
  obtain ⟨apart, filed⟩ := run_kept run start.apart start.filed
  have facts := step_facts step
  refine ⟨facts.apart apart, fun id row found => facts.forward found, facts.fresh, facts.inbox,
    fun id => run_claims id (run.append (.single step)), fun c answered same => ?_,
    fun id turn same => ?_, fun clear => ?_⟩
  · subst same
    obtain ⟨_, _, q, later, same, _, began⟩ := step_begins step (beq_self_eq_true c.id)
    cases same
    exact ⟨q.row, later, began.claimedBy⟩
  · subst same
    exact step_confirms step filed
  · have kept := run_wellKept run clear start
    refine ⟨fun quiet => step_reserved step quiet filed kept.reserved, fun id same => ?_⟩
    subst same
    obtain ⟨row, error, now, ended, released⟩ := step_rejects step filed
    refine ⟨row, error, now, ended, fun started => ?_⟩
    obtain ⟨reply, own⟩ := kept.reserved id row ended.asked ended.dispatching started
    have named : row.id = id := Table.find_key ended.asked
    subst named
    exact (released (by rw [reply]; rfl)).reserved own

/-! ## An open question, a recovery and an archived room -/

def quietQuestions : QuestionHooks Unit where
  occurrenceId _ _ item _ := item
  bodyText body := body.title
  parseBody text := some ⟨false, 0, "", text, ["yes", "no"]⟩
  cleanupFenced _ _ := false
  archiveFenced _ _ := false
  receiptMessage _ _ _ := some "message"
  bodyKept _ _ := false
  sealFence _ _ := none
  afterUpdate _ _ := .ok ()

def observation : InboxRow where
  id := "question"
  runtimeId := "bot"
  generation := 3
  threadId := "thread"
  turnId := "turn-2"
  itemId := "question"
  candidateJobId := "job"
  candidateChannelId := 7
  candidateOwnerId := 1
  candidateGeneration := some 3
  candidateExecutionGeneration := some 3
  candidateAttemptCount := some 1
  body := "Proceed?"
  state := .waiting
  createdAt := 0

def openQuestion : QuestionRow :=
  { observation.question with state := .opened, messageId := some "message" }

/-- The turn of the question has ended, so its job is gone. -/
def openedStore : AsyncDb Unit where
  queue := { Queue.onlyJob Queue.waitingRow with
    jobs := .empty
    archive := { Archive.empty with mirrorThreads := [⟨"thread", 5, 7⟩] } }
  questions := ⟨[openQuestion], List.nodup_singleton _⟩
  inbox := .empty
  textFormat := none

def yes : Claim where
  id := "question"
  runtimeId := "bot"
  generation := 3
  channel := 7
  actor := 1
  message := "message"
  answer := .choice 0
  mode := .start
  baselineTurnIds := ["turn-2"]
  prompt := "yes"
  now := some 1

def answeredStore : AsyncDb Unit := (beginDispatch quietQuestions Queue.quietHooks yes openedStore).2

/-- A full recovery takes the reserved job with the other jobs of the thread. -/
def recoveredStore : AsyncDb Unit :=
  { answeredStore with
    queue := (cancelForRecovery (answeredStore.hooks Queue.quietHooks) "thread" 7 1 (some 2)
      answeredStore.queue).2 }

/-- The room of a waiting observation is being archived while its turn runs. -/
def archivingStore : AsyncDb Unit where
  queue := { Queue.onlyJob Queue.runningRow with
    archive := { Archive.empty with
      dispositions := [⟨"cleanup", 7, "thread", .prepared⟩]
      records := [⟨"cleanup", .asyncQuestionInbox, "question"⟩] } }
  questions := .empty
  inbox := ⟨[observation], List.nodup_singleton _⟩
  textFormat := none

def promotedStore : AsyncDb Unit := (reconcileIn ⟨none, none, some "job"⟩ archivingStore).2

theorem openedStore_kept : WellKept openedStore := by
  refine ⟨fun id i found => ?_, fun id row found => ?_, fun id row found dispatching => ?_⟩
  · cases found
  · have only : row ∈ [openQuestion] := Table.mem_of_find found
    rw [List.mem_singleton.1 only]
    exact Or.inl rfl
  · have only : row ∈ [openQuestion] := Table.mem_of_find found
    rw [List.mem_singleton.1 only] at dispatching
    cases dispatching

theorem archivingStore_kept : WellKept archivingStore := by
  refine ⟨fun id i _ _ asked => ?_, fun id row found => ?_, fun id row found => ?_⟩
  · cases asked
  · cases found
  · cases found

theorem reserved_job_recovered_and_observation_kept :
    (WellKept openedStore ∧
      AsyncRun quietQuestions openedStore
        [.began yes (beginDispatch quietQuestions Queue.quietHooks yes openedStore).1,
          .recovered (cancelForRecovery (answeredStore.hooks Queue.quietHooks) "thread" 7 1 (some 2)
            answeredStore.queue).1] recoveredStore ∧
      (recoveredStore.questions.find "question").map (·.state) = some .dispatching ∧
      (recoveredStore.questions.find "question").map (·.dispatchMode) = some (some .start) ∧
      recoveredStore.queue.jobs.rows = []) ∧
    WellKept archivingStore ∧
      AsyncRun quietQuestions archivingStore [.reconciled] promotedStore ∧
      (promotedStore.inbox.find "question").map (·.state) = some .waiting ∧
      (promotedStore.questions.find "question").isSome := by
  obtain ⟨none_, dispatching, mode, cancelled⟩ : answeredStore.queue.archive.records = [] ∧
      (recoveredStore.questions.find "question").map (·.state) = some .dispatching ∧
      (recoveredStore.questions.find "question").map (·.dispatchMode) = some (some .start) ∧
      recoveredStore.queue.jobs.rows = [] := by decide +kernel
  have records : answeredStore.queue.archive.Extends recoveredStore.queue.archive := by
    intro e member
    rw [none_] at member
    cases member
  refine ⟨⟨openedStore_kept, ?_, dispatching, mode, cancelled⟩,
    archivingStore_kept, .single (.reconciled archivingStore _), by decide +kernel,
    by decide +kernel⟩
  exact .cons (.began Queue.quietHooks yes (Prod.eta _).symm) (.single (.queue
    (.recovered Queue.quietHooks "thread" 7 1 (some 2) (fun _ => .ok ()) (Prod.eta _).symm) records))

/-! The question is answered, the answer is given again, and its dispatch is rejected. -/

def askedAgain : AsyncDb Unit := (beginDispatch quietQuestions Queue.quietHooks yes answeredStore).2

def rejectedStore : AsyncDb Unit :=
  (rejectDefinite quietQuestions Queue.quietHooks "question" "refused" 2 askedAgain).2

def answeredTwice : List AsyncEvent :=
  [.began yes (beginDispatch quietQuestions Queue.quietHooks yes openedStore).1,
    .began yes (beginDispatch quietQuestions Queue.quietHooks yes answeredStore).1]

theorem open_question_claimed :
    (∃ row later, ClaimedBy openedStore answeredStore yes row later) ∧
      answeredTwice.countP (·.begins "question") = 1 ∧
      (answeredTwice ++ [AsyncEvent.rejected "question" (.ok ())]).countP (·.begins "question") ≤ 1 ∧
      Apart rejectedStore ∧ AllReserved rejectedStore ∧
      ∃ row error now, Ended askedAgain rejectedStore "question" row (row.reject error now) ∧
        (row.dispatchMode = some .start →
          rejectedStore.queue.jobs.find (replyJob "question") = none ∨
            askedAgain.queue.archive.recordRetired .turnQueue (replyJob "question") = true) := by
  obtain ⟨answered, once, rejected⟩ :
      (beginDispatch quietQuestions Queue.quietHooks yes openedStore).1.isOk = true ∧
        answeredTwice.countP (·.begins "question") = 1 ∧
        (rejectDefinite quietQuestions Queue.quietHooks "question" "refused" 2 askedAgain).1 =
          .ok () := by decide +kernel
  have begins : AsyncStep quietQuestions openedStore
      (.began yes (beginDispatch quietQuestions Queue.quietHooks yes openedStore).1)
      answeredStore := .began Queue.quietHooks yes (Prod.eta _).symm
  have run : AsyncRun quietQuestions openedStore answeredTwice askedAgain :=
    .cons begins (.single (.began Queue.quietHooks yes (Prod.eta _).symm))
  have rejects : AsyncStep quietQuestions askedAgain (.rejected "question" (.ok ())) rejectedStore :=
    .rejected Queue.quietHooks "question" "refused" 2 (Prod.ext rejected rfl)
  obtain ⟨_, _, _, _, _, claimed, _, _⟩ :=
    question_answered_once openedStore_kept (.nil openedStore) begins
  obtain ⟨apart, _, _, _, counts, _, _, calm⟩ :=
    question_answered_once openedStore_kept run rejects
  -- no recovery clears the queue in between, so the replies stay reserved
  have quiet : ∀ e ∈ answeredTwice, e.clears = false := by
    simp [answeredTwice, AsyncEvent.clears]
  obtain ⟨reserved, ended⟩ := calm quiet
  refine ⟨?_, once, counts "question", apart, reserved rfl, ended "question" rfl⟩
  generalize (beginDispatch quietQuestions Queue.quietHooks yes openedStore).1 = answer
    at answered claimed
  cases answer with
  | error error => cases answered
  | ok question => exact claimed yes question rfl

end CodexRemote.Verified.AsyncQuestion

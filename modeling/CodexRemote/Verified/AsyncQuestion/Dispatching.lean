import CodexRemote.Verified.AsyncQuestion.Observations
import CodexRemote.Verified.Queue.Moves

/-! # Dispatching an answer

One inversion theorem for the claim of an answer, its confirmation and its rejection.  The seal
is taken after the writes of the claim, so what it checked holds when the claim is answered.
-/

namespace CodexRemote.Verified.AsyncQuestion

open Foundations Store Store.AsyncQuestion
open Verified.Queue (updateJobs_ok enqueueIn_ok selectJob_ok)

variable {ρ : Type}

/-! ## Jobs -/

/-- The answer that starts a turn has the one job of its thread, which no recovery touches. -/
structure Reserved (db : AsyncDb ρ) (q : QuestionRow) : Prop where
  job : ∃ row, db.queue.jobs.find (replyJob q.id) = some row ∧ row.decodedState = .quarantined ∧
    row.targetThreadId = q.threadId ∧ (row.turnId = some (reservedTurn q.id) ∨
      db.queue.archive.recordRetired .turnQueue (replyJob q.id) = true)
  only : ∀ row ∈ db.queue.jobs.rows, row.targetThreadId = q.threadId → row.jobId = replyJob q.id

/-- The job of the question's own turn is the only active one of its thread and runs that turn. -/
structure RunsOrigin (db : AsyncDb ρ) (q : QuestionRow) (row : QueueRow) : Prop where
  there : row ∈ db.queue.jobs.rows
  job : row.jobId = q.originJobId
  running : row.decodedState = .running
  turn : row.turnId = some q.turnId
  sole : ∀ other ∈ db.queue.jobs.rows, other.targetThreadId = q.threadId →
    other.state ≠ .pending → other = row

theorem decode_state {row : QueueRow} {job : StoredQueueJob} (decoded : row.decode = .ok job) :
    job.state = row.decodedState ∧ job.turnId = row.turnId ∧
      job.targetThreadId = row.targetThreadId ∧ job.jobId = row.jobId := by
  obtain ⟨_, _, rfl⟩ := map_ok.1 decoded
  exact ⟨rfl, rfl, rfl, rfl⟩

theorem selectJob_found {db : QueueDb ρ} {jobId : String} {job : StoredQueueJob}
    (result : selectJob db jobId = .ok job) :
    ∃ row, db.jobs.find jobId = some row ∧ row.decode = .ok job := by
  cases found : db.jobs.find jobId with
  | none =>
    rw [selectJob, found] at result
    cases result
  | some row => exact ⟨row, rfl, selectJob_ok result found⟩

/-- An enqueue keeps the records of archived rooms, and needs a thread without a dispatched
answer. -/
theorem enqueueIn_records {hooks : QueueHooks ρ} {db next : QueueDb ρ} {newJob : NewQueueJob}
    {answer : QueueEnqueueResult} (result : enqueueIn hooks newJob db = .ok (answer, next)) :
    db.archive.Extends next.archive ∧
      ∃ rest, hooks.asyncDispatchHeld { db with rest := rest } newJob.targetThreadId = false := by
  unfold enqueueIn at result
  obtain ⟨rest, _, result⟩ := bind_ok.1 result
  obtain ⟨_, _, result⟩ := bind_ok.1 result
  obtain ⟨free, result⟩ := guard_ok.1 result
  obtain ⟨_, _, result⟩ := bind_ok.1 result
  obtain ⟨_, _, result⟩ := bind_ok.1 result
  obtain ⟨⟨created, after⟩, inserted, result⟩ := bind_ok.1 result
  obtain ⟨job, _, result⟩ := bind_ok.1 result
  cases result
  refine ⟨?_, rest, by simpa using free⟩
  unfold insertJob at inserted
  obtain ⟨_, inserted⟩ := guard_ok.1 inserted
  split at inserted
  · cases inserted
  · obtain ⟨_, inserted⟩ | ⟨_, inserted⟩ := ite_ok.1 inserted
    · cases inserted
      exact .refl _
    · cases inserted
      exact Archive.capture_extends _ _ _ _

/-- What an enqueue does to the jobs of other ids -/
theorem enqueueIn_others {hooks : QueueHooks ρ} {db next : QueueDb ρ} {newJob : NewQueueJob}
    {answer : QueueEnqueueResult} (result : enqueueIn hooks newJob db = .ok (answer, next)) :
    ∀ other, other ≠ newJob.jobId → next.jobs.find other = db.jobs.find other := by
  intro other different
  obtain ⟨_, _, _, inserted, _⟩ := enqueueIn_ok result
  obtain ⟨_, rows, _⟩ | ⟨_, same⟩ := inserted
  · rw [Table.find_append rows]
    exact if_neg fun same => different same.symm
  · rw [same]

variable {changed : Nat} {c : Claim} {db next : AsyncDb ρ} {now : Rat} {q : Question}
  {queue : QueueHooks ρ} {hooks : QuestionHooks ρ} {id : String}

theorem updateJobs_find {hooks : QueueHooks ρ} {db next : QueueDb ρ}
    {condition : QueueRow → Bool} {assign : QueueRow → QueueRow}
    {keeps : ∀ r, (assign r).jobId = r.jobId}
    (result : updateJobs hooks db condition assign keeps = .ok (changed, next)) (jobId : String) :
    next.jobs.find jobId = (db.jobs.find jobId).map fun r =>
      if condition r && !db.archive.frozen .turnQueue r.jobId then assign r else r := by
  obtain ⟨_, rfl, _⟩ := updateJobs_ok result
  exact @Table.find_update _ _ _ _ db.jobs _ assign keeps jobId

/-- An update whose condition names one job leaves the others as they are. -/
theorem updateJobs_others {hooks : QueueHooks ρ} {db next : QueueDb ρ}
    {condition : QueueRow → Bool} {assign : QueueRow → QueueRow}
    {keeps : ∀ r, (assign r).jobId = r.jobId} {jobId : String}
    (named : ∀ r, condition r = true → r.jobId = jobId)
    (result : updateJobs hooks db condition assign keeps = .ok (changed, next)) :
    ∀ other, other ≠ jobId → next.jobs.find other = db.jobs.find other := by
  intro other different
  rw [updateJobs_find result]
  cases found : db.jobs.find other with
  | none => rfl
  | some row =>
    have unselected : condition row = false := by
      cases selected : condition row with
      | false => rfl
      | true => exact absurd ((Table.find_key found).symm.trans (named row selected)) different
    simp [unselected]

/-- An update that changed one job, named by its condition -/
theorem updateJobs_one {hooks : QueueHooks ρ} {db next : QueueDb ρ}
    {condition : QueueRow → Bool} {assign : QueueRow → QueueRow}
    {keeps : ∀ r, (assign r).jobId = r.jobId} {jobId : String}
    (named : ∀ r, condition r = true → r.jobId = jobId) (one : changed = 1)
    (result : updateJobs hooks db condition assign keeps = .ok (changed, next)) :
    ∃ row, db.jobs.find jobId = some row ∧ condition row = true ∧
      next.jobs.find jobId = some (assign row) := by
  obtain ⟨count, rfl, _⟩ := updateJobs_ok result
  obtain ⟨zero, _⟩ | ⟨_, row, there, selected, after, _⟩ :=
    @Table.update_keyed _ _ _ _ db.jobs (fun r => condition r && !db.archive.frozen .turnQueue r.jobId)
      assign keeps jobId (fun r chosen => named r (Bool.and_eq_true _ _ ▸ chosen).1)
  · omega
  · exact ⟨row, there, (Bool.and_eq_true _ _ ▸ selected).1, after⟩

/-! ## The reserved job -/

/-- What the reservation does to the store -/
structure ReservedIn (db next : AsyncDb ρ) (id : String) : Prop where
  frame : ∃ store, next = { db with queue := store }
  records : db.queue.archive.Extends next.queue.archive
  others : ∀ other, other ≠ replyJob id → next.queue.jobs.find other = db.queue.jobs.find other
  turn : ∀ row, next.queue.jobs.find (replyJob id) = some row →
    row.turnId = some (reservedTurn id) ∨
      next.queue.archive.recordRetired .turnQueue (replyJob id) = true

theorem reserveIn_ok {jobs : List StoredQueueJob} {job : String}
    (result : reserveIn queue c q now jobs db = .ok (job, next)) :
    job = replyJob q.row.id ∧ ReservedIn db next q.row.id := by
  unfold reserveIn at result
  obtain ⟨_, result⟩ | ⟨_, result⟩ := ite_ok.1 result
  · cases result
  obtain ⟨_, result⟩ | ⟨_, result⟩ := ite_ok.1 result
  · cases result
  obtain ⟨⟨enqueued, store⟩, insertion, result⟩ := bind_ok.1 result
  obtain ⟨⟨changed, written⟩, update, result⟩ := bind_ok.1 result
  cases result
  have others := updateJobs_others (fun r chosen => beq_iff_eq.1 chosen) update
  have written := updateJobs_find update (replyJob q.row.id)
  obtain ⟨_, rfl, _⟩ := updateJobs_ok update
  refine ⟨rfl, ⟨_, rfl⟩, (enqueueIn_records insertion).1,
    fun other different => (others other different).trans (enqueueIn_others insertion other different),
    fun row found => ?_⟩
  obtain ⟨before, there, rfl⟩ := Option.map_eq_some_iff.1 (written.symm.trans found)
  split
  · exact Or.inl rfl
  · next unselected =>
    -- the update passes over a row that an archived room has frozen
    have named : before.jobId = replyJob q.row.id := Table.find_key there
    exact Or.inr (Archive.frozen_retired (by simpa [named] using unselected))

/-! ## The seal -/

theorem identity_ok {value : Json} (result : identity hooks db q = .ok value) :
    validateMapping hooks db q = .ok () ∧ ∃ job,
      selectJob db.queue (q.row.replyJobId.getD q.row.originJobId) = .ok job ∧
      ownsJob db q job = .ok () := by
  unfold identity at result
  obtain ⟨_, mapped, result⟩ := bind_ok.1 result
  obtain ⟨job, selected, result⟩ := bind_ok.1 result
  obtain ⟨_, owned, _⟩ := bind_ok.1 result
  exact ⟨mapped, job, selected, owned⟩

/-- The identity of a started answer: the only job of its thread is quarantined. -/
theorem identity_start {value : Json} {reply : String} (result : identity hooks db q = .ok value)
    (started : q.row.replyJobId = some reply) :
    ∃ row, db.queue.jobs.find reply = some row ∧ row.decodedState = .quarantined ∧
      row.targetThreadId = q.row.threadId ∧
      ∀ other ∈ db.queue.jobs.rows, other.targetThreadId = q.row.threadId → other = row := by
  obtain ⟨_, job, selected, owned⟩ := identity_ok result
  rw [started, Option.getD_some] at selected
  obtain ⟨row, found, decoded⟩ := selectJob_found selected
  obtain ⟨state, _, target, _⟩ := decode_state decoded
  unfold ownsJob at owned
  obtain ⟨_, owned⟩ | ⟨own, owned⟩ := ite_ok.1 owned
  · cases owned
  rw [started] at owned
  simp only [Option.isSome_some, if_true] at owned
  obtain ⟨_, owned⟩ | ⟨sole, _⟩ := ite_ok.1 owned
  · cases owned
  simp only [Bool.or_eq_true, bne_iff_ne, ne_eq, not_or, not_not] at own sole
  refine ⟨row, found, state.symm.trans sole.1.2, target.symm.trans own.1.1, ?_⟩
  intro other there same
  have counted : (db.queue.jobs.select (·.targetThreadId == q.row.threadId)).length = 1 :=
    (List.countP_eq_length_filter ..).symm.trans sole.1.1
  obtain ⟨only, rows⟩ := List.length_eq_one_iff.1 counted
  have listed : ∀ r ∈ db.queue.jobs.rows, r.targetThreadId = q.row.threadId → r = only := by
    intro r member named
    have chosen : r ∈ db.queue.jobs.select (·.targetThreadId == q.row.threadId) :=
      List.mem_filter.2 ⟨member, by simpa using named⟩
    rw [rows] at chosen
    exact List.mem_singleton.1 chosen
  rw [listed other there same]
  exact (listed row (Table.mem_of_find found) (target.symm.trans own.1.1)).symm

/-- The identity of a steer: the question's own job still runs its turn, alone. -/
theorem identity_steer {value : Json}
    (result : identity hooks db q = .ok value) (steered : q.row.replyJobId = none) :
    ∃ row, RunsOrigin db q.row row := by
  obtain ⟨_, job, selected, owned⟩ := identity_ok result
  rw [steered, Option.getD_none] at selected
  obtain ⟨row, found, decoded⟩ := selectJob_found selected
  obtain ⟨state, turn, _, _⟩ := decode_state decoded
  unfold ownsJob at owned
  obtain ⟨_, owned⟩ | ⟨_, owned⟩ := ite_ok.1 owned
  · cases owned
  rw [steered] at owned
  simp only [Option.isSome_none, Bool.false_eq_true, if_false] at owned
  obtain ⟨_, owned⟩ | ⟨runs, owned⟩ := ite_ok.1 owned
  · cases owned
  obtain ⟨alone, running, owned⟩ := bind_ok.1 owned
  obtain ⟨_, owned⟩ | ⟨sole, _⟩ := ite_ok.1 owned
  · cases owned
  simp only [Bool.not_eq_true', Bool.not_eq_false] at runs sole
  simp only [runningMatches, Bool.and_eq_true, beq_iff_eq] at runs
  subst sole
  unfold runningOwnedIn at running
  obtain ⟨owner, _⟩ | ⟨_, running⟩ := ite_ok.1 running
  · unfold soleNonpendingOwnerIn at owner
    split at owner
    · next active one =>
      obtain ⟨⟨there, _, _⟩, others⟩ := sole_nonpending one
      simp only [beq_iff_eq] at owner
      have same : active = row := Option.some.inj
        ((Table.find_of_mem there).symm.trans (owner ▸ found))
      subst same
      exact ⟨active, there, owner, state.symm.trans runs.1.1.1.2, turn.symm.trans runs.1.2, others⟩
    · cases owner
  · cases running

theorem sealIn_ok (result : sealIn hooks id db = .ok next) :
    ∃ q sealed, read hooks db id = .ok q ∧ identity hooks db q = .ok sealed ∧
      QuestionsOnly db next ∧
      (q.row.state = .dispatching →
        next.questions.find id = some { q.row with preparation := some sealed }) ∧
      ∀ other, other ≠ id → next.questions.find other = db.questions.find other := by
  unfold sealIn at result
  obtain ⟨q, asked, result⟩ := bind_ok.1 result
  obtain ⟨sealed, checked, result⟩ := bind_ok.1 result
  split at result
  · cases result
  · obtain ⟨⟨changed, written⟩, update, result⟩ := bind_ok.1 result
    cases result
    refine ⟨q, sealed, asked, checked, .of_update update, fun dispatching => ?_,
      update_others (fun r chosen => ?_) update⟩
    · have named := read_named asked
      subst named
      exact update_row update (read_ok asked) (by simp [dispatching])
        (validateMapping_ok (identity_ok checked).1)
    · simp only [Bool.and_eq_true, beq_iff_eq] at chosen
      exact chosen.1

/-! ## The claim of an answer -/

/-- What a successful claim found and wrote -/
structure Began (db next : AsyncDb ρ) (c : Claim) (q : Question) (later : QuestionRow) : Prop where
  asked : db.questions.find c.id = some q.row
  agrees : c.matches q = true
  opened : q.row.state = .opened
  after : next.questions.find c.id = some later
  pin : SamePin q.row later
  dispatching : later.state = .dispatching
  chosen : later.chosen = c.answer.index?
  text : later.answerText = c.answer.text?
  mode : later.dispatchMode = some c.mode
  others : ∀ other, other ≠ c.id → next.questions.find other = db.questions.find other
  inbox : next.inbox = db.inbox
  records : db.queue.archive.Extends next.queue.archive
  start : c.mode = .start → later.replyJobId = some (replyJob c.id) ∧ Reserved next later ∧
    ∀ other, other ≠ replyJob c.id → next.queue.jobs.find other = db.queue.jobs.find other
  steer : c.mode = .steer → later.replyJobId = none ∧ next.queue.jobs = db.queue.jobs ∧
    ∃ row, RunsOrigin next later row

/-- The job that a claim takes, before its question is written -/
inductive ClaimedJob (db : AsyncDb ρ) (c : Claim) (id : String) : Option String → AsyncDb ρ → Prop where
  | start {next : AsyncDb ρ} (mode : c.mode = .start) (reserved : ReservedIn db next id) :
      ClaimedJob db c id (some (replyJob id)) next
  | steer (mode : c.mode = .steer) : ClaimedJob db c id none db

theorem claimJobIn_ok {jobs : List StoredQueueJob} {reply : Option String}
    (result : claimJobIn queue c q now jobs db = .ok (reply, next)) :
    ClaimedJob db c q.row.id reply next := by
  unfold claimJobIn at result
  cases mode : c.mode with
  | start =>
    rw [mode] at result
    obtain ⟨⟨job, reserved⟩, taken, same⟩ := map_ok.1 result
    cases same
    obtain ⟨rfl, spec⟩ := reserveIn_ok taken
    exact .start mode spec
  | steer =>
    rw [mode] at result
    obtain ⟨_, result⟩ | ⟨_, result⟩ := ite_ok.1 result
    · cases result
      exact .steer mode
    · cases result

theorem requireCapabilityIn_ok {answer : Answer}
    (result : answer.requireCapabilityIn db = .ok next) :
    ∃ format, next = { db with textFormat := format } := by
  unfold Answer.requireCapabilityIn at result
  obtain ⟨_, result⟩ | ⟨_, result⟩ := ite_ok.1 result
  · cases result
    exact ⟨db.textFormat, rfl⟩
  · obtain ⟨_, result⟩ := guard_ok.1 result
    cases result
    exact ⟨_, rfl⟩

theorem ClaimedJob.frame {reply : Option String} (claimed : ClaimedJob db c id reply next) :
    next.questions = db.questions ∧ next.inbox = db.inbox ∧
      db.queue.archive.Extends next.queue.archive := by
  cases claimed with
  | start _ reserved =>
    obtain ⟨⟨store, rfl⟩, records, _, _⟩ := reserved
    exact ⟨rfl, rfl, records⟩
  | steer => exact ⟨rfl, rfl, .refl _⟩

/-- The writes of a claim: its question is dispatched under the seal. -/
theorem dispatch_ok {row : QuestionRow} {reply : Option String} {written : AsyncDb ρ}
    (asked : db.questions.find c.id = some row) (opened : row.state = .opened)
    (update : updateQuestions hooks db (fun r => r.id == c.id && r.state == .opened)
      (fun r => r.dispatch c reply now) (fun _ => rfl) = .ok (changed, written))
    (sealed : sealIn hooks c.id written = .ok next) :
    ∃ q value, q.row = row.dispatch c reply now ∧ identity hooks written q = .ok value ∧
      QuestionsOnly db next ∧
      next.questions.find c.id = some { row.dispatch c reply now with preparation := some value } ∧
      ∀ other, other ≠ c.id → next.questions.find other = db.questions.find other := by
  obtain ⟨q, value, read, checked, only, preparation, rest⟩ := sealIn_ok sealed
  have others := update_others (fun r chosen => by
    simp only [Bool.and_eq_true, beq_iff_eq] at chosen
    exact chosen.1) update
  have wrote : QuestionsOnly db written := .of_update update
  have named : row.id = c.id := Table.find_key asked
  -- the mapping that the seal checks is that of a question no archived room has recorded
  have kept : db.queue.archive.recordRetired .asyncQuestions row.id = false := by
    have valid := validateMapping_ok (identity_ok checked).1
    rw [wrote.archive] at valid
    rw [named, ← read_named read]
    exact valid
  have there := update_row update (named ▸ asked) (by simp [named, opened]) kept
  rw [named] at there
  have current : q.row = row.dispatch c reply now := Option.some.inj ((read_ok read).symm.trans there)
  refine ⟨q, value, current, checked, ?_, ?_, fun other different => ?_⟩
  · obtain ⟨rest, first⟩ := wrote.queue
    obtain ⟨rest', second⟩ := only.queue
    refine ⟨⟨rest', ?_⟩, only.inbox.trans wrote.inbox, only.format.trans wrote.format,
      fun id gone => only.absent id (wrote.absent id gone)⟩
    rw [second, first]
  · rw [← current]
    exact preparation (by rw [current]; rfl)
  · rw [rest other different, others other different]

theorem begin_spec {claimed : Question}
    (call : beginDispatch hooks queue c db = (.ok claimed, next)) :
    ∃ q later, Began db next c q later := by
  have result := commit_ok call
  unfold beginDispatchIn at result
  obtain ⟨q, asked, result⟩ := bind_ok.1 result
  split at result
  · cases result
  next now _ =>
  obtain ⟨_, result⟩ | ⟨agrees, result⟩ := ite_ok.1 result
  · cases result
  obtain ⟨_, result⟩ | ⟨opened, result⟩ := ite_ok.1 result
  · cases result
  obtain ⟨_, _, result⟩ := bind_ok.1 result
  obtain ⟨jobs, _, result⟩ := bind_ok.1 result
  obtain ⟨⟨reply, reserved⟩, held, result⟩ := bind_ok.1 result
  obtain ⟨formatted, format, result⟩ := bind_ok.1 result
  obtain ⟨⟨changed, written⟩, update, result⟩ := bind_ok.1 result
  obtain ⟨sealed, seals, result⟩ := bind_ok.1 result
  obtain ⟨last, _, result⟩ := bind_ok.1 result
  cases result
  simp only [Bool.not_eq_true, Bool.not_eq_false', bne_iff_ne, ne_eq, not_not] at agrees opened
  have job := claimJobIn_ok held
  obtain ⟨questions, inbox, records⟩ := job.frame
  obtain ⟨version, rfl⟩ := requireCapabilityIn_ok format
  have there : db.questions.find c.id = some q.row := read_ok asked
  have named : q.row.id = c.id := Table.find_key there
  obtain ⟨claimed, value, current, checked, only, after, others⟩ :=
    dispatch_ok (questions ▸ there) opened update seals
  have wrote : QuestionsOnly { reserved with textFormat := version } written := .of_update update
  have sameJobs : next.queue.jobs = written.queue.jobs := only.jobs.trans wrote.jobs.symm
  refine ⟨q, _, there, agrees, opened, after, by constructor <;> rfl, rfl, rfl, rfl, rfl,
    fun other different => (others other different).trans (by rw [← questions]),
    only.inbox.trans inbox, ?_, fun started => ?_, fun steered => ?_⟩
  · rw [only.archive]
    exact records
  · cases job with
    | steer mode =>
      rw [mode] at started
      cases started
    | start _ reservation =>
      obtain ⟨row, found, quarantined, target, sole⟩ :=
        identity_start checked (by rw [current]; rfl)
      rw [current] at target sole
      refine ⟨by rw [← named]; rfl, ⟨⟨row, ?_, quarantined, target, ?_⟩, ?_⟩, ?_⟩
      · rw [sameJobs]
        exact found
      · rw [only.archive]
        rw [wrote.jobs] at found
        exact reservation.turn row found
      · intro other present same
        rw [sole other (sameJobs ▸ present) same]
        exact Table.find_key found
      · intro other different
        rw [only.jobs]
        exact reservation.others other (named ▸ different)
  · cases job with
    | start mode =>
      rw [mode] at steered
      cases steered
    | steer =>
      obtain ⟨row, runs⟩ := identity_steer checked (by rw [current]; rfl)
      rw [current] at runs
      refine ⟨rfl, only.jobs, row, ?_, runs.job, runs.running, runs.turn, ?_⟩
      · rw [sameJobs]
        exact runs.there
      · rw [sameJobs]
        exact runs.sole

/-! ## The end of a dispatch -/

theorem verifyIdentityIn_ok
    (result : verifyIdentityIn hooks db q = .ok ()) : validateMapping hooks db q = .ok () := by
  unfold verifyIdentityIn at result
  split at result
  · cases result
  · obtain ⟨value, checked, _⟩ := bind_ok.1 result
    exact (identity_ok checked).1

/-- What the end of a dispatch found and wrote, except for its job -/
structure Ended (db next : AsyncDb ρ) (id : String) (row later : QuestionRow) : Prop where
  asked : db.questions.find id = some row
  dispatching : row.state = .dispatching
  after : next.questions.find id = some later
  pin : SamePin row later
  answer : SameAnswer row later
  others : ∀ other, other ≠ id → next.questions.find other = db.questions.find other
  inbox : next.inbox = db.inbox
  archive : next.queue.archive = db.queue.archive

/-- The last write of a dispatch is made to the question whose seal was verified. -/
theorem ended_of_update {assign : QuestionRow → QuestionRow} {keeps : ∀ r, (assign r).id = r.id}
    {middle : AsyncDb ρ} (pin : ∀ row, SamePin row (assign row))
    (answer : ∀ row, SameAnswer row (assign row)) (asked : AsyncQuestion.read hooks db id = .ok q)
    (dispatching : q.row.state = .dispatching) (verified : verifyIdentityIn hooks db q = .ok ())
    (frame : ∃ jobs, middle = { db with queue := { db.queue with jobs := jobs } })
    (update : updateQuestions hooks middle (·.id == id) assign keeps = .ok (changed, next)) :
    Ended db next id q.row (assign q.row) := by
  obtain ⟨jobs, rfl⟩ := frame
  have named := read_named asked
  have there := read_ok asked
  have kept := validateMapping_ok (verifyIdentityIn_ok verified)
  have only := QuestionsOnly.of_update update
  have after := update_row update (named.symm ▸ there) (beq_iff_eq.2 named) kept
  have others := update_others (fun r chosen => beq_iff_eq.1 chosen) update
  rw [named] at after
  exact ⟨there, dispatching, after, pin q.row, answer q.row, others, only.inbox, only.archive⟩

/-- The reserved job is attached to the turn that was accepted. -/
structure Accepted (db next : AsyncDb ρ) (id turn : String) (reply : String) (row : QueueRow)
    (now : Rat) : Prop where
  there : db.queue.jobs.find reply = some row
  reserved : row.turnId = some (reservedTurn id)
  after : next.queue.jobs.find reply = some (acceptRow row turn now)
  others : ∀ other, other ≠ reply → next.queue.jobs.find other = db.queue.jobs.find other

theorem acceptIn_ok {turn : String} (result : acceptIn queue q turn now db = .ok next) :
    (∃ jobs, next = { db with queue := { db.queue with jobs := jobs } }) ∧
      (∀ reply, q.row.replyJobId = some reply → ∃ row, Accepted db next q.row.id turn reply row now) ∧
      (q.row.replyJobId = none → turn = q.row.turnId ∧ next.queue.jobs = db.queue.jobs) := by
  unfold acceptIn at result
  split at result
  · next reply started =>
    obtain ⟨_, result⟩ | ⟨_, result⟩ := ite_ok.1 result
    · cases result
    obtain ⟨⟨changed, store⟩, update, result⟩ := bind_ok.1 result
    obtain ⟨_, result⟩ | ⟨one, result⟩ := ite_ok.1 result
    · cases result
    cases result
    simp only [bne_iff_ne, ne_eq, not_not] at one
    have named : ∀ r : QueueRow, (r.jobId == reply && r.turnId == some (reservedTurn q.row.id) &&
        r.appServerGeneration == q.row.generation) = true → r.jobId = reply := by
      intro r chosen
      simp only [Bool.and_eq_true, beq_iff_eq] at chosen
      exact chosen.1.1
    obtain ⟨row, there, selected, after⟩ := updateJobs_one named one update
    have others := updateJobs_others named update
    obtain ⟨_, rfl, _⟩ := updateJobs_ok update
    refine ⟨⟨_, rfl⟩, fun other chosen => ?_, fun none_ => ?_⟩
    · cases started.symm.trans chosen
      simp only [Bool.and_eq_true, beq_iff_eq] at selected
      exact ⟨row, there, selected.1.2, after, others⟩
    · rw [started] at none_
      cases none_
  · next steered =>
    obtain ⟨_, result⟩ | ⟨same, result⟩ := ite_ok.1 result
    · cases result
    cases result
    refine ⟨⟨db.queue.jobs, rfl⟩, fun other chosen => ?_, fun _ => ⟨by simpa using same, rfl⟩⟩
    rw [steered] at chosen
    cases chosen

theorem confirm_spec {turn : String}
    (call : confirmDispatch hooks queue id turn now db = (.ok (), next)) :
    ∃ row, Ended db next id row (row.submit turn now) ∧
      (∀ reply, row.replyJobId = some reply → ∃ job, Accepted db next id turn reply job now) ∧
      (row.replyJobId = none → turn = row.turnId ∧ next.queue.jobs = db.queue.jobs) := by
  have result := commit_ok call
  unfold confirmDispatchIn at result
  obtain ⟨q, asked, result⟩ := bind_ok.1 result
  obtain ⟨_, result⟩ | ⟨awaiting, result⟩ := ite_ok.1 result
  · cases result
  obtain ⟨_, verified, result⟩ := bind_ok.1 result
  obtain ⟨attached, accepted, result⟩ := bind_ok.1 result
  obtain ⟨⟨changed, written⟩, update, result⟩ := bind_ok.1 result
  cases result
  simp only [Bool.or_eq_true, bne_iff_ne, ne_eq, not_or, not_not] at awaiting
  have ended : ∃ jobs, attached = { db with queue := { db.queue with jobs := jobs } } :=
    (acceptIn_ok accepted).1
  obtain ⟨_, started, steered⟩ := acceptIn_ok accepted
  rw [read_named asked] at started
  have only := QuestionsOnly.of_update update
  refine ⟨q.row, ended_of_update (fun _ => by constructor <;> rfl) (fun _ => by constructor <;> rfl)
    asked awaiting.1 verified ended update, fun reply chosen => ?_, fun none_ => ?_⟩
  · obtain ⟨job, there, reserved, attach, others⟩ := started reply chosen
    refine ⟨job, there, reserved, ?_, fun other different => ?_⟩
    · rw [only.jobs]
      exact attach
    · rw [only.jobs]
      exact others other different
  · refine ⟨(steered none_).1, ?_⟩
    rw [only.jobs]
    exact (steered none_).2

/-- The reserved job is gone, unless another claim or an archived room has its row. -/
structure Released (db next : AsyncDb ρ) (id reply : String) : Prop where
  gone : next.queue.jobs.find reply = none ∨ db.queue.archive.recordRetired .turnQueue reply = true ∨
    ∀ row, db.queue.jobs.find reply = some row → row.turnId ≠ some (reservedTurn id)
  left : ∀ row, next.queue.jobs.find reply = some row → db.queue.jobs.find reply = some row
  others : ∀ other, other ≠ reply → next.queue.jobs.find other = db.queue.jobs.find other

theorem releaseIn_ok (result : releaseIn queue q db = .ok next) :
    (∃ jobs, next = { db with queue := { db.queue with jobs := jobs } }) ∧
      (∀ reply, q.row.replyJobId = some reply → Released db next q.row.id reply) ∧
      (q.row.replyJobId = none → next.queue.jobs = db.queue.jobs) := by
  unfold releaseIn at result
  split at result
  · next steered =>
    cases result
    refine ⟨⟨db.queue.jobs, rfl⟩, fun reply chosen => ?_, fun _ => rfl⟩
    rw [steered] at chosen
    cases chosen
  · next reply started =>
    dsimp only at result
    split at result
    · cases result
    cases result
    refine ⟨⟨_, rfl⟩, fun other chosen => ?_, fun none_ => ?_⟩
    · cases started.symm.trans chosen
      refine ⟨?_, fun row found => ?_, fun other different => ?_⟩
      · rw [Table.find_delete]
        cases found : db.queue.jobs.find reply with
        | none => exact Or.inl rfl
        | some row =>
          have named : row.jobId = reply := Table.find_key found
          cases kept : db.queue.archive.recordRetired .turnQueue reply with
          | true => exact Or.inr (Or.inl rfl)
          | false =>
            by_cases reserved : row.turnId = some (reservedTurn q.row.id)
            · exact Or.inl (by simp [Option.filter, named, reserved, kept])
            · refine Or.inr (Or.inr fun other same => ?_)
              cases same
              exact reserved
      · rw [Table.find_delete, Option.filter_eq_some_iff] at found
        exact found.1
      · rw [Table.find_delete]
        cases found : db.queue.jobs.find other with
        | none => rfl
        | some row =>
          have named : row.jobId = other := Table.find_key found
          simp [Option.filter, named, different]
    · rw [started] at none_
      cases none_

theorem reject_spec {error : String}
    (call : rejectDefinite hooks queue id error now db = (.ok (), next)) :
    ∃ row, Ended db next id row (row.reject error now) ∧
      (∀ reply, row.replyJobId = some reply → Released db next id reply) ∧
      (row.replyJobId = none → next.queue.jobs = db.queue.jobs) := by
  have result := commit_ok call
  unfold rejectIn at result
  obtain ⟨q, asked, result⟩ := bind_ok.1 result
  obtain ⟨_, result⟩ | ⟨awaiting, result⟩ := ite_ok.1 result
  · cases result
  obtain ⟨_, verified, result⟩ := bind_ok.1 result
  obtain ⟨cleared, released, result⟩ := bind_ok.1 result
  obtain ⟨⟨changed, written⟩, update, result⟩ := bind_ok.1 result
  cases result
  simp only [bne_iff_ne, ne_eq, not_not] at awaiting
  have ended : ∃ jobs, cleared = { db with queue := { db.queue with jobs := jobs } } :=
    (releaseIn_ok released).1
  obtain ⟨_, started, steered⟩ := releaseIn_ok released
  rw [read_named asked] at started
  have only := QuestionsOnly.of_update update
  refine ⟨q.row, ended_of_update (fun _ => by constructor <;> rfl) (fun _ => by constructor <;> rfl)
    asked awaiting verified ended update, fun reply chosen => ?_, fun none_ => ?_⟩
  · obtain ⟨gone, left, others⟩ := started reply chosen
    refine ⟨?_, fun row found => ?_, fun other different => ?_⟩
    · rw [only.jobs]
      exact gone
    · rw [only.jobs] at found
      exact left row found
    · rw [only.jobs]
      exact others other different
  · rw [only.jobs]
    exact steered none_

end CodexRemote.Verified.AsyncQuestion

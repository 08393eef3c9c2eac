import CodexRemote.Verified.StopAcceptance.Writes

/-! # What a stop reads

A store is in order when a stop finds its requests as it wants them.  There a stop of one's own work
reads all requests of its thread.
-/

namespace CodexRemote.Verified.StopAcceptance

open Foundations Store Store.Stop
open Verified.Stop (HoldsKept)

section Stores

variable {ρ σ : Type}

/-! ## Requests and their holds -/

/-- A queued or a preparing request of the thread -/
def Request (db : QueueDb ρ) (id target : String) : Prop :=
  (∃ row ∈ db.jobs.rows, row.jobId = id ∧ row.targetThreadId = target) ∨
    ∃ intake ∈ db.intakes.rows, intake.jobId = id ∧ intake.targetThreadId = target

/-- Every hold of a request of the thread names this thread. -/
def HoldsAgree (db : QueueDb ρ) (target : String) : Prop :=
  ∀ id, Request db id target → ∀ hold, db.holds.find id = some hold → hold.targetThreadId = target

/-! ## Stores in order -/

/-- A request for a turn that no job stands for, as the store writes it -/
structure SoundAsk (row : IngressRow) : Prop where
  event : ∃ event, row.eventId = some event ∧ 0 < event
  ownerKind : row.ownerKind = none
  holdable : Holdable row

/-- The request is past the state in which a stop accepts it as its own. -/
structure Spent (row : IngressRow) : Prop where
  staged : row.state ≠ .staged
  acknowledged : row.state ≠ .acknowledged
  processing : ¬(row.state = .executing ∧ row.phase = "processing")

def messageId (event : Int) : String := "message:" ++ toString event

structure InOrder (db : StopDb σ) : Prop where
  jobs : ∀ row ∈ db.jobs.rows, ∃ job, row.decode = .ok job
  asks : ∀ row ∈ db.ingress.rows, row.asks = true → row.unowned = true → SoundAsk row
  revisions : StopRevision.Consistent db.rest.revisions
  /-- a message whose stop was accepted -/
  accepted : ∀ receipt ∈ db.rest.revisions.receipts.rows, ∀ event,
    receipt.operationId = "stop:" ++ messageId event →
      ∃ row, db.ingress.find (messageId event) = some row ∧ Spent row
  /-- no room was archived -/
  dispositions : db.archive.dispositions = []

theorem InOrder.live {db : StopDb σ} (order : InOrder db) (table : WorkTable) (key : String) :
    db.archive.frozen table key = false := by
  simp [Archive.frozen, order.dispositions]

/-! ## Stops that may be accepted -/

/-- The id of a stop without a message is a fresh one. -/
def FreshId (call : StopCall) (db : StopDb σ) : Prop :=
  call.expected = none → (∀ event, call.id ≠ messageId event) ∧
    db.rest.revisions.receipts.find call.operation = none

/-- A valid stop of one's own work -/
structure OwnStop (call : StopCall) (db : StopDb σ) : Prop where
  valid : call.valid = true
  file : call.file = .present
  validated : validate db call.scope call.binding call.expected = .ok ()
  selectedBefore : call.selectedBefore = .ok ()
  selectedAfter : call.selectedAfter = .ok ()
  few : db.jobs.count (·.targetThreadId == call.scope.target) +
    db.intakes.count (·.targetThreadId == call.scope.target) +
    (unownedAsks db call.scope.target).length ≤ 128
  jobs : ∀ row ∈ db.jobs.rows, row.targetThreadId = call.scope.target →
    row.channelId = call.scope.channel ∧ row.ownerUserId = some call.scope.owner
  intakes : ∀ intake ∈ db.intakes.rows, intake.targetThreadId = call.scope.target →
    intake.channelId = call.scope.channel ∧ intake.ownerUserId = some call.scope.owner
  asks : ∀ row ∈ unownedAsks db call.scope.target,
    row.channelId = call.scope.channel ∧ row.ownerUserId = call.scope.owner
  fresh : FreshId call db
  /-- the clock is not at its last revision -/
  room : ∀ now, db.rest.revisions.clock = some now → now < (i64Max : Int)

/-- The receipt names all requests of the thread, and no other. -/
structure Names (db : StopDb σ) (target : String) (receipt : StopReceipt) : Prop where
  jobs : ∀ id, id ∈ receipt.jobs ↔ Request db id target
  ingresses : ∀ key, key ∈ receipt.ingresses ↔ ∃ row ∈ unownedAsks db target, row.ingressId = key

def Accepted (hooks : StopHooks σ) (call : StopCall) (db : StopDb σ) : Prop :=
  ∃ receipt next, acceptUnresolved hooks call db = (.ok (some receipt), next) ∧
    Names db call.scope.target receipt

end Stores

section

variable {σ : Type} {db : StopDb σ} {call : StopCall}

/-! ## Reads -/

theorem firstIds_perm {ids : List String} (short : ids.length ≤ 128) : (firstIds ids).Perm ids := by
  have all := List.mergeSort_perm ids fun a b => a ≤ b
  rw [firstIds, List.take_of_length_le (by rw [all.length_eq]; omega)]
  exact all

/-- What a stop reads of its thread -/
structure Reads (call : StopCall) (db : StopDb σ) (jobs : List StoredQueueJob)
    (preparing : List PromptIntake) (originals : List IngressRow) : Prop where
  few : (targetJobs db call.scope.target).length ≤ 128
  intakes : Intake.snapshot db call.scope (targetJobs db call.scope.target).length = .ok preparing
  asks : Unowned.snapshot db call.scope
    ((targetJobs db call.scope.target).length + preparing.length) = .ok originals
  selects : (targetJobs db call.scope.target).mapM (selectJob db) = .ok jobs
  own : ∀ job ∈ jobs, job.channelId = call.scope.channel ∧ job.ownerUserId = some call.scope.owner
  jobIds : jobs.map (·.jobId) = targetJobs db call.scope.target
  selected : ∀ job ∈ jobs, selectJob db job.jobId = .ok job
  intakeIds : preparing.map (·.jobId) = Intake.targetIds db call.scope.target
  intakeRows : ∀ intake ∈ preparing, db.intakes.find intake.jobId = some intake
  askIds : originals.map (·.ingressId) = Unowned.ids db call.scope.target
  askRows : ∀ row ∈ originals, row ∈ unownedAsks db call.scope.target

theorem mem_targetJobs (few : db.jobs.count (·.targetThreadId == call.scope.target) ≤ 128)
    {id : String} : id ∈ targetJobs db call.scope.target ↔
      ∃ row ∈ db.jobs.rows, row.jobId = id ∧ row.targetThreadId = call.scope.target := by
  rw [targetJobs, (firstIds_perm _).mem_iff]
  · simp only [Table.select, List.mem_map, List.mem_filter, beq_iff_eq]
    tauto
  · rw [List.length_map, Table.select, ← List.countP_eq_length_filter]
    exact few

theorem mem_targetIds (few : db.intakes.count (·.targetThreadId == call.scope.target) ≤ 128)
    {id : String} : id ∈ Intake.targetIds db call.scope.target ↔
      ∃ intake ∈ db.intakes.rows, intake.jobId = id ∧
        intake.targetThreadId = call.scope.target := by
  rw [Intake.targetIds, (firstIds_perm _).mem_iff]
  · simp only [Table.select, List.mem_map, List.mem_filter, beq_iff_eq]
    tauto
  · rw [List.length_map, Table.select, ← List.countP_eq_length_filter]
    exact few

theorem mem_ids (few : (unownedAsks db call.scope.target).length ≤ 128) {key : String} :
    key ∈ Unowned.ids db call.scope.target ↔
      ∃ row ∈ unownedAsks db call.scope.target, row.ingressId = key := by
  rw [Unowned.ids, (firstIds_perm (by rw [List.length_map]; exact few)).mem_iff, List.mem_map]

theorem firstIds_length {ids : List String} : (firstIds ids).length ≤ ids.length := by
  rw [firstIds, List.length_take, (List.mergeSort_perm _ _).length_eq]
  exact Nat.min_le_right _ _

/-- One read of a snapshot of intakes -/
theorem intake_read {db : StopDb σ} {scope : StopScope} {id : String} {intake : PromptIntake}
    (ran : (match db.intakes.find id with
      | none => .error stopRefused
      | some intake =>
        if intake.channelId ≠ scope.channel || intake.ownerUserId ≠ some scope.owner ||
            intake.targetThreadId ≠ scope.target then .error stopRefused
        else .ok intake : Except StoreError PromptIntake) = .ok intake) :
    db.intakes.find id = some intake ∧ intake.targetThreadId = scope.target := by
  split at ran
  · cases ran
  · next found there =>
    obtain ⟨fine, ran⟩ := guard_ok.1 ran
    cases ran
    simp only [Bool.or_eq_true, decide_eq_true_eq, not_or, ne_eq, Decidable.not_not] at fine
    exact ⟨there, fine.2⟩

/-- The intakes of a snapshot are those of their rows. -/
theorem intakeSnapshot_rows {scope : StopScope} {queued : Nat} {preparing : List PromptIntake}
    (result : Intake.snapshot db scope queued = .ok preparing) :
    preparing.map (·.jobId) = Intake.targetIds db scope.target ∧
      ∀ intake ∈ preparing, db.intakes.find intake.jobId = some intake ∧
        intake.targetThreadId = scope.target := by
  simp only [Intake.snapshot] at result
  obtain ⟨_, result⟩ | ⟨_, result⟩ := ite_ok.1 result
  · cases result
  constructor
  · rw [mapM_map (fun intake : PromptIntake => intake.jobId) (fun key : String => key)
      (fun _ _ _ ran => Table.find_key (intake_read ran).1) result, List.map_id']
  · intro intake member
    obtain ⟨key, _, ran⟩ := mapM_made result intake member
    obtain ⟨found, own⟩ := intake_read ran
    exact ⟨Table.find_key found ▸ found, own⟩

/-- The requests of a snapshot are those of the journal that no job stands for. -/
theorem unownedSnapshot_rows {scope : StopScope} {already : Nat} {originals : List IngressRow}
    (result : Unowned.snapshot db scope already = .ok originals) :
    originals.map (·.ingressId) = Unowned.ids db scope.target ∧
      ∀ row ∈ originals, row ∈ unownedAsks db scope.target := by
  simp only [Unowned.snapshot] at result
  obtain ⟨_, result⟩ | ⟨_, result⟩ := ite_ok.1 result
  · cases result
  constructor
  · rw [mapM_map (fun row : IngressRow => row.ingressId) (fun key : String => key)
      (fun _ _ _ ran => Table.find_key (Stop.unowned_read ran).1) result, List.map_id']
  · intro row member
    obtain ⟨key, listed, ran⟩ := mapM_made result row member
    have inside := (List.mergeSort_perm _ _).mem_iff.1 (List.mem_of_mem_take listed)
    obtain ⟨other, there, named⟩ := List.mem_map.1 inside
    have same := (Table.find_of_mem (List.mem_filter.1 there).1).symm.trans
      (named ▸ (Stop.unowned_read ran).1)
    exact Option.some.inj same ▸ there

theorem stop_reads (order : InOrder db) (stop : OwnStop call db) :
    ∃ jobs preparing originals, Reads call db jobs preparing originals := by
  have few := stop.few
  have jobsFew : (targetJobs db call.scope.target).length ≤
      db.jobs.count (·.targetThreadId == call.scope.target) := by
    refine firstIds_length.trans ?_
    rw [List.length_map, Table.select, ← List.countP_eq_length_filter]
    rfl
  have intakesFew : (Intake.targetIds db call.scope.target).length ≤
      db.intakes.count (·.targetThreadId == call.scope.target) := by
    refine firstIds_length.trans ?_
    rw [List.length_map, Table.select, ← List.countP_eq_length_filter]
    rfl
  have asksFew : (Unowned.ids db call.scope.target).length ≤
      (unownedAsks db call.scope.target).length :=
    firstIds_length.trans (by rw [List.length_map])
  -- every listed id has its row
  have jobRead : ∀ id ∈ targetJobs db call.scope.target, ∃ job, selectJob db id = .ok job := by
    intro id listed
    obtain ⟨row, there, rfl, _⟩ := (mem_targetJobs (by omega)).1 listed
    rw [selectJob, Table.find_of_mem there]
    exact order.jobs row there
  obtain ⟨jobs, jobsRead⟩ := mapM_total jobRead
  have intakesRead : ∃ preparing, Intake.snapshot db call.scope
      (targetJobs db call.scope.target).length = .ok preparing := by
    simp only [Intake.snapshot]
    rw [if_neg (by omega)]
    refine mapM_total fun id listed => ?_
    obtain ⟨intake, there, rfl, own⟩ := (mem_targetIds (by omega)).1 listed
    obtain ⟨channel, owner⟩ := stop.intakes intake there own
    refine ⟨intake, ?_⟩
    rw [Table.find_of_mem there]
    exact if_neg (by simp [own, channel, owner])
  obtain ⟨preparing, preparingRead⟩ := intakesRead
  obtain ⟨intakeIds, intakeRows⟩ := intakeSnapshot_rows preparingRead
  have preparingFew : preparing.length = (Intake.targetIds db call.scope.target).length := by
    rw [← intakeIds, List.length_map]
  have asksRead : ∃ originals, Unowned.snapshot db call.scope
      ((targetJobs db call.scope.target).length + preparing.length) = .ok originals := by
    simp only [Unowned.snapshot]
    rw [if_neg (by omega)]
    refine mapM_total fun key listed => ?_
    obtain ⟨row, there, rfl⟩ := (mem_ids (by omega)).1 listed
    obtain ⟨stored, asking⟩ := List.mem_filter.1 there
    obtain ⟨channel, owner⟩ := stop.asks row there
    simp only [Bool.and_eq_true] at asking
    obtain ⟨⟨event, named, positive⟩, kind, holdable⟩ :=
      order.asks row stored asking.2 asking.1.2
    refine ⟨row, ?_⟩
    rw [Table.find_of_mem stored]
    exact if_neg (by simp [channel, owner, named, positive, kind, holdable.unowned])
  obtain ⟨originals, originalsRead⟩ := asksRead
  obtain ⟨askIds, askRows⟩ := unownedSnapshot_rows originalsRead
  have jobRows : ∀ job ∈ jobs, selectJob db job.jobId = .ok job ∧
      job.channelId = call.scope.channel ∧ job.ownerUserId = some call.scope.owner := by
    intro job member
    obtain ⟨id, listed, selected⟩ := mapM_made jobsRead job member
    obtain ⟨row, there, decoded, named, same⟩ := Verified.Stop.selectJob_id selected
    obtain ⟨other, here, key, own⟩ := (mem_targetJobs (by omega)).1 listed
    cases Table.eq_of_key there here (named.trans key.symm)
    obtain ⟨channel, owner⟩ := stop.jobs row there own
    obtain ⟨_, _, rfl⟩ := map_ok.1 decoded
    exact ⟨same ▸ selected, channel, owner⟩
  refine ⟨jobs, preparing, originals, by omega, preparingRead, originalsRead, jobsRead,
    fun job member => (jobRows job member).2, ?_, fun job member => (jobRows job member).1, intakeIds,
    fun intake member => (intakeRows intake member).1, askIds, askRows⟩
  rw [mapM_map (fun job : StoredQueueJob => job.jobId) (fun id : String => id) (fun id _ job ran =>
    (Verified.Stop.selectJob_id ran).elim fun _ found => found.2.2.2) jobsRead, List.map_id']

end

end CodexRemote.Verified.StopAcceptance

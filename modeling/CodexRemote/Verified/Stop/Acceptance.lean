import CodexRemote.Store.Ingress.StopControl
import CodexRemote.Verified.Queue.Inserts
import CodexRemote.Verified.Queue.Moves

/-! # What a committed stop covers

A stop changes no request but its own record and the requests that no job stands for, and it
leaves a hold on everything its target had.
-/

namespace CodexRemote.Verified.Stop

open Foundations Store Store.Stop
open Verified.Queue (updateIngress_ok)

variable {ρ σ : Type}

/-! ## Holds only accumulate -/

def HoldsKept (db next : QueueDb ρ) : Prop :=
  ∀ id hold, db.holds.find id = some hold → next.holds.find id = some hold

theorem HoldsKept.refl (db : QueueDb ρ) : HoldsKept db db := fun _ _ found => found

theorem HoldsKept.trans {a b c : QueueDb ρ} (left : HoldsKept a b) (right : HoldsKept b c) :
    HoldsKept a c := fun id hold found => right id hold (left id hold found)

theorem HoldsKept.of_same {db next : QueueDb ρ} (same : next.holds = db.holds) :
    HoldsKept db next := fun _ _ found => same ▸ found

theorem HoldsKept.hold (db : QueueDb ρ) (jobId target reason evidence : String) :
    HoldsKept db (Store.hold db jobId target reason evidence) := by
  intro id kept found
  show (db.holds.insertOrIgnore _).find id = _
  rw [Table.find_insertOrIgnore, found]
  simp

/-- A hold of the job for the target is on record. -/
def HeldFor (db : QueueDb ρ) (target jobId : String) : Prop :=
  ∃ hold, db.holds.find jobId = some hold ∧ hold.targetThreadId = target

theorem HeldFor.kept {db next : QueueDb ρ} {target jobId : String} (kept : HoldsKept db next)
    (held : HeldFor db target jobId) : HeldFor next target jobId := by
  obtain ⟨hold, found, own⟩ := held
  exact ⟨hold, kept jobId hold found, own⟩

variable {target operation resident : String} {hooks : StopHooks σ} {db next : StopDb σ}
  {receipt : StopReceipt} {scope : StopScope} {call : StopCall} {allowUncertain : Bool}
  {control : StopControl} {generation : Int}

theorem HeldFor.fresh {db : QueueDb ρ} {jobId : String} (free : db.holds.find jobId = none)
    (reason evidence : String) : HeldFor (Store.hold db jobId target reason evidence) target jobId := by
  refine ⟨⟨jobId, target, reason, evidence⟩, ?_, rfl⟩
  show (db.holds.insertOrIgnore _).find jobId = _
  rw [Table.find_insertOrIgnore, free, if_pos rfl]
  rfl

/-! ## Writes of a stop -/

/-- Only holds, the journal, the revisions and the new control differ. -/
structure StopWrites (db next : StopDb σ) : Prop where
  jobs : next.jobs = db.jobs
  intakes : next.intakes = db.intakes
  completions : next.rest.completions = db.rest.completions
  holds : HoldsKept db next

theorem StopWrites.refl (db : StopDb σ) : StopWrites db db := ⟨rfl, rfl, rfl, .refl db⟩

theorem StopWrites.trans {a b c : StopDb σ} (left : StopWrites a b) (right : StopWrites b c) :
    StopWrites a c :=
  ⟨right.jobs.trans left.jobs, right.intakes.trans left.intakes,
    right.completions.trans left.completions, left.holds.trans right.holds⟩

/-- A loop of holds leaves the tables beside them, and holds each of its jobs for the target. -/
structure LoopHeld (target : String) (requests : List (String × Json)) (db next : StopDb σ) :
    Prop where
  only : ∃ holds, next = { db with holds := holds }
  kept : HoldsKept db next
  held : ∀ request ∈ requests, HeldFor next target request.1

theorem holdOne_ok {refused : StoreError}
    {state next : List HoldSnapshot × StopDb σ} {request : String × Json}
    (result : Store.Stop.holdOne hooks refused target state request = .ok next) :
    (∃ holds, next.2 = { state.2 with holds := holds }) ∧ HoldsKept state.2 next.2 ∧
      HeldFor next.2 target request.1 := by
  obtain ⟨holds, db⟩ := state
  simp only [Store.Stop.holdOne] at result
  obtain ⟨own, result⟩ := guard_ok.1 result
  cases result
  refine ⟨⟨_, rfl⟩, .hold _ _ _ _ _, ?_⟩
  cases found : db.holds.find request.1 with
  | none => exact .fresh found _ _
  | some hold =>
    simp only [holdSnapshot, found, Option.map_some, Option.getD_some, ne_eq,
      Decidable.not_not] at own
    exact ⟨hold, HoldsKept.hold _ _ _ _ _ _ _ found, own⟩

theorem holdEach_ok {refused : StoreError}
    {requests : List (String × Json)} {holds : List HoldSnapshot}
    (result : holdEach hooks refused target db requests = .ok (holds, next)) :
    LoopHeld target requests db next := by
  have loop := foldlM_each
    (P := fun state : List HoldSnapshot × StopDb σ =>
      (∃ holds, state.2 = { db with holds := holds }) ∧ HoldsKept db state.2)
    (Q := fun request state => HeldFor state.2 target request.1) (by
      intro request _ state after before step
      obtain ⟨⟨holds, same⟩, kept, held⟩ := holdOne_ok step
      obtain ⟨⟨earlier, start⟩, grown⟩ := before
      refine ⟨⟨⟨holds, by rw [same, start]⟩, grown.trans kept⟩, held, ?_⟩
      exact fun other old => old.kept kept)
    ⟨⟨db.holds, rfl⟩, .refl db⟩ result
  exact ⟨loop.1.1, loop.1.2, loop.2.1⟩

theorem LoopHeld.writes {requests : List (String × Json)}
    (loop : LoopHeld target requests db next) : StopWrites db next := by
  obtain ⟨holds, rfl⟩ := loop.only
  exact ⟨rfl, rfl, rfl, loop.kept⟩

theorem updateIngress_writes {hooks : QueueHooks (StopTables σ)}
    {condition : IngressRow → Bool} {assign : IngressRow → IngressRow}
    {keeps : ∀ r, (assign r).ingressId = r.ingressId} {changed : Nat}
    (result : updateIngress hooks db condition assign keeps = .ok (changed, next)) :
    StopWrites db next ∧ next.rest = db.rest := by
  obtain ⟨_, _, rfl⟩ := updateIngress_ok result
  exact ⟨⟨rfl, rfl, rfl, .of_same rfl⟩, rfl⟩

theorem claimRecord_ok {expected claimed : Option IngressRow} {now : Rat}
    (result : claimRecord hooks expected receipt now db = .ok (claimed, next)) :
    StopWrites db next ∧ next.rest = db.rest := by
  cases expected with
  | none =>
    cases result
    exact ⟨.refl db, rfl⟩
  | some expected =>
    simp only [claimRecord] at result
    obtain ⟨⟨changed, after⟩, update, result⟩ := bind_ok.1 result
    obtain ⟨_, result⟩ := guard_ok.1 result
    cases result
    exact updateIngress_writes update

theorem advance_ok {binding : Json} {record : StopRevision.RevisionReceipt}
    (result : advance scope binding receipt operation db = .ok (record, next)) :
    StopWrites db next ∧ next.rest.controls = db.rest.controls ∧
      next.rest.archivedControls = db.rest.archivedControls ∧ next.ingress = db.ingress := by
  simp only [advance] at result
  obtain ⟨⟨record', revisions⟩, _, result⟩ := bind_ok.1 result
  cases result
  exact ⟨⟨rfl, rfl, rfl, .of_same rfl⟩, rfl, rfl, rfl⟩

/-! ## Unowned requests -/

/-- The request is held as it was, before any job stood for it. -/
structure HeldOriginal (row : IngressRow) : Prop where
  state : row.state = .held
  stopHeld : row.stopHeld = true
  unowned : row.ownerId = none

theorem stopped_held {row : IngressRow}
    (object : (row.outcome.getD (.object [])).isObject) (unowned : row.ownerId = none) :
    HeldOriginal (Unowned.stopped operation row) := by
  refine ⟨rfl, ?_, unowned⟩
  show ((some _ : Option Json).bind (·.get "stop_hold")).isSome = true
  rw [Option.bind_some, Json.get_set object]
  rfl

theorem previous_held {row : IngressRow} {previous : Json}
    (found : (row.outcome.getD (.object [])).get "stop_hold" = some previous)
    (same : Unowned.previousMatches row previous = true) (unowned : row.ownerId = none) :
    HeldOriginal row := by
  simp only [Unowned.previousMatches, Bool.and_eq_true, decide_eq_true_eq] at same
  refine ⟨same.1.1.1.1.1.1, ?_, unowned⟩
  cases outcome : row.outcome with
  | none => simp [outcome, Json.get] at found
  | some value =>
    rw [outcome, Option.getD_some] at found
    rw [IngressRow.stopHeld, outcome, Option.bind_some, found]
    rfl

/-- One request of the loop: it is held under its own id and event. -/
theorem unownedOne_ok {state next : List IngressRow × StopDb σ} {original : IngressRow}
    (unowned : original.ownerId = none)
    (result : Unowned.holdOne hooks operation state original = .ok next) :
    StopWrites state.2 next.2 ∧ next.2.rest = state.2.rest ∧
      ∃ held, next.1 = state.1 ++ [held] ∧ HeldOriginal held ∧
        held.ingressId = original.ingressId ∧ held.eventId = original.eventId := by
  obtain ⟨held, db⟩ := state
  simp only [Unowned.holdOne] at result
  obtain ⟨object, result⟩ := guard_ok.1 result
  simp only [Bool.not_eq_true, Bool.not_eq_false'] at object
  split at result
  · next previous found =>
    obtain ⟨same, result⟩ := guard_ok.1 result
    cases result
    simp only [Bool.not_eq_true, Bool.not_eq_false'] at same
    exact ⟨.refl db, rfl, original, rfl, previous_held found same unowned, rfl, rfl⟩
  · obtain ⟨⟨changed, after⟩, update, result⟩ := bind_ok.1 result
    obtain ⟨_, result⟩ := guard_ok.1 result
    cases result
    obtain ⟨writes, rest⟩ := updateIngress_writes update
    exact ⟨writes, rest, _, rfl, stopped_held object unowned, rfl, rfl⟩

theorem unownedHold_ok
    {originals held : List IngressRow} (unowned : ∀ row ∈ originals, row.ownerId = none)
    (result : Unowned.hold hooks operation db originals = .ok (held, next)) :
    StopWrites db next ∧ next.rest = db.rest ∧ (∀ row ∈ held, HeldOriginal row) ∧
      ∀ original ∈ originals, ∃ row ∈ held,
        row.ingressId = original.ingressId ∧ row.eventId = original.eventId := by
  have loop := foldlM_each
    (P := fun state : List IngressRow × StopDb σ =>
      StopWrites db state.2 ∧ state.2.rest = db.rest ∧ ∀ row ∈ state.1, HeldOriginal row)
    (Q := fun original state => ∃ row ∈ state.1,
      row.ingressId = original.ingressId ∧ row.eventId = original.eventId)
    (by
      intro original member state after before step
      obtain ⟨writes, rest, row, rows, isHeld, id, event⟩ :=
        unownedOne_ok (unowned original member) step
      obtain ⟨earlier, same, all⟩ := before
      refine ⟨⟨earlier.trans writes, rest.trans same, ?_⟩, ⟨row, by rw [rows]; simp, id, event⟩, ?_⟩
      · intro other there
        rw [rows] at there
        obtain old | new := List.mem_append.1 there
        · exact all other old
        · rw [List.mem_singleton.1 new]
          exact isHeld
      · rintro other ⟨found, there, same⟩
        exact ⟨found, by rw [rows]; exact List.mem_append_left _ there, same⟩)
    ⟨.refl db, rfl, by simp⟩ result
  exact ⟨loop.1.1, loop.1.2.1, loop.1.2.2, loop.2.1⟩

theorem unownedVerify_ok {held : List IngressRow}
    (result : Unowned.verify db target held = .ok ()) :
    ∀ row ∈ held, db.ingress.find row.ingressId = some row := by
  simp only [Unowned.verify] at result
  obtain ⟨_, result⟩ := guard_ok.1 result
  intro row member
  obtain ⟨same, _⟩ := guard_ok.1 (forM_ok result row member)
  exact Decidable.not_not.1 same

/-! ## Snapshots -/

/-- A list of at most 128 ids was not cut off. -/
theorem firstIds_all {ids : List String} (short : (firstIds ids).length ≤ 128) :
    ∀ id ∈ ids, id ∈ firstIds ids := by
  intro id member
  simp only [firstIds, List.length_take] at short ⊢
  rw [List.take_of_length_le (by omega)]
  exact (List.mergeSort_perm ids _).mem_iff.2 member

/-- Rows read one by one under their keys -/
theorem mapM_rows {α : Type} {key : α → String} {t : Table key} {make : String → Except StoreError α}
    {ids : List String} {made : List α} (reads : ∀ id row, make id = .ok row → t.find id = some row)
    (result : ids.mapM make = .ok made) :
    made.length = ids.length ∧ ∀ row ∈ t.rows, key row ∈ ids → row ∈ made := by
  have names := mapM_map key id (fun id _ row ran => Table.find_key (reads id row ran)) result
  rw [List.map_id] at names
  refine ⟨by rw [← names, List.length_map], ?_⟩
  intro row member named
  rw [← names] at named
  obtain ⟨other, there, same⟩ := List.mem_map.1 named
  obtain ⟨id, _, ran⟩ := mapM_made result other there
  exact Table.eq_of_key (Table.mem_of_find (reads id other ran)) member same ▸ there

theorem intakeSnapshot_ok {queued : Nat}
    {originals : List PromptIntake} (result : Intake.snapshot db scope queued = .ok originals) :
    ∀ intake ∈ db.intakes.rows, intake.targetThreadId = scope.target → intake ∈ originals := by
  simp only [Intake.snapshot] at result
  obtain ⟨short, result⟩ := guard_ok.1 result
  have rows := mapM_rows (t := db.intakes) (by
    intro id row ran
    split at ran
    · cases ran
    · next intake found =>
      obtain ⟨_, ran⟩ := guard_ok.1 ran
      cases ran
      exact found) result
  intro intake member own
  refine rows.2 intake member (firstIds_all (by simp only [Intake.targetIds] at short; omega) _ ?_)
  exact List.mem_map_of_mem (List.mem_filter.2 ⟨member, by simpa using own⟩)

/-- One read of a snapshot of requests without an owner -/
theorem unowned_read {id : String} {row : IngressRow} (ran : (match db.ingress.find id with
      | none => .error stopRefused
      | some original =>
        if original.channelId ≠ scope.channel || original.ownerUserId ≠ scope.owner ||
            original.eventId.all (· ≤ 0) || original.ownerKind ≠ none ||
            original.ownerId ≠ none then .error stopRefused
        else .ok original : Except StoreError IngressRow) = .ok row) :
    db.ingress.find id = some row ∧ row.ownerId = none := by
  split at ran
  · cases ran
  · next original found =>
    obtain ⟨fine, ran⟩ := guard_ok.1 ran
    cases ran
    simp only [Bool.or_eq_true, decide_eq_true_eq, not_or, ne_eq, Decidable.not_not] at fine
    exact ⟨found, fine.2⟩

theorem unownedSnapshot_ok {already : Nat}
    {originals : List IngressRow} (result : Unowned.snapshot db scope already = .ok originals) :
    (∀ row ∈ originals, row.ownerId = none) ∧ ∀ row ∈ unownedAsks db scope.target, row ∈ originals := by
  simp only [Unowned.snapshot] at result
  obtain ⟨short, result⟩ := guard_ok.1 result
  have rows := mapM_rows (t := db.ingress) (fun _ _ ran => (unowned_read ran).1) result
  refine ⟨?_, ?_⟩
  · intro row member
    obtain ⟨id, _, ran⟩ := mapM_made result row member
    exact (unowned_read ran).2
  · intro row member
    refine rows.2 row (List.mem_filter.1 member).1
      (firstIds_all (by simp only [Unowned.ids] at short; omega) _ ?_)
    exact List.mem_map_of_mem member

theorem selectJob_id {db : QueueDb ρ} {id : String} {job : StoredQueueJob}
    (selected : selectJob db id = .ok job) :
    ∃ row ∈ db.jobs.rows, row.decode = .ok job ∧ row.jobId = id ∧ job.jobId = id := by
  unfold selectJob at selected
  split at selected
  · cases selected
  · next row found =>
    obtain ⟨_, _, _, same, _⟩ := Queue.decode_fields selected
    exact ⟨row, Table.mem_of_find found, selected, Table.find_key found,
      same.trans (Table.find_key found)⟩

theorem targetJobs_ok {jobs : List StoredQueueJob} (short : ¬128 < (targetJobs db target).length)
    (result : (targetJobs db target).mapM (selectJob db) = .ok jobs) :
    ∀ row ∈ db.jobs.rows, row.targetThreadId = target → ∃ job ∈ jobs, job.jobId = row.jobId := by
  have names := mapM_map (fun job : StoredQueueJob => job.jobId) (fun id : String => id)
    (fun id _ job ran => (selectJob_id ran).elim fun _ found => found.2.2.2) result
  intro row member own
  have listed : row.jobId ∈ targetJobs db target :=
    firstIds_all (Nat.le_of_not_lt short) _
      (List.mem_map_of_mem (List.mem_filter.2 ⟨member, by simpa using own⟩))
  have named : row.jobId ∈ jobs.map fun job => job.jobId := by
    rw [names, List.map_id']
    exact listed
  obtain ⟨job, there, same⟩ := List.mem_map.1 named
  exact ⟨job, there, same⟩

/-! ## Accepted stops -/

/-- What the target had when the stop was accepted is held once it is committed. -/
structure Accepted (target : String) (db next : StopDb σ) : Prop where
  writes : StopWrites db next
  queued : ∀ row ∈ db.jobs.rows, row.targetThreadId = target → HeldFor next target row.jobId
  preparing : ∀ intake ∈ db.intakes.rows, intake.targetThreadId = target →
    HeldFor next target intake.jobId
  unowned : ∀ row ∈ unownedAsks db target, ∃ held, next.ingress.find row.ingressId = some held ∧
    HeldOriginal held ∧ held.eventId = row.eventId

/-- What a stop read, and the statements of its transaction in their order -/
structure StopStages (hooks : StopHooks σ) (call : StopCall) (db next : StopDb σ) where
  jobs : List StoredQueueJob
  preparing : List PromptIntake
  originals : List IngressRow
  held : List IngressRow
  receipt : StopReceipt
  claimed : Option IngressRow
  first : StopDb σ
  second : StopDb σ
  third : StopDb σ
  fourth : StopDb σ
  fifth : StopDb σ
  validated : validate db call.scope call.binding call.expected = .ok ()
  short : ¬128 < (targetJobs db call.scope.target).length
  selects : (targetJobs db call.scope.target).mapM (selectJob db) = .ok jobs
  prepares : ∃ queued, Intake.snapshot db call.scope queued = .ok preparing
  asks : ∃ already, Unowned.snapshot db call.scope already = .ok originals
  queued : ∃ refused requests holds, requests.map (·.1) = jobs.map (·.jobId) ∧
    holdEach hooks refused call.scope.target db requests = .ok (holds, first)
  prepared : ∃ operation holds,
    Intake.hold hooks call.scope operation first preparing = .ok (holds, second)
  /-- the new control, when there is one -/
  between : ∃ controls archived, third = { second with
    rest := { second.rest with controls := controls, archivedControls := archived } }
  unowned : Unowned.hold hooks call.operation third originals = .ok (held, fourth)
  claim : claimRecord hooks call.expected receipt call.now fourth = .ok (claimed, fifth)
  advanced : ∃ record,
    advance call.scope call.binding receipt call.operation fifth = .ok (record, next)
  checked : validate next call.scope call.binding claimed = .ok ()
  verified : Unowned.verify next call.scope.target held = .ok ()

theorem StopStages.accepted {hooks : StopHooks σ} {call : StopCall} {db next : StopDb σ}
    (stages : StopStages hooks call db next) : Accepted call.scope.target db next := by
  obtain ⟨_, requests, _, named, queued⟩ := stages.queued
  obtain ⟨_, _, prepared⟩ := stages.prepared
  have queued := holdEach_ok queued
  have prepared := holdEach_ok prepared
  obtain ⟨_, preparing_ok⟩ := stages.prepares
  obtain ⟨_, originals_ok⟩ := stages.asks
  obtain ⟨_, advanced⟩ := stages.advanced
  obtain ⟨unowned, listed⟩ := unownedSnapshot_ok originals_ok
  obtain ⟨heldWrites, _, originalsHeld, covered⟩ := unownedHold_ok unowned stages.unowned
  have tail : StopWrites stages.fourth next :=
    (claimRecord_ok stages.claim).1.trans (advance_ok advanced).1
  have middle : StopWrites stages.second stages.third := by
    obtain ⟨_, _, same⟩ := stages.between
    rw [same]
    exact ⟨rfl, rfl, rfl, .of_same rfl⟩
  have rest := middle.trans (heldWrites.trans tail)
  constructor
  · exact queued.writes.trans (prepared.writes.trans rest)
  · intro row member own
    obtain ⟨job, there, same⟩ := targetJobs_ok stages.short stages.selects row member own
    have request : job.jobId ∈ requests.map (·.1) := by
      rw [named]
      exact List.mem_map_of_mem there
    obtain ⟨pair, inside, id⟩ := List.mem_map.1 request
    rw [← same, ← id]
    exact (queued.held pair inside).kept (prepared.kept.trans rest.holds)
  · intro intake member own
    have there := intakeSnapshot_ok preparing_ok intake member own
    exact (prepared.held _ (List.mem_map_of_mem there)).kept rest.holds
  · intro row member
    obtain ⟨found, there, id, event⟩ := covered row (listed row member)
    rw [← id, ← event]
    exact ⟨found, unownedVerify_ok stages.verified found there, originalsHeld found there, rfl⟩

/-- The other tables of a stop, before its control and after it -/
theorem StopStages.rest (stages : StopStages hooks call db next) : stages.second.rest = db.rest ∧
      next.rest.controls = stages.third.rest.controls := by
  obtain ⟨_, _, _, _, queued⟩ := stages.queued
  obtain ⟨_, _, prepared⟩ := stages.prepared
  obtain ⟨_, first⟩ := (holdEach_ok queued).only
  obtain ⟨_, second⟩ := (holdEach_ok prepared).only
  obtain ⟨_, originals_ok⟩ := stages.asks
  obtain ⟨_, advanced⟩ := stages.advanced
  obtain ⟨_, held, _⟩ := unownedHold_ok (unownedSnapshot_ok originals_ok).1 stages.unowned
  refine ⟨by rw [second, first], ?_⟩
  rw [(advance_ok advanced).2.1, (claimRecord_ok stages.claim).2, held]

theorem acceptScopeIn_stages
    (result : acceptScopeIn hooks call allowUncertain db = .ok (some receipt, next)) :
    ∃ stages : StopStages hooks call db next, stages.receipt = receipt ∧
      stages.third = stages.second := by
  simp only [acceptScopeIn] at result
  obtain ⟨_, validated, result⟩ := bind_ok.1 result
  obtain ⟨_, _, result⟩ := bind_ok.1 result
  obtain ⟨preparing, prepares, result⟩ := bind_ok.1 result
  obtain ⟨originals, asks, result⟩ := bind_ok.1 result
  obtain ⟨short, result⟩ := guard_ok.1 result
  obtain ⟨jobs, selects, result⟩ := bind_ok.1 result
  obtain ⟨_, result⟩ := guard_ok.1 result
  obtain ⟨_, result⟩ | ⟨_, result⟩ := ite_ok.1 result
  · cases result
  · obtain ⟨⟨holds, first⟩, queued, result⟩ := bind_ok.1 result
    obtain ⟨_, _, result⟩ := bind_ok.1 result
    obtain ⟨⟨intakeHolds, second⟩, prepared, result⟩ := bind_ok.1 result
    obtain ⟨⟨held, fourth⟩, unowned, result⟩ := bind_ok.1 result
    obtain ⟨⟨claimed, fifth⟩, claim, result⟩ := bind_ok.1 result
    obtain ⟨⟨record, last⟩, advanced, result⟩ := bind_ok.1 result
    obtain ⟨_, checked, result⟩ := bind_ok.1 result
    obtain ⟨_, _, result⟩ := bind_ok.1 result
    obtain ⟨_, result⟩ := guard_ok.1 result
    obtain ⟨_, _, result⟩ := bind_ok.1 result
    obtain ⟨_, _, result⟩ := bind_ok.1 result
    obtain ⟨_, verified, result⟩ := bind_ok.1 result
    obtain ⟨_, _, result⟩ := bind_ok.1 result
    cases result
    exact ⟨{
      jobs, preparing, originals, held, claimed, first, second, fourth, fifth
      receipt := _
      third := second
      validated, short, selects, unowned, claim, checked, verified
      prepares := ⟨_, prepares⟩
      asks := ⟨_, asks⟩
      queued := ⟨_, _, holds, by simp, queued⟩
      prepared := ⟨_, intakeHolds, prepared⟩
      between := ⟨_, _, rfl⟩
      advanced := ⟨record, advanced⟩ }, rfl, rfl⟩

theorem acceptScopeIn_ok
    (result : acceptScopeIn hooks call allowUncertain db = .ok (some receipt, next)) :
    Accepted call.scope.target db next ∧ next.rest.controls = db.rest.controls := by
  obtain ⟨stages, _, same⟩ := acceptScopeIn_stages result
  obtain ⟨before, after⟩ := stages.rest
  exact ⟨stages.accepted, by rw [after, same, before]⟩

theorem insertControl_ok (result : Control.insertControl db control = .ok next) :
    0 < control.generation ∧ (∃ controls archived, next = { db with
      rest := { db.rest with controls := controls, archivedControls := archived } }) ∧
      next.rest.controls.rows = db.rest.controls.rows ++
        [⟨control, .accepted, none, none, none, "", none⟩] := by
  simp only [Control.insertControl] at result
  obtain ⟨positive, result⟩ := guard_ok.1 result
  split at result
  · cases result
  · next controls inserted =>
    cases result
    exact ⟨Int.not_le.1 positive, ⟨_, _, rfl⟩, (Table.insert_some inserted).1⟩

/-- The record that a running stop leaves: its jobs are jobs of its target. -/
structure NewControl (hooks : StopHooks σ) (db next : StopDb σ) (control : StopControl) : Prop where
  rows : next.rest.controls.rows = db.rest.controls.rows ++
    [⟨control, .accepted, none, none, none, "", none⟩]
  jobs : ∀ text ∈ control.jobs, ∃ job : StoredQueueJob,
    text = hooks.jobText job ∧ job.targetThreadId = control.target

theorem mem_targetJobs {id : String} (listed : id ∈ targetJobs db target) :
    ∃ row ∈ db.jobs.rows, row.jobId = id ∧ row.targetThreadId = target := by
  have inside := (List.mergeSort_perm _ _).mem_iff.1 (List.mem_of_mem_take listed)
  obtain ⟨row, member, same⟩ := List.mem_map.1 inside
  obtain ⟨there, own⟩ := List.mem_filter.1 member
  exact ⟨row, there, same, by simpa using own⟩

theorem targetJobs_target {jobs : List StoredQueueJob}
    (result : (targetJobs db target).mapM (selectJob db) = .ok jobs) :
    ∀ job ∈ jobs, job.targetThreadId = target := by
  intro job member
  obtain ⟨id, listed, selected⟩ := mapM_made result job member
  obtain ⟨row, there, decoded, key, _⟩ := selectJob_id selected
  obtain ⟨other, here, same, own⟩ := mem_targetJobs listed
  obtain ⟨_, _, _, _, target, _⟩ := Queue.decode_fields decoded
  rw [target, Table.eq_of_key there here (key.trans same.symm), own]

theorem acceptRunningIn_stages
    (result : Control.acceptRunningIn hooks call resident generation db = .ok (some control, next)) :
    ∃ stages : StopStages hooks call db next,
      Control.insertControl stages.second control = .ok stages.third ∧
      control.jobs = stages.jobs.map hooks.jobText ∧ control.target = call.scope.target := by
  simp only [Control.acceptRunningIn] at result
  obtain ⟨_, validated, result⟩ := bind_ok.1 result
  obtain ⟨_, _, result⟩ := bind_ok.1 result
  obtain ⟨short, result⟩ := guard_ok.1 result
  obtain ⟨jobs, selects, result⟩ := bind_ok.1 result
  obtain ⟨_, result⟩ | ⟨_, result⟩ := ite_ok.1 result
  · cases result
  · obtain ⟨⟨running, turn⟩, _, result⟩ := bind_ok.1 result
    obtain ⟨preparing, prepares, result⟩ := bind_ok.1 result
    obtain ⟨originals, asks, result⟩ := bind_ok.1 result
    obtain ⟨⟨holds, first⟩, queued, result⟩ := bind_ok.1 result
    obtain ⟨⟨intakeHolds, second⟩, prepared, result⟩ := bind_ok.1 result
    obtain ⟨third, inserted, result⟩ := bind_ok.1 result
    obtain ⟨_, _, result⟩ := bind_ok.1 result
    obtain ⟨⟨held, fourth⟩, unowned, result⟩ := bind_ok.1 result
    obtain ⟨⟨claimed, fifth⟩, claim, result⟩ := bind_ok.1 result
    obtain ⟨⟨record, last⟩, advanced, result⟩ := bind_ok.1 result
    obtain ⟨_, checked, result⟩ := bind_ok.1 result
    obtain ⟨_, _, result⟩ := bind_ok.1 result
    obtain ⟨_, result⟩ := guard_ok.1 result
    obtain ⟨_, _, result⟩ := bind_ok.1 result
    obtain ⟨_, _, result⟩ := bind_ok.1 result
    obtain ⟨_, verified, result⟩ := bind_ok.1 result
    obtain ⟨_, _, result⟩ := bind_ok.1 result
    cases result
    exact ⟨{
      jobs, preparing, originals, held, claimed, first, second, third, fourth, fifth
      receipt := _
      validated, short, selects, unowned, claim, checked, verified
      prepares := ⟨_, prepares⟩
      asks := ⟨_, asks⟩
      queued := ⟨_, _, holds, by simp, queued⟩
      prepared := ⟨_, intakeHolds, prepared⟩
      between := (insertControl_ok inserted).2.1
      advanced := ⟨record, advanced⟩ }, inserted, rfl, rfl⟩

theorem acceptRunningIn_ok
    (result : Control.acceptRunningIn hooks call resident generation db = .ok (some control, next)) :
    Accepted call.scope.target db next ∧ NewControl hooks db next control ∧
      control.target = call.scope.target := by
  obtain ⟨stages, inserted, jobs, target⟩ := acceptRunningIn_stages result
  obtain ⟨before, after⟩ := stages.rest
  refine ⟨stages.accepted, ⟨?_, ?_⟩, target⟩
  · rw [after, (insertControl_ok inserted).2.2, before]
  · intro text member
    rw [jobs] at member
    obtain ⟨job, there, same⟩ := List.mem_map.1 member
    exact ⟨job, same.symm, (targetJobs_target stages.selects job there).trans target.symm⟩

theorem acceptScope_ok
    (result : acceptScope hooks call allowUncertain db = (.ok (some receipt), next)) :
    Accepted call.scope.target db next ∧ next.rest.controls = db.rest.controls := by
  unfold acceptScope at result
  split at result
  · cases result
  · split at result
    · split at result <;> cases result
    · cases result
    · obtain ⟨after, ran, same⟩ := commitWhen_ok result
      rw [same]
      exact acceptScopeIn_ok ran

theorem acceptRunning_ok
    (result : Control.acceptRunning hooks call resident generation db = (.ok (some control), next)) :
    Accepted call.scope.target db next ∧ NewControl hooks db next control ∧
      control.target = call.scope.target := by
  unfold Control.acceptRunning at result
  split at result
  · cases result
  · split at result
    · split at result <;> cases result
    · cases result
    · obtain ⟨after, ran, same⟩ := commitWhen_ok result
      rw [same]
      exact acceptRunningIn_ok ran

/-- A stop that is not committed leaves the store as it was. -/
theorem acceptScope_unchanged {answer : Except StoreError (Option StopReceipt)}
    (result : acceptScope hooks call allowUncertain db = (answer, next))
    (uncommitted : ∀ receipt, answer ≠ .ok (some receipt)) : next = db := by
  unfold acceptScope at result
  split at result
  · cases result
    rfl
  · split at result
    · split at result <;> (cases result; rfl)
    · cases result
      rfl
    · cases answer with
      | error error => exact commitWhen_error result
      | ok found =>
        obtain ⟨after, _, same⟩ := commitWhen_ok result
        cases found with
        | none => exact same
        | some receipt => exact absurd rfl (uncommitted receipt)

theorem acceptRunning_unchanged {answer : Except StoreError (Option StopControl)}
    (result : Control.acceptRunning hooks call resident generation db = (answer, next))
    (uncommitted : ∀ control, answer ≠ .ok (some control)) : next = db := by
  unfold Control.acceptRunning at result
  split at result
  · cases result
    rfl
  · split at result
    · split at result <;> (cases result; rfl)
    · cases result
      rfl
    · cases answer with
      | error error => exact commitWhen_error result
      | ok found =>
        obtain ⟨after, _, same⟩ := commitWhen_ok result
        cases found with
        | none => exact same
        | some control => exact absurd rfl (uncommitted control)

end CodexRemote.Verified.Stop

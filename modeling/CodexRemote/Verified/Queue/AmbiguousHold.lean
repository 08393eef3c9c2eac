import CodexRemote.Verified.Queue.Claims

/-! # A held start and its notice

A hold marks the row of the start and adds a notice under an id made from the job's.  The notice
of an earlier hold stands under the same id until it is delivered.
-/

namespace CodexRemote.Verified.Queue

open Foundations Store

variable {ρ : Type}

structure HoldCall where
  claimed : StoredQueueJob
  candidateTurnIds : List String
  now : Rat

def HoldCall.held (call : HoldCall) : Bool :=
  startsWith call.claimed.lastError startingCandidateHoldPrefix

def HoldCall.noticeId (call : HoldCall) : String :=
  startingCandidateNoticePrefix ++ call.claimed.jobId

def HoldCall.mark (call : HoldCall) (row : QueueRow) : QueueRow :=
  row.mark (candidateMarker call.claimed (candidateSummary call.candidateTurnIds)) call.now

theorem HoldCall.mark_jobId (call : HoldCall) (row : QueueRow) :
    (call.mark row).jobId = row.jobId := row.mark_jobId _ _

/-- The notice of a row that was held. -/
def HoldCall.notice (call : HoldCall) (held : StoredQueueJob) : OutboxNotice :=
  ⟨startingCandidateNoticePrefix ++ held.jobId, startingCandidateNoticePrefix ++ held.jobId,
    held.targetThreadId, startingCandidateNoticePrefix ++ held.jobId, held.channelId,
    candidateNotice held (candidateSummary call.candidateTurnIds), call.now⟩

/-- The row that the update of a hold finds. -/
def holdable (db : QueueDb ρ) (claimed : StoredQueueJob) (row : QueueRow) : Bool :=
  row.jobId == claimed.jobId && exactStarting db claimed row &&
    !db.archive.frozen .turnQueue row.jobId

/-- The claim does not describe a row of the queue, or its row is frozen. -/
def StaleClaim (db : QueueDb ρ) (claimed : StoredQueueJob) : Prop :=
  matchingBaseline db claimed = .ok false ∨
    (matchingBaseline db claimed = .ok true ∧ db.jobs.count (holdable db claimed) = 0)

/-- The store after the update of a hold. -/
def markedStore (db : QueueDb ρ) (call : HoldCall) : QueueDb ρ :=
  { db with jobs := db.jobs.update (holdable db call.claimed) call.mark call.mark_jobId }

/-- The claimed row stands, and what other modules guard lets both writes pass. -/
structure Holdable (hooks : QueueHooks ρ) (db : QueueDb ρ) (call : HoldCall) (row : QueueRow)
    (held : StoredQueueJob) : Prop where
  found : db.jobs.find call.claimed.jobId = some row
  baseline : matchingBaseline db call.claimed = .ok true
  exact : holdable db call.claimed row = true
  decoded : (call.mark row).decode = .ok held
  update : updateFence hooks db row (call.mark row) = none
  insert : hooks.fenceNotice (markedStore db call) (call.notice held) = none
  retained : db.archive.recordRetired .deliveryOutbox call.noticeId = false

/-- The claim is stale; or the hold can be written, and no notice of an earlier one stands. -/
def Unhindered (hooks : QueueHooks ρ) (db : QueueDb ρ) (call : HoldCall) : Prop :=
  StaleClaim db call.claimed ∨
    ((∃ row held, Holdable hooks db call row held) ∧ noticesOf db call.noticeId = 0)

/-- The row is marked and its one notice stands. -/
structure Recorded (db next : QueueDb ρ) (call : HoldCall) (held : StoredQueueJob) : Prop where
  row : ∃ row, db.jobs.find call.claimed.jobId = some row ∧
    next.jobs.find call.claimed.jobId = some (call.mark row) ∧ (call.mark row).decode = .ok held
  others : ∀ id, id ≠ call.claimed.jobId → next.jobs.find id = db.jobs.find id
  added : next.outbox.rows = db.outbox.rows ++ [call.notice held]
  once : noticesOf next call.noticeId = 1

/-- Nothing changed because the claim is stale, or the hold and its notice were recorded. -/
def Committed (db next : QueueDb ρ) (call : HoldCall)
    (answer : Except StoreError (Option StoredQueueJob)) : Prop :=
  (StaleClaim db call.claimed ∧ answer = .ok none ∧ next = db) ∨
    ∃ held, answer = .ok (some held) ∧ Recorded db next call held

/-! ## The update of the row -/

theorem holdable_named {db : QueueDb ρ} {claimed : StoredQueueJob} (row : QueueRow)
    (holds : holdable db claimed row = true) : row.jobId = claimed.jobId := by
  simp only [holdable, Bool.and_eq_true, beq_iff_eq] at holds
  exact holds.1.1

variable {call : HoldCall} {db : QueueDb ρ} {hooks : QueueHooks ρ}

theorem updateJob_marks {row : QueueRow} (found : db.jobs.find call.claimed.jobId = some row)
    (exact : holdable db call.claimed row = true)
    (passes : updateFence hooks db row (call.mark row) = none) :
    updateJob hooks db call.claimed.jobId (exactStarting db call.claimed) call.mark
      call.mark_jobId = .ok (true, markedStore db call) := by
  have one : db.jobs.count (holdable db call.claimed) = 1 := by
    rw [Table.count_keyed holdable_named, found]
    simp [exact]
  have clear : (db.jobs.select (holdable db call.claimed)).findSome?
      (fun r => updateFence hooks db r (call.mark r)) = none := by
    rw [List.findSome?_eq_none_iff]
    intro other member
    obtain ⟨there, selected⟩ := List.mem_filter.1 member
    -- the condition names one key, so this is the row
    have same : other = row := Table.eq_of_key there (Table.mem_of_find found)
      ((holdable_named other selected).trans (Table.find_key found).symm)
    rw [same]
    exact passes
  unfold updateJob updateJobs
  dsimp only
  split
  · next failed => cases clear.symm.trans failed
  · show Except.ok ((db.jobs.count (holdable db call.claimed) == 1), markedStore db call) = _
    rw [one]
    rfl

theorem updateJob_idle (unselected : db.jobs.count (holdable db call.claimed) = 0) :
    updateJob hooks db call.claimed.jobId (exactStarting db call.claimed) call.mark
      call.mark_jobId = .ok (false, db) := by
  have clear : (db.jobs.select (holdable db call.claimed)).findSome?
      (fun r => updateFence hooks db r (call.mark r)) = none := by
    rw [List.findSome?_eq_none_iff]
    intro other member
    obtain ⟨there, selected⟩ := List.mem_filter.1 member
    exact absurd selected (List.countP_eq_zero.1 unselected other there)
  have same : markedStore db call = db := by
    unfold markedStore
    rw [Table.update_unselected unselected]
  unfold updateJob updateJobs
  dsimp only
  split
  · next failed => cases clear.symm.trans failed
  · show Except.ok ((db.jobs.count (holdable db call.claimed) == 1), markedStore db call) = _
    rw [unselected, same]
    rfl

theorem updateJob_marked {middle : QueueDb ρ}
    (result : updateJob hooks db call.claimed.jobId (exactStarting db call.claimed) call.mark
      call.mark_jobId = .ok (true, middle)) :
    middle = markedStore db call ∧ ∃ row, db.jobs.find call.claimed.jobId = some row ∧
      holdable db call.claimed row = true ∧ updateFence hooks db row (call.mark row) = none := by
  obtain unselected | ⟨_, row, found, exact⟩ := Table.count_keyed_cases
    (@holdable_named _ db call.claimed)
  · rw [updateJob_idle unselected] at result
    cases result
  · obtain ⟨idle, _⟩ | ⟨_, _, other, there, _, _, _, passes⟩ := updateJob_ok result
    · cases idle
    · cases found.symm.trans there
      rw [updateJob_marks found exact passes] at result
      cases result
      exact ⟨rfl, row, found, exact, passes⟩

/-! ## What a hold answers -/

def HoldCall.run (call : HoldCall) (hooks : QueueHooks ρ) (db : QueueDb ρ) :
    Except StoreError (Option StoredQueueJob) × QueueDb ρ :=
  holdStartingForAmbiguousCandidatesIfClaimed hooks call.claimed call.candidateTurnIds call.now db

/-- The body of a hold whose claim is not held yet. -/
theorem holdStartingIn_fresh (fresh : call.held = false) :
    holdStartingIn hooks call.claimed call.candidateTurnIds call.now db = (do
      let matching ← matchingBaseline db call.claimed
      if !matching then .ok (none, db)
      else
        let (updated, db) ← updateJob hooks db call.claimed.jobId
          (exactStarting db call.claimed) call.mark call.mark_jobId
        if !updated then .ok (none, db)
        else
          let held ← selectJob db call.claimed.jobId
          let db ← insertNotice hooks db (call.notice held)
          .ok (some held, db)) := by
  unfold holdStartingIn
  exact if_neg (by simpa [HoldCall.held] using fresh)

theorem hold_stale (fresh : call.held = false) (stale : StaleClaim db call.claimed) :
    call.run hooks db = (.ok none, db) := by
  have body : holdStartingIn hooks call.claimed call.candidateTurnIds call.now db =
      .ok (none, db) := by
    rw [holdStartingIn_fresh fresh]
    obtain differs | ⟨same, unselected⟩ := stale
    · rw [differs]
      rfl
    · rw [same]
      show (do let (updated, db) ← updateJob hooks db _ _ call.mark _; _) = _
      rw [updateJob_idle unselected]
      rfl
  unfold HoldCall.run holdStartingForAmbiguousCandidatesIfClaimed commit commitWhen
  rw [body]
  rfl

theorem hold_recorded {row : QueueRow}
    {held : StoredQueueJob} (fresh : call.held = false) (able : Holdable hooks db call row held)
    (free : noticesOf db call.noticeId = 0) :
    ∃ next, call.run hooks db = (.ok (some held), next) ∧ Recorded db next call held := by
  have own : held.jobId = call.claimed.jobId := by
    obtain ⟨_, _, _, own, _⟩ := decode_fields able.decoded
    exact (own.trans (call.mark_jobId row)).trans (Table.find_key able.found)
  have named : call.noticeId = (call.notice held).deliveryId := by
    rw [HoldCall.noticeId, ← own, HoldCall.notice]
  have marked : (markedStore db call).jobs.find call.claimed.jobId = some (call.mark row) := by
    rw [markedStore, Table.find_update, able.found, Option.map_some, if_pos able.exact]
  obtain ⟨inserted, added, once⟩ := insertNotice_adds rfl able.insert
    (named ▸ able.retained) (named ▸ free)
  have selected : selectJob (markedStore db call) call.claimed.jobId = .ok held := by
    unfold selectJob
    rw [marked]
    exact able.decoded
  have body : holdStartingIn hooks call.claimed call.candidateTurnIds call.now db =
      .ok (some held, noticedStore (markedStore db call) (call.notice held)) := by
    rw [holdStartingIn_fresh fresh]
    refine bind_ok.2 ⟨true, able.baseline, ?_⟩
    rw [if_neg (by decide)]
    refine bind_ok.2 ⟨_, updateJob_marks able.found able.exact able.update, ?_⟩
    dsimp only
    rw [if_neg (by decide)]
    exact bind_ok.2 ⟨held, selected, bind_ok.2 ⟨_, inserted, rfl⟩⟩
  refine ⟨noticedStore (markedStore db call) (call.notice held), ?_, ⟨row, able.found, marked,
    able.decoded⟩, ?_, added, ?_⟩
  · unfold HoldCall.run holdStartingForAmbiguousCandidatesIfClaimed commit commitWhen
    rw [body]
    rfl
  · intro id other
    refine Table.find_update_ne call.mark_jobId fun r same => ?_
    by_contra holds
    exact other (same.symm.trans (holdable_named r (by simpa using holds)))
  · rw [named]
    exact once

/-- A hold that answers with a row wrote both, and met no notice of an earlier hold, unless the
archive ignored the new one. -/
theorem hold_some {next : QueueDb ρ} {held : StoredQueueJob} (fresh : call.held = false)
    (answered : call.run hooks db = (.ok (some held), next)) :
    next.outbox = db.outbox ∨
      ((∃ row, Holdable hooks db call row held) ∧ noticesOf db call.noticeId = 0) := by
  have result := commit_ok answered
  rw [holdStartingIn_fresh fresh] at result
  obtain ⟨matching, stored, result⟩ := bind_ok.1 result
  obtain ⟨_, result⟩ | ⟨same, result⟩ := ite_ok.1 result
  · cases result
  · obtain ⟨⟨updated, middle⟩, update, result⟩ := bind_ok.1 result
    dsimp only at result
    obtain ⟨_, result⟩ | ⟨changed, result⟩ := ite_ok.1 result
    · cases result
    · obtain ⟨job, selected, result⟩ := bind_ok.1 result
      obtain ⟨noticed, inserted, result⟩ := bind_ok.1 result
      cases result
      have held' : matching = true := by simpa using same
      have updated' : updated = true := by simpa using changed
      subst held' updated'
      obtain ⟨rfl, row, found, exact, passes⟩ := updateJob_marked update
      have marked : (markedStore db call).jobs.find call.claimed.jobId = some (call.mark row) := by
        rw [markedStore, Table.find_update, found, Option.map_some, if_pos exact]
      have decoded := selectJob_ok selected marked
      have own : held.jobId = call.claimed.jobId := by
        obtain ⟨_, _, _, own, _⟩ := decode_fields decoded
        exact (own.trans (call.mark_jobId row)).trans (Table.find_key found)
      have named : (call.notice held).deliveryId = call.noticeId := by
        rw [HoldCall.noticeId, ← own, HoldCall.notice]
      obtain ⟨unfenced, ⟨_, ignored⟩ | ⟨retained, free, _⟩⟩ := insertNotice_ok rfl inserted
      · exact .inl (by rw [ignored]; rfl)
      · rw [named] at retained free
        exact .inr ⟨⟨row, found, stored, exact, decoded, passes, unfenced, retained⟩, free⟩

theorem committed_iff (fresh : call.held = false) :
    Committed db (call.run hooks db).2 call (call.run hooks db).1 ↔ Unhindered hooks db call := by
  constructor
  · rintro (⟨stale, _, _⟩ | ⟨held, answered, recorded⟩)
    · exact .inl stale
    · obtain same | clear := hold_some fresh (Prod.ext answered rfl : call.run hooks db = (_, _))
      · -- the outbox has one row more, so the archive did not ignore it
        have longer := congrArg List.length (same ▸ recorded.added)
        simp at longer
      · exact .inr ⟨⟨_, held, clear.1.choose_spec⟩, clear.2⟩
  · rintro (stale | ⟨⟨row, held, able⟩, free⟩)
    · rw [hold_stale fresh stale]
      exact .inl ⟨stale, rfl, rfl⟩
    · obtain ⟨next, answered, recorded⟩ := hold_recorded fresh able free
      rw [answered]
      exact .inr ⟨held, rfl, recorded⟩

/-! ## A claim that is held already -/

/-- The hold and the ids of the notices stay; at most the text of one notice is renewed. -/
structure Refreshed (db next : QueueDb ρ) (call : HoldCall) : Prop where
  jobs : next.jobs = db.jobs
  notices : ∀ id, noticesOf next id = noticesOf db id
  others : ∀ id, id ≠ call.noticeId → next.outbox.find id = db.outbox.find id

theorem Refreshed.refl (db : QueueDb ρ) (call : HoldCall) : Refreshed db db call :=
  ⟨rfl, fun _ => rfl, fun _ _ => rfl⟩

theorem refreshNotice_ok {next : QueueDb ρ} {content : String}
    (result : refreshNoticeIfPending hooks db call.claimed content call.now = .ok next) :
    Refreshed db next call := by
  unfold refreshNoticeIfPending at result
  dsimp only at result
  split at result
  · cases result
  · cases result
    refine ⟨rfl, fun id => ?_, fun id other => ?_⟩
    · simp only [noticesOf, Table.count, Table.update, List.countP_map]
      congr 1
      funext n
      simp only [Function.comp_apply]
      split <;> rfl
    · refine @Table.find_update_ne _ _ _ _ db.outbox _
        (fun n => { n with content := content, updatedAt := call.now }) (fun _ => rfl) id ?_
      intro n same
      have apart : (n.deliveryId == startingCandidateNoticePrefix ++ call.claimed.jobId) = false := by
        rw [same]
        exact beq_false_of_ne other
      simp only [apart, Bool.false_and]

theorem refreshNotice_error {held : StoredQueueJob}
    {content : String} {now : Rat} {error : StoreError}
    (result : refreshNoticeIfPending hooks db held content now = .error error) :
    ∃ notice, hooks.fenceNotice db notice = some error := by
  unfold refreshNoticeIfPending at result
  dsimp only at result
  split at result
  · next aborted =>
    cases result
    obtain ⟨n, _, fenced⟩ := List.exists_of_findSome?_eq_some aborted
    exact ⟨_, fenced⟩
  · cases result

/-- The body of a hold whose claim is held already. -/
theorem holdStartingIn_held (held : call.held = true) :
    holdStartingIn hooks call.claimed call.candidateTurnIds call.now db = (do
      let exact ← exactStartingSnapshotMatches db call.claimed
      if !exact then .ok (none, db)
      else
        let db ← refreshNoticeIfPending hooks db call.claimed
          (candidateNotice call.claimed (candidateSummary call.candidateTurnIds)) call.now
        let current ← selectJob db call.claimed.jobId
        .ok (some current, db)) := by
  unfold holdStartingIn
  exact if_pos held

theorem held_refreshed (held : call.held = true) : Refreshed db (call.run hooks db).2 call := by
  generalize ran : call.run hooks db = outcome
  obtain ⟨answer, next⟩ := outcome
  cases answer with
  | error e => exact commit_error ran ▸ .refl db call
  | ok answer =>
    have result := commit_ok ran
    rw [holdStartingIn_held held] at result
    obtain ⟨exact, _, result⟩ := bind_ok.1 result
    obtain ⟨_, result⟩ | ⟨_, result⟩ := ite_ok.1 result
    · cases result
      exact .refl db call
    · obtain ⟨after, refreshed, result⟩ := bind_ok.1 result
      obtain ⟨current, _, result⟩ := bind_ok.1 result
      cases result
      exact refreshNotice_ok refreshed

/-- What a refused refresh was refused for: a baseline that cannot be read, or a trigger of
another module. -/
theorem held_error {error : StoreError}
    (held : call.held = true) (failed : (call.run hooks db).1 = .error error) :
    matchingBaseline db call.claimed = .error error ∨
      ∃ notice, hooks.fenceNotice db notice = some error := by
  have result := commit_refused failed
  rw [holdStartingIn_held held] at result
  obtain snapshot | ⟨exact, snapshot, result⟩ := bind_error.1 result
  · unfold exactStartingSnapshotMatches at snapshot
    split at snapshot
    · cases snapshot
    · obtain unread | ⟨matching, _, impossible⟩ := bind_error.1 snapshot
      · exact .inl unread
      · cases impossible
  · cases exact with
    | false => cases result
    | true =>
      obtain refused | ⟨after, refreshed, result⟩ := bind_error.1 result
      · exact .inr (refreshNotice_error refused)
      · -- the row that was matched can be read
        unfold exactStartingSnapshotMatches at snapshot
        obtain ⟨_, snapshot⟩ | ⟨_, snapshot⟩ := ite_ok.1 snapshot
        · cases snapshot
        · obtain ⟨matching, stored, snapshot⟩ := bind_ok.1 snapshot
          simp only [Except.ok.injEq, Bool.and_eq_true, Option.any_eq_true] at snapshot
          obtain ⟨same, row, found, _⟩ := snapshot
          have column := matchingBaseline_true found (same ▸ stored)
          have read : selectJob after call.claimed.jobId = row.decode := by
            unfold selectJob
            rw [(refreshNotice_ok refreshed).jobs, found]
          rw [read, QueueRow.decode, column] at result
          cases result

/-! ## The calls of a run -/

/-- Holds among whatever else the program does to the store. -/
inductive HoldStep (hooks : QueueHooks ρ) : QueueDb ρ → Option HoldCall → QueueDb ρ → Prop where
  | hold (call : HoldCall) (db : QueueDb ρ) : HoldStep hooks db (some call) (call.run hooks db).2
  | other (db next : QueueDb ρ) : HoldStep hooks db none next

/-- No hold of the run meets an obstacle. -/
def UnhinderedStep (hooks : QueueHooks ρ) (db : QueueDb ρ) (label : Option HoldCall)
    (next : QueueDb ρ) : Prop :=
  HoldStep hooks db label next ∧
    ∀ call, label = some call → call.held = false → Unhindered hooks db call

def CommittedStep (hooks : QueueHooks ρ) (db : QueueDb ρ) (label : Option HoldCall)
    (next : QueueDb ρ) : Prop :=
  HoldStep hooks db label next ∧
    ∀ call, label = some call → call.held = false →
      Committed db next call (call.run hooks db).1

structure AmbiguousHolds (hooks : QueueHooks ρ) : Prop where
  /-- A hold commits with its notice exactly when nothing hinders it. -/
  commits : ∀ (db : QueueDb ρ) (call : HoldCall), call.held = false →
    (Committed db (call.run hooks db).2 call (call.run hooks db).1 ↔ Unhindered hooks db call)
  /-- A claim that is held already keeps its hold and its notices as they stand. -/
  refreshes : ∀ (db : QueueDb ρ) (call : HoldCall), call.held = true →
    Refreshed db (call.run hooks db).2 call ∧
      ∀ error, (call.run hooks db).1 = .error error →
        matchingBaseline db call.claimed = .error error ∨
          ∃ notice, hooks.fenceNotice db notice = some error
  /-- In a run where nothing hinders them, all holds commit with their notices. -/
  runs : ∀ {db final : QueueDb ρ} {labels : List (Option HoldCall)},
    Run (UnhinderedStep hooks) db labels final → Run (CommittedStep hooks) db labels final

theorem ambiguous_hold_commits (hooks : QueueHooks ρ) : AmbiguousHolds hooks where
  commits db call fresh := committed_iff fresh
  refreshes db call held := ⟨held_refreshed held, fun _ failed => held_error held failed⟩
  runs := by
    intro db final labels run
    induction run with
    | nil db => exact .nil db
    | @cons db label next labels final step rest ih =>
      obtain ⟨once, clear⟩ := step
      refine .cons ⟨once, ?_⟩ ih
      intro call named fresh
      subst named
      have unhindered := clear call rfl fresh
      cases once with
      | hold call db => exact (committed_iff fresh).2 unhindered

/-! ## The notice of an earlier hold -/

def firstHold : HoldCall := ⟨decoded begunRow, ["turn-2"], 2⟩

/-- The row after the first hold, after its start failed, and after it was started again. -/
def heldRow : QueueRow := firstHold.mark begunRow
def failedRow : QueueRow := heldRow.failStart false "connection lost" 3
def restartedRow : QueueRow := failedRow.begin ["turn-1"] 3 4

/-- A store with one job and the notice of its first hold. -/
def noticed (row : QueueRow) : QueueDb Unit :=
  { onlyJob row with outbox := ⟨[firstHold.notice (decoded heldRow)], List.nodup_singleton _⟩ }

def secondHold : HoldCall := ⟨decoded restartedRow, ["turn-2"], 5⟩

theorem leftover_notice_refuses_hold :
    tryBeginAttempt quietHooks "job" ["turn-1"] 3 1 (onlyJob waitingRow) =
        (.ok (some (decoded begunRow)), onlyJob begunRow) ∧
      firstHold.run quietHooks (onlyJob begunRow) = (.ok (some (decoded heldRow)), noticed heldRow) ∧
      recordStartFailureIfClaimed quietHooks (decoded heldRow) "connection lost" false 3
        (noticed heldRow) = (.ok (some (decoded failedRow)), noticed failedRow) ∧
      tryBeginAttempt quietHooks "job" ["turn-1"] 3 4 (noticed failedRow) =
        (.ok (some (decoded restartedRow)), noticed restartedRow) ∧
      secondHold.held = false ∧
      secondHold.run quietHooks (noticed restartedRow) =
        (.error (.database "UNIQUE constraint failed: codex_delivery_outbox"),
          noticed restartedRow) ∧
      ¬ Committed (noticed restartedRow) (secondHold.run quietHooks (noticed restartedRow)).2
        secondHold (secondHold.run quietHooks (noticed restartedRow)).1 := by
  have failed : secondHold.run quietHooks (noticed restartedRow) =
      (.error (.database "UNIQUE constraint failed: codex_delivery_outbox"),
        noticed restartedRow) := by rfl
  refine ⟨by rfl, by rfl, by rfl, by rfl, by decide +kernel, failed, ?_⟩
  rw [failed]
  rintro (⟨_, answered, _⟩ | ⟨_, answered, _⟩) <;> cases answered

end CodexRemote.Verified.Queue

import CodexRemote.Verified.Cancellation.Recovery
import CodexRemote.Verified.StopControl.Moves

/-! # Late starts and recoveries

A start acknowledged after its stop adds the control that the stop could not name yet.  A recovery
settles a control in one transaction with the cancellation of what the control still had queued.
-/

namespace CodexRemote.Verified.StopControl

open Foundations Store Store.Stop Store.Stop.Control
open Verified.Stop Verified.Queue
open Verified.Cancellation (cancelOwners_ok cancellationOwners_ok insertCancellation_ok
  deleteRequest_ok)

variable {σ : Type}

/-! ## Late starts -/

/-- A late start adds at most one control, and it is fresh. -/
def AtMostOneFresh (hooks : StopHooks σ) (db : StopDb σ) (rest : StopTables σ) : Prop :=
  rest.completions = db.rest.completions ∧ (rest.controls = db.rest.controls ∨
    ∃ row, FreshControl hooks row ∧ rest.controls.rows = db.rest.controls.rows ++ [row])

theorem sameOriginal_target {before after : StoredQueueJob}
    (same : sameOriginal before after = true) : before.targetThreadId = after.targetThreadId := by
  simp only [sameOriginal, Bool.and_eq_true, decide_eq_true_eq] at same
  obtain ⟨⟨⟨⟨⟨⟨⟨⟨⟨⟨⟨_, target⟩, _⟩, _⟩, _⟩, _⟩, _⟩, _⟩, _⟩, _⟩, _⟩, _⟩ := same
  exact target

variable {db next : StopDb σ} {hooks : StopHooks σ}

theorem bindScope_ok {before running : StoredQueueJob}
    {resident operation : String} {scope : Json} {jobs : List Json}
    (result : bindScope hooks db before running resident operation scope jobs = .ok next) :
    AtMostOneFresh hooks db next.rest := by
  simp only [bindScope] at result
  obtain ⟨fine, result⟩ := guard_ok.1 result
  obtain ⟨binding, _, result⟩ := bind_ok.1 result
  obtain ⟨owner, _, result⟩ := bind_ok.1 result
  obtain ⟨_, _, result⟩ := bind_ok.1 result
  obtain ⟨snapshot, _, result⟩ := bind_ok.1 result
  obtain ⟨turn, _, result⟩ := bind_ok.1 result
  obtain ⟨_, result⟩ := guard_ok.1 result
  obtain ⟨after, inserted, result⟩ := bind_ok.1 result
  obtain ⟨_, _, result⟩ := bind_ok.1 result
  obtain ⟨_, _, result⟩ := bind_ok.1 result
  obtain ⟨_, result⟩ := guard_ok.1 result
  cases result
  obtain ⟨_, ⟨_, _, same⟩, rows⟩ := insertControl_ok inserted
  simp only [Bool.or_eq_true, not_or, Bool.not_eq_true, Bool.not_eq_false'] at fine
  refine ⟨by rw [same], Or.inr ⟨_, ⟨rfl, rfl, rfl, ?_⟩, rows⟩⟩
  intro text named
  refine ⟨running, List.mem_singleton.1 named, ?_⟩
  exact (sameOriginal_target fine.1.1.1.1.2).symm

theorem bindLateStart_ok {before running : StoredQueueJob} {resident : String} {rest : StopTables σ}
    (result : bindLateStart hooks db before running resident = .ok rest) :
    AtMostOneFresh hooks db rest := by
  simp only [bindLateStart] at result
  obtain ⟨latest, _, result⟩ := bind_ok.1 result
  cases latest with
  | none =>
    cases result
    exact ⟨rfl, Or.inl rfl⟩
  | some scope =>
    obtain ⟨jobs, _, result⟩ := bind_ok.1 result
    obtain ⟨_, result⟩ | ⟨_, result⟩ := ite_ok.1 result
    · cases result
      exact ⟨rfl, Or.inl rfl⟩
    · obtain ⟨next, bound, same⟩ := map_ok.1 result
      rw [← same]
      exact bindScope_ok bound

/-- What follows the late start leaves the tables of the stops. -/
theorem claimedResult_others {jobId : String} {answer : Option StoredQueueJob}
    (result : claimedResult (lateStart hooks) db jobId true = .ok (answer, next)) :
    ∃ others, next = { db with rest := { db.rest with others := others } } := by
  simp only [claimedResult, Bool.not_true, Bool.false_eq_true, if_false] at result
  obtain ⟨job, _, result⟩ := bind_ok.1 result
  obtain ⟨bound, first, result⟩ := bind_ok.1 result
  obtain ⟨recorded, second, result⟩ := bind_ok.1 result
  cases result
  obtain ⟨_, first⟩ := hooks.bindRunning_keeps _ _ _ first
  obtain ⟨others, second⟩ := hooks.recordJobOrigin_keeps _ _ _ second
  exact ⟨others, by rw [second, first]⟩

/-- What an acknowledged start leaves: its own row moves, and at most one control is new. -/
structure Started (hooks : StopHooks σ) (claimed : StoredQueueJob) (turn : String)
    (db next : StopDb σ) : Prop where
  rows : RowsOnly db next
  moved : ∃ now, ClaimedUpdate db next claimed (fun row => row.run turn now)
  fresh : AtMostOneFresh hooks db next.rest

theorem started_spec {claimed : StoredQueueJob} {turn : String}
    {resident : Option String} {now : Rat} {answer : Option StoredQueueJob}
    (ran : markRunningWithResidentIfClaimed (lateStart hooks) claimed turn resident now db =
      (.ok answer, next)) : next = db ∨ Started hooks claimed turn db next := by
  obtain ⟨_, same⟩ | ⟨some_, moved, rows⟩ := markRunning_spec ran
  · exact Or.inl same
  · refine Or.inr ⟨rows, ⟨now, moved⟩, ?_⟩
    have result := commit_ok ran
    simp only [markRunningIn] at result
    obtain ⟨_, result⟩ | ⟨_, result⟩ := ite_ok.1 result
    · cases result
      cases some_
    · obtain ⟨matching, _, result⟩ := bind_ok.1 result
      obtain ⟨_, result⟩ | ⟨_, result⟩ := ite_ok.1 result
      · cases result
        cases some_
      · obtain ⟨⟨updated, middle⟩, update, result⟩ := bind_ok.1 result
        obtain ⟨rest, bound, result⟩ := bind_ok.1 result
        obtain ⟨unchanged, same⟩ | ⟨changed, frame, _⟩ := updateJob_ok update
        · rw [unchanged] at result
          cases result
          cases some_
        · rw [changed] at result
          obtain ⟨others, last⟩ := claimedResult_others result
          have kept : middle.rest = db.rest := by rw [frame]
          have bind : AtMostOneFresh hooks db rest := by
            simp only [changed, Bool.not_true, Bool.false_eq_true, if_false] at bound
            obtain ⟨running, _, bound⟩ := bind_ok.1 bound
            obtain ⟨_, bound⟩ := guard_ok.1 bound
            cases resident with
            | none =>
              cases bound
              exact ⟨by rw [kept], Or.inl (by rw [kept])⟩
            | some resident =>
              have fresh := bindLateStart_ok bound
              rw [AtMostOneFresh, kept] at fresh
              exact fresh
          rw [last]
          exact bind

/-! ## Custody -/

/-- The jobs named so far that are still queued are among the ones to cancel. -/
def Collected (db : StopDb σ) (custody : Custody) : Prop :=
  ∀ id ∈ custody.ids, (db.jobs.find id).isSome → ∃ job ∈ custody.jobs, job.jobId = id

theorem originalRouting_jobId {original : Json} {current routed : StoredQueueJob}
    (result : originalRouting original current = .ok routed) : routed.jobId = current.jobId := by
  simp only [originalRouting] at result
  obtain ⟨_, result⟩ | ⟨_, result⟩ := ite_ok.1 result
  · obtain ⟨generation, _, result⟩ := bind_ok.1 result
    cases result
    rfl
  · cases result
    rfl

/-- One job of the loop is held, and collected when it is still queued. -/
theorem custodyOf_ok {control : StopControl}
    {custody next : Custody} {text : String} (collected : Collected db custody)
    (result : custodyOf hooks db control custody text = .ok next) :
    Collected db next ∧ heldFor hooks db control.target text = true := by
  simp only [custodyOf] at result
  obtain ⟨original, read, result⟩ := bind_ok.1 result
  obtain ⟨id, named, result⟩ := bind_ok.1 result
  obtain ⟨_, result⟩ := guard_ok.1 result
  obtain ⟨snapshot, holds, result⟩ := bind_ok.1 result
  obtain ⟨own, result⟩ := guard_ok.1 result
  have held : heldFor hooks db control.target text = true := by
    cases parsed : hooks.parse text with
    | none => simp [readJson, parsed] at read
    | some value =>
      simp only [readJson, parsed, Except.ok.injEq] at read
      subst read
      cases found : db.holds.find id with
      | none => simp [holdSnapshot, found, required] at holds
      | some hold =>
        simp only [holdSnapshot, found, Option.map_some, required, Except.ok.injEq] at holds
        subst holds
        cases id_eq : jobIdOf value with
        | none => simp [id_eq, required] at named
        | some id' =>
          simp only [id_eq, required, Except.ok.injEq] at named
          subst named
          simp only [heldFor, parsed, Option.bind_some, id_eq, Option.any_some, found]
          simpa using own
  refine ⟨?_, held⟩
  obtain ⟨gone, result⟩ | ⟨_, result⟩ := ite_ok.1 result
  · cases result
    intro other listed there
    obtain old | new := List.mem_append.1 listed
    · exact collected other old there
    · rw [List.mem_singleton.1 new, ← Option.not_isNone, gone] at there
      cases there
  · obtain ⟨current, selected, result⟩ := bind_ok.1 result
    obtain ⟨routed, routing, result⟩ := bind_ok.1 result
    obtain ⟨_, result⟩ := guard_ok.1 result
    cases result
    intro other listed there
    obtain old | new := List.mem_append.1 listed
    · obtain ⟨job, inside, same⟩ := collected other old there
      exact ⟨job, List.mem_append_left _ inside, same⟩
    · refine ⟨routed, by simp, ?_⟩
      obtain ⟨_, _, _, _, same⟩ := selectJob_id selected
      rw [originalRouting_jobId routing, same, List.mem_singleton.1 new]

theorem custodyIn_ok {control : StopControl}
    {custody : Custody} (result : custodyIn hooks db control = .ok custody) :
    AllHeld hooks db control ∧ Collected db custody ∧
      ∀ row ∈ db.jobs.rows, row.targetThreadId = control.target → row.state ≠ .pending →
        row.jobId ∈ custody.ids := by
  simp only [custodyIn] at result
  obtain ⟨found, loop, result⟩ := bind_ok.1 result
  obtain ⟨covered, result⟩ := guard_ok.1 result
  cases result
  have each := foldlM_each (P := Collected db)
    (Q := fun text _ => heldFor hooks db control.target text = true) (by
      intro text _ before after collected step
      obtain ⟨kept, held⟩ := custodyOf_ok collected step
      exact ⟨kept, held, fun _ earlier => earlier⟩)
    (by intro id listed; cases listed) loop
  refine ⟨each.2.1, each.1, ?_⟩
  intro row member own active
  simp only [Table.contains, List.any_eq_true, not_exists, not_and, Bool.not_eq_true] at covered
  have inside := covered row member
  simpa [own, active] using inside

/-! ## Recoveries -/

/-- Cancellations take requests away; holds stay, and so do the tables of other modules. -/
structure Cancelled (db next : StopDb σ) : Prop where
  rest : next.rest = db.rest
  holds : HoldsKept db next
  jobs : ∀ row ∈ next.jobs.rows, row ∈ db.jobs.rows

theorem Cancelled.refl (db : StopDb σ) : Cancelled db db := ⟨rfl, .refl db, fun _ there => there⟩

theorem Cancelled.trans {a b c : StopDb σ} (left : Cancelled a b) (right : Cancelled b c) :
    Cancelled a c :=
  ⟨right.rest.trans left.rest, left.holds.trans right.holds,
    fun row there => left.jobs row (right.jobs row there)⟩

theorem Cancelled.of_delete {hooks : QueueHooks (StopTables σ)}
    {kind : RequestKind} {job : String} {removed : Nat}
    (result : deleteRequest hooks db kind job = .ok (removed, next)) : Cancelled db next := by
  cases kind with
  | ingress | intake =>
    simp only [deleteRequest, deleteIntakes] at result
    split at result
    · cases result
    · cases result
      exact ⟨rfl, .of_same rfl, fun _ there => there⟩
  | queue =>
    simp only [deleteRequest, deleteJob] at result
    split at result
    · cases result
    · cases result
      exact ⟨rfl, .of_same rfl, fun _ there => (List.mem_filter.1 there).1⟩

theorem Cancelled.of_owners {hooks : QueueHooks (StopTables σ)} {kept : IngressRow → Json}
    {job : String} {now : Rat} {owners : List String}
    (result : cancelOwners hooks kept job now db owners = .ok next) : Cancelled db next := by
  refine foldlM_ok Cancelled.refl Cancelled.trans ?_ result
  intro before key after step
  obtain ⟨⟨changed, journal⟩, update, step⟩ := bind_ok.1 step
  cases step
  obtain ⟨_, _, rfl⟩ := updateIngress_ok update
  exact ⟨rfl, .of_same rfl, fun _ there => there⟩

theorem Cancelled.of_request {hooks : QueueHooks (StopTables σ)} {target : String}
    {channel owner : Int} {now : Rat} {state next : RecoveryCancellation × StopDb σ}
    {request : RecoveryRequest}
    (result : cancelRequestIn hooks target channel owner now state request = .ok next) :
    Cancelled state.2 next.2 := by
  obtain ⟨before, db⟩ := state
  simp only [cancelRequestIn] at result
  obtain ⟨_, result⟩ := guard_ok.1 result
  obtain ⟨owners, _, result⟩ := bind_ok.1 result
  obtain ⟨⟨evidence, started⟩, _, result⟩ := bind_ok.1 result
  obtain ⟨recorded, insertion, result⟩ := bind_ok.1 result
  obtain ⟨⟨removed, cleared⟩, deletion, result⟩ := bind_ok.1 result
  obtain ⟨journal, owned, result⟩ := bind_ok.1 result
  cases result
  obtain ⟨frame, _⟩ := insertCancellation_ok insertion
  have held : Cancelled db recorded := by
    rw [frame]
    exact ⟨rfl, .hold _ _ _ _ _, fun _ there => there⟩
  exact held.trans ((Cancelled.of_delete deletion).trans (.of_owners owned))

/-- A recovery that succeeds: its observation is of the control's own turn, everything the control
names was held, and nothing of its target is running any more. -/
structure Recovered (hooks : StopHooks σ) (control : StopControl) (observed : Json) (answer : Nat)
    (db next : StopDb σ) : Prop where
  seen : verifyObservation hooks control observed = .ok ()
  completions : next.rest.completions = db.rest.completions
  holds : HoldsKept db next
  jobs : ∀ row ∈ next.jobs.rows, row ∈ db.jobs.rows
  idle : Idle next control.target
  moves : ControlsMove hooks db (.recovered control observed (.ok answer)) next

theorem recoverTerminal_spec {control : StopControl} {observed : Json}
    {reader : String} {generation : Int} {now : Timestamp} {answer : Nat}
    (ran : recoverTerminal hooks control observed reader generation now db = (.ok answer, next)) :
    Recovered hooks control observed answer db next := by
  have result := commit_ok ran
  simp only [recoverTerminalIn] at result
  obtain ⟨fine, result⟩ := guard_ok.1 result
  obtain ⟨_, seen, result⟩ := bind_ok.1 result
  obtain ⟨_, _, result⟩ := bind_ok.1 result
  obtain ⟨_, result⟩ := guard_ok.1 result
  obtain ⟨custody, guarded, result⟩ := bind_ok.1 result
  obtain ⟨⟨cancelled, cleared⟩, loop, result⟩ := bind_ok.1 result
  obtain ⟨others, _, result⟩ := bind_ok.1 result
  generalize update : updateControls _ _ _ _ = moved at result
  obtain ⟨changed, middle⟩ := moved
  obtain ⟨checked, result⟩ := guard_ok.1 result
  cases result
  obtain ⟨held, collected, covered⟩ := custodyIn_ok guarded
  have gone : Cancelled db cleared :=
    foldlM_ok (R := fun a b : RecoveryCancellation × StopDb σ => Cancelled a.2 b.2)
      (fun state => .refl state.2) (fun left right => left.trans right)
      (fun _ _ _ step => .of_request step) loop
  simp only [Bool.or_eq_true, not_or, Bool.not_eq_true, Bool.not_eq_false'] at checked fine
  obtain ⟨controls, only⟩ := updateControls_only update
  have retirement : ∀ job ∈ custody.jobs, middle.jobs.find job.jobId = none := by
    intro job member
    have all := List.all_eq_true.1 checked.1.1.2 job member
    simp only [retired, Bool.and_eq_true, Option.isNone_iff_eq_none] at all
    exact all.1
  have same : cleared.rest.controls = db.rest.controls := by rw [gone.rest]
  have moves : ControlsMove hooks db (.recovered control observed (.ok cancelled.jobs.length))
      middle := by
    refine updateControls_moves update same ?_
    intro row _ chosen
    refine .recover (of_decide_eq_true chosen) ?_ seen held
    simp only [recoverable, Bool.and_eq_true] at fine
    exact fine.1.1.1.1.1.1.1
  rw [only] at retirement moves ⊢
  refine ⟨seen, ?_, gone.holds, gone.jobs, ?_, moves⟩
  · show cleared.rest.completions = db.rest.completions
    rw [gone.rest]
  · -- a row that were active would be in custody, and custody is gone from the queue
    intro row there own
    by_contra active
    have named := covered row (gone.jobs row there) own active
    have queued : (db.jobs.find row.jobId).isSome := by
      rw [Table.find_of_mem (gone.jobs row there)]
      rfl
    obtain ⟨job, inside, same⟩ := collected row.jobId named queued
    have absent := retirement job inside
    rw [same] at absent
    exact Table.find_none_iff.1 absent row there rfl

end CodexRemote.Verified.StopControl

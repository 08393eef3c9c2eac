import CodexRemote.Verified.StopAcceptance.Served

/-! # What a stop leaves

A stop adds holds for the requests of its thread and nothing else to hold on to; the journal and the
revisions stay in order.
-/

namespace CodexRemote.Verified.StopAcceptance

open Foundations Store Store.Stop
open Verified.Stop (StopStages)

variable {σ : Type} {hooks : StopHooks σ} {call : StopCall} {db next : StopDb σ}

/-- A stop adds holds for requests of its thread, and no request. -/
structure Stopped (target : String) (db next : StopDb σ) : Prop where
  jobs : next.jobs = db.jobs
  intakes : next.intakes = db.intakes
  holds : ∀ id hold, next.holds.find id = some hold →
    db.holds.find id = some hold ∨ (hold.targetThreadId = target ∧ Request db id target)

/-- No request of another thread has the id of a request of this one. -/
def Alone (db : StopDb σ) (target : String) : Prop :=
  ∀ id, Request db id target → ∀ other, Request db id other → other = target

theorem Stopped.agreed {target : String} (stopped : Stopped target db next)
    (alone : Alone db target) (agreed : Agreed db) : Agreed next := by
  intro thread id request hold found
  rw [Request, stopped.jobs, stopped.intakes] at request
  obtain old | ⟨named, own⟩ := stopped.holds id hold found
  · exact agreed thread id request hold old
  · rw [named, alone id own thread request]

theorem holdEach_added {refused : StoreError} {target : String} {requests : List (String × Json)}
    {holds : List HoldSnapshot}
    (result : holdEach hooks refused target db requests = .ok (holds, next)) :
    HoldsAdded target (requests.map (·.1)) db next := by
  refine foldlM_keeps (P := fun state : List HoldSnapshot × StopDb σ =>
    HoldsAdded target (requests.map (·.1)) db state.2) ?_
    ((HoldsAdded.refl target db).weaken (List.nil_subset _)) result
  intro request member state after added step
  simp only [holdOne] at step
  obtain ⟨_, step⟩ := guard_ok.1 step
  cases step
  refine (added.trans (hold_added state.2 target request.1 _ _)).weaken ?_
  intro id listed
  obtain old | new := List.mem_append.1 listed
  · exact old
  · rw [List.mem_singleton.1 new]
    exact List.mem_map_of_mem member

/-- The holds of a stop are those of its jobs and of its intakes. -/
theorem stages_holds (stages : StopStages hooks call db next) : ∃ holds,
    stages.second = { db with holds := holds } ∧ ∀ id hold, holds.find id = some hold →
      db.holds.find id = some hold ∨
        (hold.targetThreadId = call.scope.target ∧ Request db id call.scope.target) := by
  obtain ⟨_, requests, _, named, queued⟩ := stages.queued
  obtain ⟨_, _, prepared⟩ := stages.prepared
  have first := holdEach_added queued
  have second := holdEach_added prepared
  have both := first.trans second
  obtain ⟨holds, same⟩ := both.only
  refine ⟨holds, same, fun id hold found => ?_⟩
  have found : stages.second.holds.find id = some hold := by rw [same]; exact found
  obtain old | ⟨listed, own⟩ := both.added id hold found
  · exact .inl old
  refine .inr ⟨own, ?_⟩
  obtain queued | waiting := List.mem_append.1 listed
  · rw [named] at queued
    obtain ⟨job, there, rfl⟩ := List.mem_map.1 queued
    obtain ⟨key, inside, selected⟩ := mapM_made stages.selects job there
    obtain ⟨_, _, _, _, same⟩ := Verified.Stop.selectJob_id selected
    obtain ⟨row, stored, id, own⟩ := Verified.Stop.mem_targetJobs inside
    exact .inl ⟨row, stored, id.trans same.symm, own⟩
  · obtain ⟨_, preparing⟩ := stages.prepares
    obtain ⟨pair, there, rfl⟩ := List.mem_map.1 waiting
    obtain ⟨intake, inside, rfl⟩ := List.mem_map.1 there
    obtain ⟨found, own⟩ := (intakeSnapshot_rows preparing).2 intake inside
    exact .inr ⟨intake, Table.mem_of_find found, rfl, own⟩

/-- What a stop leaves in order, and its receipt -/
structure StopKept (call : StopCall) (db next : StopDb σ) : Prop where
  effect : Stopped call.scope.target db next
  dispositions : next.archive.dispositions = db.archive.dispositions
  fences : next.rest.archiveFences = db.rest.archiveFences ∧ next.rest.others = db.rest.others
  journal : JournalKept db next
  recorded : ∃ record, StopRevision.Recorded call.scope.target call.operation db.rest.revisions record
    next.rest.revisions
  /-- The stop's own message is not accepted again. -/
  spent : ∀ record, call.expected = some record →
    ∃ row, next.ingress.find record.ingressId = some row ∧ Spent row

theorem spent_claimed {record : IngressRow} {scope : StopScope} {binding : Json}
    {receipt : StopReceipt} {now : Rat}
    (checked : validate next scope binding (some (acceptedRow receipt now record)) = .ok ()) :
    ∃ row, next.ingress.find record.ingressId = some row ∧ Spent row := by
  obtain ⟨found, _, state, _⟩ := expectedMatches_own (validate_matched checked)
  have other : "stop_accepted" ≠ "processing" := by decide
  refine ⟨_, found, ?_, ?_, fun still => other still.2⟩
  · rw [state]
    nofun
  · rw [state]
    nofun

theorem stages_kept (order : InOrder db) (stages : StopStages hooks call db next) :
    StopKept call db next := by
  obtain ⟨holds, second, added⟩ := stages_holds stages
  obtain ⟨_, asks⟩ := stages.asks
  have sound : ∀ row ∈ stages.originals, SoundAsk row := by
    intro row member
    obtain ⟨stored, chosen⟩ := List.mem_filter.1 ((unownedSnapshot_rows asks).2 row member)
    simp only [Bool.and_eq_true] at chosen
    exact order.asks row stored chosen.2 chosen.1.2
  obtain ⟨claim, claimed⟩ := claimRecord_journal stages.claim
  have write := (unownedHold_journal sound stages.unowned).trans claim
  obtain ⟨_, _, third⟩ := stages.between
  rw [second] at third
  obtain ⟨ingress, fifth⟩ := write.only
  have started : JournalKept db stages.third := .of_same (by rw [third])
  have kept := started.trans write.kept
  rw [third] at fifth
  obtain ⟨record, advanced⟩ := stages.advanced
  rw [fifth] at kept advanced
  simp only [advance, StopRevision.advanceIn] at advanced
  obtain ⟨⟨receipt, written⟩, recorded, advanced⟩ := bind_ok.1 advanced
  obtain ⟨_, recorded⟩ | ⟨_, recorded⟩ := ite_ok.1 recorded
  · cases recorded
  obtain ⟨_, final⟩ := Prod.mk.inj (Except.ok.inj advanced)
  have recorded := @StopRevision.record_recorded db.rest.revisions written call.scope.target
    call.operation _ receipt order.revisions recorded
  have spent : ∀ message, call.expected = some message →
      ∃ row, next.ingress.find message.ingressId = some row ∧ Spent row := by
    intro message named
    have checked := stages.checked
    rw [claimed, named] at checked
    exact spent_claimed checked
  rw [← final] at spent ⊢
  exact ⟨⟨rfl, rfl, added⟩, rfl, ⟨rfl, rfl⟩, kept.trans (.of_same rfl), ⟨receipt, recorded⟩, spent⟩

/-- A stop without a message of its own has an id that is no message's. -/
def FreshCall (call : StopCall) : Prop :=
  call.expected = none → ∀ event, call.id ≠ messageId event

theorem InOrder.stopped (order : InOrder db) (fresh : FreshCall call)
    (kept : StopKept call db next) : InOrder next where
  jobs := by
    rw [kept.effect.jobs]
    exact order.jobs
  asks := kept.journal.sound order.asks
  revisions := by
    obtain ⟨_, recorded⟩ := kept.recorded
    exact recorded.consistent
  accepted receipt there event named := by
    obtain ⟨record, recorded⟩ := kept.recorded
    rw [recorded.rows] at there
    obtain old | new := List.mem_append.1 there
    · obtain ⟨row, found, spent⟩ := order.accepted receipt old event named
      exact kept.journal.spent _ row found spent
    · rw [List.mem_singleton.1 new, recorded.operation, StopCall.operation,
        String.append_right_inj] at named
      cases expected : call.expected with
      | none =>
        rw [expected] at named
        exact absurd named (fresh expected event)
      | some message =>
        rw [expected] at named
        rw [← named]
        exact kept.spent message expected
  dispositions := kept.dispositions.trans order.dispositions

/-- A stop that is refused, or that finds nothing, leaves the store as it was. -/
theorem acceptScope_kept {allowUncertain : Bool} {answer : Except StoreError (Option StopReceipt)}
    (order : InOrder db) (ran : acceptScope hooks call allowUncertain db = (answer, next)) :
    next = db ∨ StopKept call db next := by
  simp only [acceptScope] at ran
  split at ran
  · cases ran
    exact .inl rfl
  split at ran
  · split at ran
    · cases ran
      exact .inl rfl
    · cases ran
      exact .inl rfl
  · cases ran
    exact .inl rfl
  cases answer with
  | error e => exact .inl (commitWhen_error ran)
  | ok accepted =>
    obtain ⟨written, body, rfl⟩ := commitWhen_ok ran
    cases accepted with
    | none => exact .inl rfl
    | some receipt =>
      obtain ⟨stages, _⟩ := Verified.Stop.acceptScopeIn_stages body
      exact .inr (stages_kept order stages)

theorem acceptRunning_kept {resident : String} {generation : Int}
    {answer : Except StoreError (Option StopControl)} (order : InOrder db)
    (ran : Control.acceptRunning hooks call resident generation db = (answer, next)) :
    next = db ∨ StopKept call db next := by
  simp only [Control.acceptRunning] at ran
  split at ran
  · cases ran
    exact .inl rfl
  split at ran
  · split at ran
    · cases ran
      exact .inl rfl
    · cases ran
      exact .inl rfl
  · cases ran
    exact .inl rfl
  cases answer with
  | error e => exact .inl (commitWhen_error ran)
  | ok accepted =>
    obtain ⟨written, body, rfl⟩ := commitWhen_ok ran
    cases accepted with
    | none => exact .inl rfl
    | some control =>
      obtain ⟨stages, _⟩ := Verified.Stop.acceptRunningIn_stages body
      exact .inr (stages_kept order stages)

end CodexRemote.Verified.StopAcceptance

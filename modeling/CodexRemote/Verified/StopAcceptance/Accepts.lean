import Mathlib.Data.List.Dedup
import CodexRemote.Verified.StopAcceptance.Reads

/-! # When a stop is accepted

In a store that is in order, a stop of one's own work is accepted exactly when no request of its
thread is held for another thread.
-/

namespace CodexRemote.Verified.StopAcceptance

open Foundations Store Store.Stop
open Verified.Stop (HoldsKept)

variable {σ : Type} {hooks : StopHooks σ} {db : StopDb σ} {call : StopCall}

/-! ## The stop's own message -/

/-- What the checks of a stop say of its own message -/
structure OwnMessage (db : StopDb σ) (record : IngressRow) : Prop where
  found : db.ingress.find record.ingressId = some record
  named : ∃ event, record.ingressId = messageId event
  state : record.state = .executing
  unowned : record.ownerId = none

variable {binding : Json} {scope : StopScope} {receipt : StopReceipt} {last : StopDb σ}

theorem expectedMatches_own {record : IngressRow}
    (matched : expectedMatches db scope binding record = true) : OwnMessage db record := by
  simp only [expectedMatches] at matched
  split at matched
  · cases matched
  · simp only [Bool.and_eq_true, decide_eq_true_eq] at matched
    obtain ⟨⟨⟨⟨⟨⟨⟨⟨⟨⟨⟨⟨found, _⟩, named⟩, _⟩, _⟩, _⟩, state⟩, unowned⟩, _⟩, _⟩, _⟩, _⟩, _⟩ := matched
    exact ⟨found, ⟨_, named⟩, state, unowned⟩

/-- Once the stop has claimed its message, the message still matches. -/
theorem expectedMatches_claimed {record : IngressRow} {now : Rat} {next : StopDb σ}
    (matched : expectedMatches db scope binding record = true)
    (found : next.ingress.find record.ingressId = some (acceptedRow receipt now record)) :
    expectedMatches next scope binding (acceptedRow receipt now record) = true := by
  simp only [expectedMatches] at matched
  have same : (acceptedRow receipt now record).eventId = record.eventId := rfl
  rw [expectedMatches, same]
  cases event : record.eventId.filter (0 < ·) with
  | none =>
    rw [event] at matched
    cases matched
  | some event =>
    rw [event] at matched
    simp only [Bool.and_eq_true, decide_eq_true_eq] at matched ⊢
    obtain ⟨⟨⟨⟨⟨⟨⟨⟨⟨⟨⟨⟨_, kind⟩, named⟩, source⟩, channel⟩, owner⟩, state⟩, unowned⟩, ownerKind⟩,
      target⟩, version⟩, bound⟩, plan⟩ := matched
    exact ⟨⟨⟨⟨⟨⟨⟨⟨⟨⟨⟨⟨found, kind⟩, named⟩, source⟩, channel⟩, owner⟩, state⟩, unowned⟩, ownerKind⟩,
      target⟩, version⟩, bound⟩, plan⟩

theorem validate_matched {record : IngressRow}
    (validated : validate db scope binding (some record) = .ok ()) :
    expectedMatches db scope binding record = true := by
  simp only [validate] at validated
  split at validated
  · cases validated
  · obtain ⟨_, validated⟩ := guard_ok.1 validated
    obtain ⟨valid, _, validated⟩ := bind_ok.1 validated
    obtain ⟨matched, _⟩ := guard_ok.1 validated
    have both : valid = true ∧ expectedMatches db scope binding record = true := by
      simpa using matched
    exact both.2

theorem validate_claimed {expected : Option IngressRow} {now : Rat} {next : StopDb σ}
    (validated : validate db scope binding expected = .ok ()) (archive : next.archive = db.archive)
    (found : ∀ record, expected = some record →
      next.ingress.find record.ingressId = some (acceptedRow receipt now record)) :
    validate next scope binding (expected.map (acceptedRow receipt now)) = .ok () := by
  have route : ∀ explicit, validRoute next scope binding explicit =
      validRoute db scope binding explicit := by
    intro explicit
    simp only [validRoute, mirroredThreadId, archive]
  have matches_ : ∀ record, expected = some record →
      expectedMatches next scope binding (acceptedRow receipt now record) = true := by
    intro record same
    subst same
    exact expectedMatches_claimed (validate_matched validated) (found record rfl)
  simp only [validate] at validated ⊢
  split at validated
  · cases validated
  · next reference referred =>
    obtain ⟨addressed, validated⟩ := guard_ok.1 validated
    obtain ⟨valid, routed, validated⟩ := bind_ok.1 validated
    obtain ⟨checked, _⟩ := guard_ok.1 validated
    rw [if_neg addressed]
    refine bind_ok.2 ⟨valid, (route _).trans routed, if_neg ?_⟩
    cases expected with
    | none => simpa using checked
    | some record =>
      rw [Option.map_some, Option.any_some, matches_ record rfl]
      simp only [Bool.or_eq_true, not_or] at checked
      simpa using checked.1

/-! ## The revision -/

theorem operation_shown (call : StopCall) : MutationAttempts.blank call.operation = false := by
  cases shown : MutationAttempts.blank call.operation with
  | false => rfl
  | true =>
    have white := Discord.white_of_trim (List.isEmpty_iff.1 shown) 's' (by
      rw [StopCall.operation, String.toList_append]
      exact List.mem_append_left _ (by decide))
    exact absurd white (by decide)

theorem advance_accepts {scope : StopScope} {binding : Json} {receipt : StopReceipt}
    {operation : String} (consistent : StopRevision.Consistent db.rest.revisions)
    (shown : MutationAttempts.blank operation = false)
    (room : ∀ now, db.rest.revisions.clock = some now → now < (i64Max : Int))
    (unused : db.rest.revisions.receipts.find operation = none) :
    ∃ record revisions, advance scope binding receipt operation db =
        .ok (record, { db with rest := { db.rest with revisions := revisions } }) ∧
      StopRevision.Recorded scope.target operation db.rest.revisions record revisions := by
  obtain ⟨record, revisions, ran, recorded⟩ :=
    @StopRevision.record_accepts _ scope.target operation consistent _ room unused
  refine ⟨record, revisions, ?_, recorded⟩
  simp only [advance, StopRevision.advanceIn]
  rw [shown]
  exact bind_ok.2 ⟨_, ran, rfl⟩

theorem operation_unused (order : InOrder db) (stop : OwnStop call db) :
    db.rest.revisions.receipts.find call.operation = none := by
  cases named : call.expected with
  | none => exact (stop.fresh named).2
  | some record =>
    have validated := stop.validated
    rw [named] at validated
    obtain ⟨found, ⟨event, id⟩, state, _⟩ := expectedMatches_own (validate_matched validated)
    have phase : record.phase = "processing" := by
      have valid := stop.valid
      simp only [StopCall.valid, named, Option.all_some, Bool.and_eq_true,
        decide_eq_true_eq] at valid
      exact valid.2
    refine Table.find_none_iff.2 fun receipt there same => ?_
    have operation : call.operation = "stop:" ++ messageId event := by
      rw [StopCall.operation, named, ← id]
      rfl
    obtain ⟨row, here, spent⟩ := order.accepted receipt there event (same.trans operation)
    rw [← id, found] at here
    cases here
    exact spent.processing ⟨state, phase⟩

/-! ## The transaction -/

theorem holdMapped_accepts {α : Type} {refused : StoreError} {target : String} (items : List α)
    (request : α → String × Json)
    (here : HeldHere target db (items.map fun item => (request item).1)) :
    ∃ holds next, holdEach hooks refused target db (items.map request) = .ok (holds, next) ∧
      HoldsAdded target (items.map fun item => (request item).1) db next ∧
      List.Forall₂ (fun item snapshot => holdSnapshot next (request item).1 = some snapshot)
        items holds := by
  have ids : (items.map request).map (·.1) = items.map fun item => (request item).1 :=
    List.map_map ..
  obtain ⟨holds, next, ran, added, seen⟩ :=
    @holdEach_accepts _ hooks db target refused (items.map request) (ids ▸ here)
  exact ⟨holds, next, ran, ids ▸ added, List.forall₂_map_left_iff.1 seen⟩

theorem mem_receiptIds {queued : List String} {originals : List PromptIntake} {id : String} :
    id ∈ receiptIds queued originals ↔ id ∈ queued ∨ ∃ intake ∈ originals, intake.jobId = id := by
  rw [receiptIds, List.mem_dedup, (List.mergeSort_perm _ _).mem_iff, List.mem_append, List.mem_map]

/-- The receipt of what was read names all requests of the thread. -/
theorem Reads.names {jobs : List StoredQueueJob} {preparing : List PromptIntake}
    {originals : List IngressRow} (reads : Reads call db jobs preparing originals)
    (stop : OwnStop call db) (operation : String) :
    Names db call.scope.target ⟨receiptIds (targetJobs db call.scope.target) preparing,
      (originals.map (heldAs operation)).map (·.ingressId)⟩ := by
  have few := stop.few
  constructor
  · intro id
    rw [mem_receiptIds, mem_targetJobs (by omega), Request, ← List.mem_map, reads.intakeIds,
      mem_targetIds (by omega)]
  · intro key
    have ids : (originals.map (heldAs operation)).map (·.ingressId) =
        originals.map (·.ingressId) := by
      rw [List.map_map]
      exact List.map_congr_left fun row _ => (heldAs_same operation row).ingressId
    rw [ids, reads.askIds, mem_ids (by omega)]

/-- The holds of the jobs are there at the end. -/
theorem verifyJobHolds_accepts {jobs : List StoredQueueJob}
    {holds : List HoldSnapshot} (selected : ∀ job ∈ jobs, selectJob last job.jobId = .ok job)
    (seen : List.Forall₂ (fun job snapshot => holdSnapshot last job.jobId = some snapshot) jobs
      holds) : verifyJobHolds last jobs holds = .ok () := by
  refine forM_total fun pair member => ?_
  obtain ⟨job, hold⟩ := pair
  have read := selected job (List.of_mem_zip member).1
  have found := (List.forall₂_iff_zip.1 seen).2 member
  refine bind_ok.2 ⟨job, read, if_neg ?_⟩
  simp [found]

theorem intakeVerify_accepts {preparing : List PromptIntake}
    {holds : List HoldSnapshot} (ids : preparing.map (·.jobId) = Intake.targetIds last scope.target)
    (rows : ∀ intake ∈ preparing, last.intakes.find intake.jobId = some intake)
    (seen : List.Forall₂ (fun intake snapshot => holdSnapshot last intake.jobId = some snapshot)
      preparing holds) : Intake.verify last scope preparing holds = .ok () := by
  rw [Intake.verify, if_neg]
  · refine forM_total fun pair member => ?_
    obtain ⟨intake, hold⟩ := pair
    have read := rows intake (List.of_mem_zip member).1
    have found := (List.forall₂_iff_zip.1 seen).2 member
    exact if_neg (by simp [read, found])
  · simp [ids, seen.length_eq]

/-- The journal at the end of a stop -/
theorem unowned_kept {operation : String} {keys : List String} {expected : Option IngressRow}
    {now : Rat} (rows : last.ingress.rows =
      db.ingress.rows.map (acceptedIn expected receipt now ∘ heldIn operation keys))
    (keyed : ∀ row ∈ db.ingress.rows, row.ingressId ∈ keys → row.unowned = true)
    (target : String) : Unowned.ids last target = Unowned.ids db target := by
  rw [Unowned.ids, Unowned.ids, unownedAsks, unownedAsks, Table.select, Table.select, rows,
    List.filter_map, List.map_map]
  congr 1
  have ids : (fun row : IngressRow => row.ingressId) ∘
      (acceptedIn expected receipt now ∘ heldIn operation keys) = fun row => row.ingressId := by
    funext row
    exact (acceptedIn_same expected receipt now _).ingressId.trans (heldIn_same operation keys row).ingressId
  rw [ids]
  congr 1
  refine List.filter_congr fun row member => ?_
  have first := heldIn_same operation keys row
  have second := acceptedIn_same expected receipt now (heldIn operation keys row)
  have unowned : (acceptedIn expected receipt now (heldIn operation keys row)).unowned =
      row.unowned := by
    have accepted : ∀ other : IngressRow, (acceptedIn expected receipt now other).unowned =
        other.unowned := fun other => by rw [acceptedIn]; split <;> rfl
    rw [accepted]
    by_cases listed : row.ingressId ∈ keys
    · rw [first.unowned (keyed row member listed), keyed row member listed]
    · rw [heldIn, if_neg listed]
  simp only [Function.comp_apply, unowned, second.target, first.target, second.asks, first.asks]

/-! ## The stages of a stop -/

section Stages

variable {jobs : List StoredQueueJob} {preparing : List PromptIntake} {originals : List IngressRow}

/-- The jobs of the thread are held, and then its intakes. -/
theorem Reads.holds (reads : Reads call db jobs preparing originals) (stop : OwnStop call db)
    (agree : HoldsAgree db call.scope.target) :
    ∃ holds intakeHolds first last,
      holdJobs hooks call.scope call.expected db jobs = .ok (holds, { db with holds := first }) ∧
      Intake.hold hooks call.scope (call.expected.map (·.ingressId)) { db with holds := first }
        preparing = .ok (intakeHolds, { db with holds := last }) ∧
      List.Forall₂ (fun job snapshot => holdSnapshot { db with holds := last } job.jobId =
        some snapshot) jobs holds ∧
      List.Forall₂ (fun intake snapshot => holdSnapshot { db with holds := last } intake.jobId =
        some snapshot) preparing intakeHolds := by
  have few := stop.few
  have jobsHere : HeldHere call.scope.target db (jobs.map (·.jobId)) := by
    intro id listed
    rw [reads.jobIds, mem_targetJobs (by omega)] at listed
    exact agree id (.inl listed)
  have intakesHere : HeldHere call.scope.target db (preparing.map (·.jobId)) := by
    intro id listed
    rw [reads.intakeIds, mem_targetIds (by omega)] at listed
    exact agree id (.inr listed)
  obtain ⟨holds, first, queued, jobHolds, jobSeen⟩ := @holdMapped_accepts _ hooks db _ stopRefused _
    jobs (fun job => (job.jobId, .object
      [("ingress_id", .ofText (call.expected.map (·.ingressId))), ("kind", .text "stop"),
        ("request", job.value)])) jobsHere
  obtain ⟨intakeHolds, second, prepared, intakeAdded, intakeSeen⟩ := @holdMapped_accepts _ hooks first _
    stopRefused _ preparing (fun intake => (intake.jobId, Intake.evidence
      (call.expected.map (·.ingressId)) intake)) (intakesHere.later jobHolds)
  -- the holds of the intakes leave those of the jobs
  have jobSeen := jobSeen.imp fun _ _ seen => holdSnapshot_kept intakeAdded.kept seen
  obtain ⟨firstHolds, rfl⟩ := jobHolds.only
  obtain ⟨secondHolds, rfl⟩ := intakeAdded.only
  exact ⟨holds, intakeHolds, firstHolds, secondHolds, queued, prepared, jobSeen, intakeSeen⟩

/-- What the stop reads of the journal is there, and it is no request of its own. -/
structure Asking (db : StopDb σ) (expected : Option IngressRow) (originals : List IngressRow) :
    Prop where
  stored : ∀ row ∈ originals, row ∈ db.ingress.rows
  unowned : ∀ row ∈ originals, row.unowned = true
  holdable : ∀ row ∈ originals, Holdable row
  distinct : (originals.map (·.ingressId)).Nodup
  own : ∀ record, expected = some record →
    db.ingress.find record.ingressId = some record ∧ Executing record
  apart : ∀ record, expected = some record → record.ingressId ∉ originals.map (·.ingressId)

theorem Reads.asking (reads : Reads call db jobs preparing originals) (order : InOrder db)
    (stop : OwnStop call db) : Asking db call.expected originals := by
  have few := stop.few
  have asked : ∀ row ∈ originals,
      row ∈ db.ingress.rows ∧ row.asks = true ∧ row.unowned = true := by
    intro row member
    obtain ⟨stored, chosen⟩ := List.mem_filter.1 (reads.askRows row member)
    simp only [Bool.and_eq_true] at chosen
    exact ⟨stored, chosen.2, chosen.1.2⟩
  have own : ∀ record, call.expected = some record → OwnMessage db record ∧ Executing record ∧
      record.asks = false := by
    intro record named
    have validated := stop.validated
    rw [named] at validated
    have message := expectedMatches_own (validate_matched validated)
    have valid := stop.valid
    simp only [StopCall.valid, named, Option.all_some, Bool.and_eq_true, decide_eq_true_eq] at valid
    exact ⟨message, ⟨message.state, valid.2, message.unowned⟩,
      (Verified.Ingress.validate_own validated).asks⟩
  refine ⟨fun row member => (asked row member).1, fun row member => (asked row member).2.2,
    fun row member => ?_, ?_, fun record named => ?_, fun record named listed => ?_⟩
  · obtain ⟨stored, asks, unowned⟩ := asked row member
    exact (order.asks row stored asks unowned).holdable
  · rw [reads.askIds, Unowned.ids]
    refine ((firstIds_perm (by rw [List.length_map]; omega)).nodup_iff).2 ?_
    exact (List.filter_sublist.map _).nodup db.ingress.unique
  · exact ⟨(own record named).1.found, (own record named).2.1⟩
  · obtain ⟨message, _, silent⟩ := own record named
    obtain ⟨row, member, same⟩ := List.mem_map.1 listed
    obtain ⟨stored, asks, _⟩ := asked row member
    cases Table.eq_of_key stored (Table.mem_of_find message.found) same
    rw [asks] at silent
    cases silent

/-- The journal as a stop leaves it -/
def stoppedIn (call : StopCall) (originals : List IngressRow) (receipt : StopReceipt) :
    IngressRow → IngressRow :=
  acceptedIn call.expected receipt call.now ∘
    heldIn call.operation (originals.map (·.ingressId))

theorem stoppedIn_id (call : StopCall) (originals : List IngressRow) (receipt : StopReceipt)
    (row : IngressRow) : (stoppedIn call originals receipt row).ingressId = row.ingressId :=
  (acceptedIn_same _ _ _ _).ingressId.trans (heldIn_same _ _ row).ingressId

/-- The requests without a job are held, and then the stop answers its own message. -/
theorem Asking.writes (asking : Asking db call.expected originals) (unfenced : Unfenced hooks db)
    (live : ∀ key, db.archive.frozen .ingressJournal key = false) (receipt : StopReceipt) :
    ∃ second third : Table IngressRow.ingressId,
      Unowned.hold hooks call.operation db originals =
        .ok (originals.map (heldAs call.operation), { db with ingress := second }) ∧
      claimRecord hooks call.expected receipt call.now { db with ingress := second } =
        .ok (call.expected.map (acceptedRow receipt call.now), { db with ingress := third }) ∧
      third.rows = db.ingress.rows.map (stoppedIn call originals receipt) := by
  obtain ⟨second, held, asksJournal⟩ := @unownedHold_accepts _ hooks db call.operation originals
    unfenced (fun row member => Table.find_of_mem (asking.stored row member)) asking.distinct
    asking.holdable live
  have ownFound : ∀ record, call.expected = some record →
      second.ingress.find record.ingressId = some record := by
    intro record named
    rw [asksJournal.find fun row => (heldIn_same call.operation _ row).ingressId,
      (asking.own record named).1, Option.map_some, heldIn, if_neg (asking.apart record named)]
  obtain ⟨askRows, rfl, askMapped⟩ := asksJournal
  obtain ⟨third, claimed, ingress, rfl, mapped⟩ := @claimRecord_accepts _ hooks
    { db with ingress := askRows } call.expected unfenced ownFound
    (fun record named => (asking.own record named).2) live receipt call.now
  refine ⟨askRows, ingress, held, claimed, mapped.trans ?_⟩
  show List.map _ askRows.rows = _
  rw [askMapped, List.map_map, stoppedIn]

/-- What the checks at the end of a stop find in the journal -/
structure JournalChecked (call : StopCall) (originals : List IngressRow) (receipt : StopReceipt)
    (last : StopDb σ) : Prop where
  claimed : ∀ record, call.expected = some record →
    last.ingress.find record.ingressId = some (acceptedRow receipt call.now record)
  held : Unowned.verify last call.scope.target (originals.map (heldAs call.operation)) = .ok ()

theorem Asking.checked (asking : Asking db call.expected originals)
    (ids : originals.map (·.ingressId) = Unowned.ids db call.scope.target)
    (rows : last.ingress.rows =
      db.ingress.rows.map (stoppedIn call originals receipt)) :
    JournalChecked call originals receipt last := by
  have found : ∀ key, last.ingress.find key =
      (db.ingress.find key).map (stoppedIn call originals receipt) :=
    Table.find_map rows (stoppedIn_id call originals receipt)
  constructor
  · intro record named
    rw [found, (asking.own record named).1, Option.map_some, stoppedIn, Function.comp_apply, heldIn,
      if_neg (asking.apart record named), acceptedIn, named, if_pos (by rw [Option.map_some])]
  · have kept : Unowned.ids last call.scope.target = Unowned.ids db call.scope.target := by
      refine unowned_kept rows ?_ call.scope.target
      intro row stored listed
      obtain ⟨original, there, same⟩ := List.mem_map.1 listed
      cases Table.eq_of_key (asking.stored original there) stored same
      exact asking.unowned _ there
    have named : (originals.map (heldAs call.operation)).map (·.ingressId) =
        originals.map (·.ingressId) := by
      rw [List.map_map]
      exact List.map_congr_left fun row _ => (heldAs_same call.operation row).ingressId
    rw [Unowned.verify, if_neg fun changed => changed (by rw [kept, named, ids])]
    refine forM_total fun row member => if_neg fun changed => changed ?_
    obtain ⟨original, there, rfl⟩ := List.mem_map.1 member
    have id := (heldAs_same call.operation original).ingressId
    rw [found, id, Table.find_of_mem (asking.stored original there), Option.map_some, stoppedIn,
      Function.comp_apply, heldIn, if_pos (List.mem_map_of_mem there), acceptedIn, if_neg]
    -- the stop's own message is none of them
    intro same
    obtain ⟨record, named, same⟩ := Option.map_eq_some_iff.1 same
    exact asking.apart record named (same ▸ id ▸ List.mem_map_of_mem there)

end Stages

/-! ## Acceptance -/

/-- A stop of one's own work goes through when every hold of the thread's requests names it. -/
theorem acceptScopeIn_accepts (order : InOrder db) (unfenced : Unfenced hooks db)
    (stop : OwnStop call db) (agree : HoldsAgree db call.scope.target) :
    ∃ receipt next, acceptScopeIn hooks call true db = .ok (some receipt, next) ∧
      Names db call.scope.target receipt := by
  obtain ⟨jobs, preparing, originals, reads⟩ := stop_reads order stop
  have asking := reads.asking order stop
  obtain ⟨holds, intakeHolds, first, held, queued, prepared, jobSeen, intakeSeen⟩ :=
    reads.holds stop agree
  let receipt : StopReceipt := ⟨receiptIds (targetJobs db call.scope.target) preparing,
    (originals.map (heldAs call.operation)).map (·.ingressId)⟩
  have later : Asking { db with holds := held } call.expected originals := { asking with }
  have unfenced : Unfenced hooks { db with holds := held } := unfenced
  obtain ⟨asks, ingress, heldAsks, claimed, rows⟩ :=
    later.writes unfenced (order.live .ingressJournal) receipt
  have unused := operation_unused order stop
  obtain ⟨record, revisions, advanced, recorded⟩ := @advance_accepts _
    { db with holds := held, ingress := ingress } call.scope call.binding receipt call.operation
    order.revisions (operation_shown call) stop.room unused
  let last : StopDb σ := { db with
    holds := held, ingress := ingress, rest := { db.rest with revisions := revisions } }
  have checked : JournalChecked call originals receipt last := asking.checked reads.askIds rows
  refine ⟨receipt, last, ?_, reads.names stop call.operation⟩
  simp only [acceptScopeIn]
  refine bind_ok.2 ⟨_, stop.validated, bind_ok.2 ⟨_, stop.selectedBefore,
    bind_ok.2 ⟨_, reads.intakes, bind_ok.2 ⟨_, reads.asks, ?_⟩⟩⟩⟩
  rw [if_neg (by have := reads.few; omega)]
  refine bind_ok.2 ⟨_, reads.selects, ?_⟩
  rw [if_neg, if_neg (by simp)]
  · refine bind_ok.2 ⟨_, queued, bind_ok.2 ⟨_, stop.validated, bind_ok.2 ⟨_, prepared,
      bind_ok.2 ⟨_, heldAsks, bind_ok.2 ⟨_, claimed, bind_ok.2 ⟨_, advanced, bind_ok.2 ⟨(), ?_,
      bind_ok.2 ⟨_, stop.selectedAfter, ?_⟩⟩⟩⟩⟩⟩⟩⟩
    · exact validate_claimed stop.validated rfl checked.claimed
    · rw [if_neg fun changed => changed rfl]
      exact bind_ok.2 ⟨_, verifyJobHolds_accepts reads.selected jobSeen,
        bind_ok.2 ⟨_, intakeVerify_accepts reads.intakeIds reads.intakeRows intakeSeen,
        bind_ok.2 ⟨(), checked.held, bind_ok.2 ⟨(), recorded.verified, rfl⟩⟩⟩⟩
  · rw [Bool.not_eq_true, List.any_eq_false]
    intro job member
    obtain ⟨channel, owner⟩ := reads.own job member
    simp [channel, owner]

theorem stop_accepts (order : InOrder db) (unfenced : Unfenced hooks db) (stop : OwnStop call db)
    (agree : HoldsAgree db call.scope.target) : Accepted hooks call db := by
  obtain ⟨receipt, next, ran, names⟩ := acceptScopeIn_accepts order unfenced stop agree
  refine ⟨receipt, next, ?_, names⟩
  simp only [acceptUnresolved, acceptScope, stop.valid, stop.file, Bool.not_true, Bool.false_eq_true,
    if_false, commitWhen, ran, Option.isSome_some, if_true]

/-- A stop that is accepted found no hold of its thread's requests that names another thread. -/
theorem accepted_agrees (accepted : Accepted hooks call db) : HoldsAgree db call.scope.target := by
  obtain ⟨receipt, next, ran, _⟩ := accepted
  obtain ⟨held, _⟩ := Verified.Stop.acceptScope_ok ran
  intro id request hold found
  have later := held.writes.holds id hold found
  obtain ⟨row, there, rfl, own⟩ | ⟨intake, there, rfl, own⟩ := request
  · obtain ⟨other, here, named⟩ := held.queued row there own
    rw [later] at here
    cases here
    exact named
  · obtain ⟨other, here, named⟩ := held.preparing intake there own
    rw [later] at here
    cases here
    exact named

theorem accepts_iff (order : InOrder db) (unfenced : Unfenced hooks db) (stop : OwnStop call db) :
    Accepted hooks call db ↔ HoldsAgree db call.scope.target :=
  ⟨accepted_agrees, stop_accepts order unfenced stop⟩

end CodexRemote.Verified.StopAcceptance

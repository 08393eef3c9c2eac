import CodexRemote.Verified.ForkHandoff.Finalize
import CodexRemote.Verified.Ingress.Admission
import CodexRemote.Verified.StopAcceptance.Journal

/-! # What the operations add

An operation that stops nothing leaves the holds and the revisions alone, and the requests that it
adds or moves are named.
-/

namespace CodexRemote.Verified.StopAcceptance

open Foundations Store Store.Stop

variable {σ : Type}

/-! ## Operations that stop nothing -/

def Decoded (row : QueueRow) : Prop := ∃ job, row.decode = .ok job

theorem Decoded.of_same {before after : QueueRow} (same : after.baselineTurnIds = before.baselineTurnIds)
    (decoded : Decoded before) : Decoded after := by
  obtain ⟨_, decoded⟩ := decoded
  obtain ⟨baseline, read, _⟩ := map_ok.1 decoded
  exact ⟨_, map_ok.2 ⟨baseline, same ▸ read, rfl⟩⟩

/-- The tables of other modules: the revisions of the stops stay, and there is still no fence. -/
structure Untouched (fenced : List String → σ → Bool) (before after : StopTables σ) : Prop where
  revisions : after.revisions = before.revisions
  open_ : fenced before.archiveFences before.others = false →
    fenced after.archiveFences after.others = false

theorem Untouched.refl (fenced : List String → σ → Bool) (tables : StopTables σ) :
    Untouched fenced tables tables := ⟨rfl, id⟩

theorem Untouched.trans {fenced : List String → σ → Bool} {a b c : StopTables σ}
    (left : Untouched fenced a b) (right : Untouched fenced b c) : Untouched fenced a c :=
  ⟨right.revisions.trans left.revisions, fun open_ => right.open_ (left.open_ open_)⟩

/-- What every operation but a stop leaves alone -/
structure Quiet (fenced : List String → σ → Bool) (db next : StopDb σ) : Prop where
  decoded : (∀ row ∈ db.jobs.rows, Decoded row) → ∀ row ∈ next.jobs.rows, Decoded row
  journal : JournalKept db next
  dispositions : next.archive.dispositions = db.archive.dispositions
  rest : Untouched fenced db.rest next.rest
  holds : next.holds = db.holds

variable {new : String → String → Prop}

section

variable {fenced : List String → σ → Bool}

theorem Quiet.refl (db : StopDb σ) : Quiet fenced db db :=
  ⟨id, .refl db, rfl, .refl fenced db.rest, rfl⟩

theorem Quiet.trans {a b c : StopDb σ} (left : Quiet fenced a b) (right : Quiet fenced b c) :
    Quiet fenced a c where
  decoded all := right.decoded (left.decoded all)
  journal := left.journal.trans right.journal
  dispositions := right.dispositions.trans left.dispositions
  rest := left.rest.trans right.rest
  holds := right.holds.trans left.holds

theorem Quiet.of_write {db next : StopDb σ} (write : JournalWrite db next) :
    Quiet fenced db next := by
  obtain ⟨⟨ingress, rfl⟩, kept⟩ := write
  exact ⟨id, kept, rfl, .refl fenced db.rest, rfl⟩

theorem InOrder.quiet {db next : StopDb σ} (quiet : Quiet fenced db next) (order : InOrder db) :
    InOrder next where
  jobs := quiet.decoded order.jobs
  asks := quiet.journal.sound order.asks
  revisions := quiet.rest.revisions ▸ order.revisions
  accepted receipt there event named := by
    rw [quiet.rest.revisions] at there
    obtain ⟨row, found, spent⟩ := order.accepted receipt there event named
    exact quiet.journal.spent _ row found spent
  dispositions := quiet.dispositions.trans order.dispositions

/-- A quiet operation after which these requests may be new -/
structure Adds (fenced : List String → σ → Bool) (new : String → String → Prop) (db next : StopDb σ) :
    Prop where
  quiet : Quiet fenced db next
  requests : ∀ id target, Request next id target → Request db id target ∨ new id target

theorem Adds.of_same {new : String → String → Prop} {db next : StopDb σ} (quiet : Quiet fenced db next)
    (jobs : next.jobs = db.jobs) (intakes : next.intakes = db.intakes) : Adds fenced new db next where
  quiet := quiet
  requests id target request := .inl (by rwa [Request, jobs, intakes] at request)

theorem Adds.trans {a b c : StopDb σ} (left : Adds fenced new a b)
    (right : Adds fenced new b c) : Adds fenced new a c where
  quiet := left.quiet.trans right.quiet
  requests id target request := by
    obtain old | added := right.requests id target request
    · exact left.requests id target old
    · exact .inr added

/-- No request is held for another thread than its own. -/
def Agreed (db : StopDb σ) : Prop := ∀ target, HoldsAgree db target

theorem Adds.agreed {db next : StopDb σ} (adds : Adds fenced new db next)
    (fits : ∀ id target, new id target → ∀ hold, db.holds.find id = some hold →
      hold.targetThreadId = target) (agreed : Agreed db) : Agreed next := by
  intro target id request hold found
  rw [adds.quiet.holds] at found
  obtain old | added := adds.requests id target request
  · exact agreed target id old hold found
  · exact fits id target added hold found

end

/-! ## The queue and the intakes -/

/-- The modules of a served store -/
structure ServedHooks (σ : Type) where
  ingress : IngressHooks σ
  forks : Fork.ForkHooks (StopTables σ)
  /-- a fence of an archive or of a cleanup is there -/
  fenced : List String → σ → Bool
  /-- Only such a fence refuses an update of the journal. -/
  fence_needed : ∀ db before after, fenced db.rest.archiveFences db.rest.others = false →
    ingress.queue.fenceIngress db before after = none
  beforeEnqueue_keeps : ∀ db target rest, ingress.queue.beforeEnqueue db target = .ok rest →
    Untouched fenced db.rest rest
  promoteNewReply_keeps : ∀ db row job digest rest,
    ingress.queue.promoteNewReply db row job digest = .ok rest → Untouched fenced db.rest rest
  recordNew_keeps : ∀ db row rest, ingress.recordNew db row = .ok rest →
    Untouched fenced db.rest rest
  moveSessionDetail_keeps : ∀ db source target rest,
    forks.moveSessionDetail db source target = .ok rest → Untouched fenced db.rest rest

section Queue

variable {hooks : ServedHooks σ} {db next : StopDb σ}

/-- The request of a job or of an intake -/
def Only (id target : String) : String → String → Prop := fun other thread =>
  other = id ∧ thread = target

theorem insertJob_adds {row : QueueRow} {created : Bool} (decoded : Decoded row)
    (result : insertJob hooks.ingress.queue db row = .ok (created, next)) :
    Adds hooks.fenced (Only row.jobId row.targetThreadId) db next := by
  simp only [insertJob] at result
  obtain ⟨_, result⟩ | ⟨_, result⟩ := ite_ok.1 result
  · cases result
  split at result
  · cases result
  obtain ⟨_, result⟩ | ⟨_, result⟩ := ite_ok.1 result
  · cases result
    exact .of_same (.refl db) rfl rfl
  · cases result
    have inserted : ∀ other ∈ (db.jobs.insertOrIgnore row).rows, other ∈ db.jobs.rows ∨
        other = row := by
      intro other member
      rw [Table.insertOrIgnore] at member
      split at member
      · exact .inl member
      · exact (List.mem_append.1 member).imp id List.mem_singleton.1
    refine ⟨⟨?_, .of_same rfl, rfl, .refl _ _, rfl⟩, ?_⟩
    · intro all other member
      obtain old | rfl := inserted other member
      · exact all other old
      · exact decoded
    · rintro id target (⟨other, member, named, own⟩ | request)
      · obtain old | rfl := inserted other member
        · exact .inl (.inl ⟨other, old, named, own⟩)
        · exact .inr ⟨named.symm, own.symm⟩
      · exact .inl (.inr request)

theorem enqueueIn_adds {newJob : NewQueueJob} {answer : QueueEnqueueResult}
    (result : enqueueIn hooks.ingress.queue newJob db = .ok (answer, next)) :
    Adds hooks.fenced (Only newJob.jobId newJob.targetThreadId) db next := by
  simp only [enqueueIn] at result
  obtain ⟨rest, before, result⟩ := bind_ok.1 result
  obtain ⟨_, _, result⟩ := bind_ok.1 result
  obtain ⟨_, result⟩ | ⟨_, result⟩ := ite_ok.1 result
  · cases result
  obtain ⟨_, _, result⟩ := bind_ok.1 result
  obtain ⟨_, _, result⟩ := bind_ok.1 result
  obtain ⟨⟨created, after⟩, inserted, result⟩ := bind_ok.1 result
  obtain ⟨_, _, result⟩ := bind_ok.1 result
  cases result
  have untouched := hooks.beforeEnqueue_keeps db newJob.targetThreadId rest before
  have first : Quiet hooks.fenced db { db with rest := rest } := ⟨id, .of_same rfl, rfl, untouched, rfl⟩
  have row : Decoded newJob.row := ⟨_, rfl⟩
  exact (Adds.of_same first rfl rfl).trans (insertJob_adds row inserted)

theorem recordEvidenceOf_rest {job : NewQueueJob} {key : String}
    (result : recordEvidenceOf hooks.ingress.queue job db key = .ok next) :
    Untouched hooks.fenced db.rest next.rest := by
  simp only [recordEvidenceOf] at result
  split at result
  · cases result
  obtain ⟨_, result⟩ | ⟨_, result⟩ := ite_ok.1 result
  · cases result
    exact .refl hooks.fenced db.rest
  obtain ⟨_, result⟩ | ⟨_, result⟩ := ite_ok.1 result
  · cases result
  obtain ⟨rest, promoted, result⟩ := bind_ok.1 result
  obtain ⟨_, result⟩ | ⟨_, result⟩ := ite_ok.1 result
  · cases result
  obtain ⟨⟨changed, written⟩, update, result⟩ := bind_ok.1 result
  cases result
  obtain ⟨_, _, rfl⟩ := Queue.updateIngress_ok update
  exact hooks.promoteNewReply_keeps _ _ _ _ _ promoted

theorem recordNewEvidence_adds {job : NewQueueJob}
    (result : recordNewEvidence hooks.ingress.queue db job = .ok next) : Adds hooks.fenced new db next := by
  have untouched := foldlM_ok (R := fun a b : StopDb σ => Untouched hooks.fenced a.rest b.rest)
    (fun state => .refl hooks.fenced state.rest) .trans
    (fun state key after step => recordEvidenceOf_rest step) result
  have journal := recordNewEvidence_journal result
  obtain ⟨rest, ingress, rfl⟩ := Queue.recordNewEvidence_ok result
  exact .of_same ⟨id, journal, rfl, untouched, rfl⟩ rfl rfl

theorem deleteIntakes_adds {condition : PromptIntake → Bool}
    {removed : Nat} (result : deleteIntakes hooks.ingress.queue db condition = .ok (removed, next)) :
    Adds hooks.fenced new db next := by
  obtain ⟨_, rfl⟩ := PromptIntake.deleteIntakes_ok result
  refine ⟨⟨id, .of_same rfl, rfl, .refl _ _, rfl⟩, ?_⟩
  rintro id target (request | ⟨intake, member, own⟩)
  · exact .inl (.inl request)
  · exact .inl (.inr ⟨intake, (List.mem_filter.1 member).1, own⟩)

/-- The promoted request has no hold. -/
theorem promoteIn_adds {claim : PromptIntakeClaim} {newJob : NewQueueJob} {now : Timestamp}
    {answer : QueueEnqueueResult}
    (result : promoteIn hooks.ingress.queue claim newJob now db = .ok (answer, next)) :
    Adds hooks.fenced (Only newJob.jobId newJob.targetThreadId) db next ∧
      db.holds.find newJob.jobId = none := by
  simp only [promoteIn] at result
  split at result
  · cases result
  obtain ⟨_, unheld, result⟩ := bind_ok.1 result
  split at result
  · cases result
  · next current found =>
    obtain ⟨_, _, result⟩ := bind_ok.1 result
    obtain ⟨_, _, result⟩ := bind_ok.1 result
    obtain ⟨_, _, result⟩ := bind_ok.1 result
    obtain ⟨_, identity, result⟩ := bind_ok.1 result
    obtain ⟨_, _, result⟩ := bind_ok.1 result
    obtain ⟨_, _, result⟩ := bind_ok.1 result
    obtain ⟨⟨enqueued, queued⟩, insertion, result⟩ := bind_ok.1 result
    obtain ⟨_, _, result⟩ := bind_ok.1 result
    obtain ⟨recorded, evidence, result⟩ := bind_ok.1 result
    obtain ⟨⟨removed, cleared⟩, deletion, result⟩ := bind_ok.1 result
    obtain ⟨_, result⟩ | ⟨_, result⟩ := ite_ok.1 result
    · cases result
    cases result
    refine ⟨((enqueueIn_adds insertion).trans (recordNewEvidence_adds evidence)).trans
      (deleteIntakes_adds deletion), ?_⟩
    rw [(PromptIntake.validateQueueIdentity_ok identity).1, Table.find_key found]
    simp only [requireUnheld, holdReason] at unheld
    split at unheld
    · cases unheld
    · next free => exact Option.map_eq_none_iff.1 free

theorem insertIntake_adds {intake : PromptIntake}
    (result : insertIntake hooks.ingress.queue db intake = .ok next) :
    Adds hooks.fenced (Only intake.jobId intake.targetThreadId) db next := by
  simp only [insertIntake] at result
  obtain ⟨_, result⟩ | ⟨_, result⟩ := ite_ok.1 result
  · cases result
  split at result
  · cases result
  obtain ⟨_, result⟩ | ⟨_, result⟩ := ite_ok.1 result
  · cases result
    exact .of_same (.refl db) rfl rfl
  obtain ⟨_, result⟩ := guard_ok.1 result
  cases result
  refine ⟨⟨id, .of_same rfl, rfl, .refl _ _, rfl⟩, ?_⟩
  rintro id target (request | ⟨other, member, named, own⟩)
  · exact .inl (.inl request)
  · have member : other ∈ (db.intakes.insertOrIgnore intake).rows := member
    rw [Table.insertOrIgnore] at member
    split at member
    · exact .inl (.inr ⟨other, member, named, own⟩)
    · obtain old | new := List.mem_append.1 member
      · exact .inl (.inr ⟨other, old, named, own⟩)
      · cases List.mem_singleton.1 new
        exact .inr ⟨named.symm, own.symm⟩

theorem linkPromptOwner_adds {intake : PromptIntake}
    (result : linkPromptOwner hooks.ingress.queue db intake = .ok next) : Adds hooks.fenced new db next := by
  have write := linkPromptOwner_journal result
  have only := Queue.linkPromptOwner_ok result
  exact .of_same (.of_write write) only.jobs only.intakes

/-- A new intake waits for the thread that completed handoffs lead to. -/
def IntakeAt (db : StopDb σ) (new : NewPromptIntake) : String → String → Prop := fun id target =>
  id = new.jobId ∧ canonicalCompletedTarget db new.targetThreadId = .ok target

theorem admitIntake_adds {new : NewPromptIntake} {answer : PromptIntakeAdmission}
    (result : Store.admitIn hooks.ingress.queue new db = .ok (answer, next)) :
    Adds hooks.fenced (IntakeAt db new) db next := by
  simp only [Store.admitIn] at result
  obtain ⟨_, _, result⟩ := bind_ok.1 result
  obtain ⟨found, _, result⟩ := bind_ok.1 result
  cases found with
  | some existing =>
    obtain ⟨linked, link, result⟩ := bind_ok.1 result
    cases result
    exact linkPromptOwner_adds link
  | none =>
    obtain ⟨target, canonical, result⟩ := bind_ok.1 result
    obtain ⟨inserted, insertion, result⟩ := bind_ok.1 result
    obtain ⟨_, _, result⟩ := bind_ok.1 result
    obtain ⟨linked, link, result⟩ := bind_ok.1 result
    cases result
    have adds := insertIntake_adds insertion
    have first : Adds hooks.fenced (IntakeAt db new) db inserted := by
      refine ⟨adds.quiet, fun id thread request => ?_⟩
      obtain old | ⟨rfl, rfl⟩ := adds.requests id thread request
      · exact .inl old
      · exact .inr ⟨rfl, canonical⟩
    exact first.trans (linkPromptOwner_adds link)

/-! ## Admissions -/

theorem admitRequest_adds {request : NewIngress}
    {answer : IngressAdmission} (open_ : db.archive.dispositions = [])
    (result : Ingress.admitIn hooks.ingress.admission request db = .ok (answer, next)) :
    Adds hooks.fenced new db next := by
  simp only [Ingress.admitIn] at result
  obtain ⟨_, valid, result⟩ := bind_ok.1 result
  obtain ⟨found, looked, result⟩ := bind_ok.1 result
  cases found with
  | some row =>
    obtain ⟨_, result⟩ := guard_ok.1 result
    cases result
    exact .of_same (.refl db) rfl rfl
  | none =>
    obtain ⟨_, result⟩ | ⟨_, result⟩ := ite_ok.1 result
    · cases result
      exact .of_same (.refl db) rfl rfl
    obtain ⟨⟨prepared, arm⟩, preparation, result⟩ := bind_ok.1 result
    obtain ⟨consumed, armed, result⟩ := bind_ok.1 result
    obtain ⟨⟨row, inserted⟩, insertion, result⟩ := bind_ok.1 result
    obtain ⟨rest, recorded, result⟩ := bind_ok.1 result
    obtain ⟨retired, retirement, result⟩ := bind_ok.1 result
    obtain ⟨_, _, result⟩ := bind_ok.1 result
    cases result
    obtain ⟨original, captured, preparation⟩ := bind_ok.1 preparation
    have same := Verified.Ingress.captureOriginsIn_same captured
    have prepared_same := Verified.Ingress.prepareIn_same preparation
    have event : (prepared.row consumed.runtime).asks = true →
        ∃ e, (prepared.row consumed.runtime).eventId = some e ∧ 0 < e := by
      intro asks
      show ∃ e, prepared.eventId = some e ∧ 0 < e
      rw [prepared_same.eventId, same.eventId]
      refine validate_asks valid fun action => ?_
      have kind : (prepared.row consumed.runtime).kind = .action :=
        prepared_same.kind.trans (same.kind.trans action)
      simp [IngressRow.asks, kind] at asks
    have first : JournalWrite db consumed := by
      cases arm with
      | none =>
        cases armed
        exact .refl db
      | some key => exact consumeArm_journal armed
    obtain ⟨⟨archive, ingress, rfl, dispositions⟩, journal⟩ :=
      insertRow_journal event rfl rfl rfl insertion
    have untouched := hooks.recordNew_keeps
      { consumed with archive := archive, ingress := ingress } row rest recorded
    have second : Quiet hooks.fenced consumed { consumed with archive := archive, ingress := ingress, rest := rest } :=
      ⟨id, journal.trans (.of_same rfl), dispositions, untouched, rfl⟩
    have quiet := (Quiet.of_write first : Quiet hooks.fenced db consumed).trans second
    have last := retireBlocked_open (quiet.dispositions.trans open_) retirement
    obtain ⟨⟨_, rfl⟩, _⟩ := first
    subst last
    exact .of_same quiet rfl rfl

end Queue

/-! ## Handoffs -/

section Forks

open Store.Fork Verified.Queue

variable {hooks : ServedHooks σ} {new : String → String → Prop} {db next : StopDb σ}

/-- Jobs that change their thread are named. -/
theorem updateJobs_adds {condition : QueueRow → Bool} {assign : QueueRow → QueueRow}
    {keeps : ∀ r, (assign r).jobId = r.jobId} {changed : Nat}
    (result : updateJobs hooks.ingress.queue db condition assign keeps = .ok (changed, next))
    (baseline : ∀ row, (assign row).baselineTurnIds = row.baselineTurnIds)
    (moves : ∀ row ∈ db.jobs.rows, condition row = true →
      (assign row).targetThreadId = row.targetThreadId ∨
        new row.jobId (assign row).targetThreadId) : Adds hooks.fenced new db next := by
  obtain ⟨_, rfl, _⟩ := updateJobs_ok result
  refine ⟨⟨?_, .of_same rfl, rfl, .refl _ _, rfl⟩, ?_⟩
  · intro all row member
    obtain ⟨before, there, rfl⟩ := List.mem_map.1 member
    split
    · exact (all before there).of_same (baseline before)
    · exact all before there
  · rintro id target (⟨row, member, named, own⟩ | request)
    · obtain ⟨before, there, rfl⟩ := List.mem_map.1 member
      by_cases chosen : (condition before && !db.archive.frozen .turnQueue before.jobId) = true
      · rw [if_pos chosen] at named own
        rw [keeps] at named
        obtain same | added := moves before there (Bool.and_eq_true_iff.1 chosen).1
        · exact .inl (.inl ⟨before, there, named, same.symm.trans own⟩)
        · exact .inr (named ▸ own ▸ added)
      · rw [if_neg chosen] at named own
        exact .inl (.inl ⟨before, there, named, own⟩)
    · exact .inl (.inr request)

theorem updateIntakes_adds {condition : PromptIntake → Bool} {assign : PromptIntake → PromptIntake}
    {keeps : ∀ r, (assign r).jobId = r.jobId} {changed : Nat}
    (result : updateIntakes hooks.ingress.queue db condition assign keeps = .ok (changed, next))
    (moves : ∀ intake ∈ db.intakes.rows, condition intake = true →
      new intake.jobId (assign intake).targetThreadId) : Adds hooks.fenced new db next := by
  obtain ⟨_, rfl⟩ := PromptIntake.updateIntakes_ok result
  refine ⟨⟨id, .of_same rfl, rfl, .refl _ _, rfl⟩, ?_⟩
  rintro id target (request | ⟨intake, member, named, own⟩)
  · exact .inl (.inl request)
  · obtain ⟨before, there, rfl⟩ := List.mem_map.1 member
    by_cases chosen : (condition before && !db.archive.frozen .promptIntakes before.jobId) = true
    · rw [if_pos chosen] at named own
      rw [keeps] at named
      exact .inr (named ▸ own ▸ moves before there (Bool.and_eq_true_iff.1 chosen).1)
    · rw [if_neg chosen] at named own
      exact .inl (.inr ⟨before, there, named, own⟩)

theorem insertNoticeOnce_adds {notice : OutboxNotice}
    (result : insertNoticeOnce hooks.ingress.queue db notice = .ok next) :
    Adds hooks.fenced new db next ∧ next.intakes = db.intakes := by
  rw [insertNoticeOnce] at result
  split at result
  · cases result
  split at result
  · cases result
    exact ⟨.of_same (.refl db) rfl rfl, rfl⟩
  rw [insertNotice] at result
  split at result
  · cases result
  split at result
  · cases result
    exact ⟨.of_same (.refl db) rfl rfl, rfl⟩
  split at result
  · cases result
  · cases result
    exact ⟨.of_same ⟨id, .of_same rfl, rfl, .refl _ _, rfl⟩ rfl rfl, rfl⟩

theorem quarantineObserved_adds {handoff : ForkHandoff} {now : Rat}
    {quarantined : Option StoredQueueJob}
    (result : quarantineObserved hooks.ingress.queue handoff now db = .ok (quarantined, next)) :
    Adds hooks.fenced new db next ∧ next.intakes = db.intakes := by
  rw [quarantineObserved] at result
  split at result
  · cases result
    exact ⟨.of_same (.refl db) rfl rfl, rfl⟩
  obtain ⟨before, _, result⟩ := bind_ok.1 result
  obtain ⟨⟨changed, middle⟩, updated, result⟩ := bind_ok.1 result
  obtain ⟨_, failed⟩ | ⟨_, result⟩ := ite_ok.1 result
  · cases failed
  obtain ⟨after, noticed, result⟩ := bind_ok.1 result
  obtain ⟨_, _, result⟩ := bind_ok.1 result
  cases result
  have held : Adds hooks.fenced new db middle :=
    updateJobs_adds (ofStore_ok.1 updated) (fun _ => rfl) (fun _ _ _ => .inl rfl)
  obtain ⟨noticed, intakes⟩ := insertNoticeOnce_adds (ofStore_ok.1 noticed)
  obtain ⟨_, rfl, _⟩ := updateJobs_ok (ofStore_ok.1 updated)
  exact ⟨held.trans noticed, intakes⟩

theorem moveMapping_adds {handoff : ForkHandoff} {target : String}
    (result : moveMapping hooks.forks handoff target db = .ok next) : Adds hooks.fenced new db next := by
  rw [moveMapping] at result
  obtain ⟨_, result⟩ | ⟨_, result⟩ := ite_ok.1 result
  · cases result
    exact .of_same (.refl db) rfl rfl
  obtain ⟨rest, moved, result⟩ := bind_ok.1 result
  simp only [replaceMapping] at result
  split at result
  · cases result
  obtain ⟨_, failed⟩ | ⟨_, result⟩ := ite_ok.1 result
  · cases failed
  cases result
  have untouched := hooks.moveSessionDetail_keeps _ _ _ _ (ofStore_ok.1 moved)
  exact .of_same ⟨id, .of_same rfl, rfl, untouched, rfl⟩ rfl rfl

/-- The intent of a handoff, and its target, are no requests. -/
theorem handoffs_adds {handoffs : Table ForkHandoff.handoffId} :
    Adds hooks.fenced new db { db with handoffs := handoffs } :=
  .of_same ⟨id, .of_same rfl, rfl, .refl _ _, rfl⟩ rfl rfl

theorem beginIn_adds {request : NewForkHandoff} {now : Rat} {answer : BegunForkHandoff}
    (result : beginIn request now db = .ok (answer, next)) : Adds hooks.fenced new db next := by
  obtain ⟨_, _, result⟩ := bind_ok.1 result
  obtain ⟨existing, _, result⟩ := bind_ok.1 result
  cases existing with
  | some existing =>
    cases result
    exact handoffs_adds
  | none =>
    obtain ⟨_, _, result⟩ := bind_ok.1 result
    obtain ⟨_, _, result⟩ := bind_ok.1 result
    obtain ⟨⟨channel, thread⟩, _, result⟩ := bind_ok.1 result
    cases result
    exact handoffs_adds

theorem stageTargetIn_adds {handoffId target : String} {answer : ForkHandoff}
    (result : stageTargetIn handoffId target db = .ok (answer, next)) :
    Adds hooks.fenced new db next := by
  obtain ⟨handoff, _, result⟩ := bind_ok.1 result
  split at result
  · obtain ⟨_, result⟩ := guard_ok.1 result
    cases result
    exact handoffs_adds
  · obtain ⟨_, result⟩ := guard_ok.1 result
    obtain ⟨staged, _, result⟩ := bind_ok.1 result
    cases result
    exact handoffs_adds

/-- The requests that a handoff moves, and where they go: the pending jobs of its source, and the
intakes. -/
def MovedBy (handoffId : String) (db : StopDb σ) : String → String → Prop := fun id target =>
  ∃ handoff, db.handoffs.find handoffId = some handoff ∧ handoff.targetThreadId = none ∧
    handoff.observedTargetThreadId = some target ∧
    ((∃ row ∈ db.jobs.rows, row.jobId = id ∧ pendingOn handoff.sourceThreadId row = true) ∨
      ∃ intake ∈ db.intakes.rows, intake.jobId = id ∧
        intake.targetThreadId = handoff.sourceThreadId)

theorem finalizeIn_adds {handoffId : String} {generation : Int} {now : Rat}
    {answer : CompletedForkHandoff}
    (result : finalizeIn hooks.ingress.queue hooks.forks handoffId generation now db =
      .ok (answer, next)) : Adds hooks.fenced (MovedBy handoffId db) db next := by
  obtain ⟨handoff, found, result⟩ := bind_ok.1 result
  have found := ForkHandoff.byIdOr_ok found
  obtain ⟨_, result⟩ | ⟨unfinished, result⟩ := ite_ok.1 result
  · split at result
    · cases result
      exact .of_same (.refl db) rfl rfl
    · obtain ⟨_, _, result⟩ := bind_ok.1 result
      cases result
      exact .of_same (.refl db) rfl rfl
  split at result
  · cases result
  · next target observed =>
    obtain ⟨_, _, result⟩ := bind_ok.1 result
    obtain ⟨_, _, result⟩ := bind_ok.1 result
    obtain ⟨_, failed⟩ | ⟨_, result⟩ := ite_ok.1 result
    · cases failed
    obtain ⟨_, _, result⟩ := bind_ok.1 result
    obtain ⟨cleared, clear, result⟩ := bind_ok.1 result
    obtain ⟨⟨quarantined, held⟩, quarantine, result⟩ := bind_ok.1 result
    obtain ⟨moved, retarget, result⟩ := bind_ok.1 result
    obtain ⟨intakes, retargetIntake, result⟩ := bind_ok.1 result
    obtain ⟨mapped, mapping, result⟩ := bind_ok.1 result
    obtain ⟨marked, mark, result⟩ := bind_ok.1 result
    obtain ⟨completed, _, result⟩ := bind_ok.1 result
    obtain ⟨_, _, result⟩ := bind_ok.1 result
    cases result
    have unfinished := Option.not_isSome_iff_eq_none.1 unfinished
    have clear := ForkHandoff.clearUnresolvedNotices_frame (ofStore_ok.1 clear)
    have first : Adds hooks.fenced (MovedBy handoffId db) db cleared := by
      rw [clear]
      exact .of_same ⟨id, .of_same rfl, rfl, .refl _ _, rfl⟩ rfl rfl
    obtain ⟨second, heldIntakes⟩ := quarantineObserved_adds quarantine
    obtain ⟨_, _, _, heldRows⟩ := ForkHandoff.quarantineObserved_ok quarantine
    obtain ⟨⟨_, retargeted⟩, jobs, rfl⟩ := map_ok.1 (ofStore_ok.1 retarget)
    have third : Adds hooks.fenced (MovedBy handoffId db) held retargeted := by
      refine updateJobs_adds jobs (fun _ => rfl) fun row member pending => .inr ?_
      refine ⟨handoff, found, unfinished, observed, .inl ⟨row, ?_, rfl, pending⟩⟩
      -- a pending job is not the one that was quarantined
      rw [heldRows, clear] at member
      obtain ⟨before, there, rfl⟩ := List.mem_map.1 member
      split at pending
      · exact absurd (Bool.and_eq_true_iff.1 pending).2 Bool.false_ne_true
      · next other =>
        rw [if_neg other]
        exact there
    obtain ⟨_, frame, _⟩ := updateJobs_ok jobs
    obtain ⟨⟨_, waiting⟩, updated, rfl⟩ := map_ok.1 (ofStore_ok.1 retargetIntake)
    have fourth : Adds hooks.fenced (MovedBy handoffId db) retargeted waiting := by
      refine updateIntakes_adds updated fun intake member own => ?_
      rw [frame] at member
      have member : intake ∈ held.intakes.rows := member
      rw [heldIntakes, clear] at member
      exact ⟨handoff, found, unfinished, observed,
        .inr ⟨intake, member, rfl, beq_iff_eq.1 own⟩⟩
    have fifth : Adds hooks.fenced (MovedBy handoffId db) waiting mapped := moveMapping_adds mapping
    obtain ⟨_, frame, _⟩ := ForkHandoff.markCompleted_ok mark
    have sixth : Adds hooks.fenced (MovedBy handoffId db) mapped next := by
      rw [frame]
      exact .of_same ⟨id, .of_same rfl, rfl, .refl _ _, rfl⟩ rfl rfl
    exact first.trans (second.trans (third.trans (fourth.trans (fifth.trans sixth))))

end Forks

end CodexRemote.Verified.StopAcceptance

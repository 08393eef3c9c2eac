import CodexRemote.Foundations.Runs
import CodexRemote.Store.PromptIntake

/-! # What inserts and deletes do to the requests

The requests of the store are the rows of the queue and of the intakes; the writes of the
ingress journal leave them alone.
-/

namespace CodexRemote.Verified.Queue

open Foundations Store

variable {ρ : Type}

/-! ## Writes that leave the requests alone -/

/-- Only the journal and the tables of other modules differ. -/
def JournalOnly (db next : QueueDb ρ) : Prop :=
  ∃ rest ingress, next = { db with rest := rest, ingress := ingress }

theorem JournalOnly.refl (db : QueueDb ρ) : JournalOnly db db := ⟨db.rest, db.ingress, rfl⟩

theorem JournalOnly.trans {a b c : QueueDb ρ} (left : JournalOnly a b) (right : JournalOnly b c) :
    JournalOnly a c := by
  obtain ⟨_, _, rfl⟩ := left
  obtain ⟨rest, ingress, rfl⟩ := right
  exact ⟨rest, ingress, rfl⟩

variable {db next : QueueDb ρ} {hooks : QueueHooks ρ}

theorem JournalOnly.jobs (only : JournalOnly db next) :
    next.jobs = db.jobs := by
  obtain ⟨_, _, rfl⟩ := only
  rfl

theorem JournalOnly.intakes (only : JournalOnly db next) :
    next.intakes = db.intakes := by
  obtain ⟨_, _, rfl⟩ := only
  rfl

theorem JournalOnly.cancellations (only : JournalOnly db next) :
    next.cancellations = db.cancellations := by
  obtain ⟨_, _, rfl⟩ := only
  rfl

theorem updateIngress_ok {condition : IngressRow → Bool} {assign : IngressRow → IngressRow}
    {keeps : ∀ r, (assign r).ingressId = r.ingressId} {changed : Nat}
    (result : updateIngress hooks db condition assign keeps = .ok (changed, next)) :
    ∃ selected : IngressRow → Bool, (∀ r, selected r = true → condition r = true) ∧
      next = { db with ingress := db.ingress.update selected assign keeps } := by
  unfold updateIngress at result
  simp only at result
  split at result
  · cases result
  · simp only [Except.ok.injEq, Prod.mk.injEq] at result
    refine ⟨fun r => condition r && !ingressFrozen db (assign r), ?_, result.2.symm⟩
    intro r selected
    exact (Bool.and_eq_true _ _ ▸ selected).1

theorem updateIngress_only {condition : IngressRow → Bool} {assign : IngressRow → IngressRow}
    {keeps : ∀ r, (assign r).ingressId = r.ingressId} {changed : Nat}
    (result : updateIngress hooks db condition assign keeps = .ok (changed, next)) :
    JournalOnly db next := by
  obtain ⟨_, _, rfl⟩ := updateIngress_ok result
  exact ⟨db.rest, _, rfl⟩

theorem recordEvidenceOf_ok {job : NewQueueJob}
    {key : String} (result : recordEvidenceOf hooks job db key = .ok next) : JournalOnly db next := by
  unfold recordEvidenceOf at result
  split at result
  · cases result
  · rcases ite_ok.1 result with ⟨_, result⟩ | ⟨_, result⟩
    · cases result
      exact .refl db
    · rcases ite_ok.1 result with ⟨_, result⟩ | ⟨_, result⟩
      · cases result
      · obtain ⟨rest, _, result⟩ := bind_ok.1 result
        rcases ite_ok.1 result with ⟨_, result⟩ | ⟨_, result⟩
        · cases result
        · obtain ⟨⟨changed, after⟩, update, result⟩ := bind_ok.1 result
          cases result
          exact .trans ⟨rest, db.ingress, rfl⟩ (updateIngress_only update)

theorem recordNewEvidence_ok {job : NewQueueJob}
    (result : recordNewEvidence hooks db job = .ok next) : JournalOnly db next := by
  unfold recordNewEvidence at result
  exact foldlM_ok JournalOnly.refl JournalOnly.trans (fun _ _ _ => recordEvidenceOf_ok) result

theorem linkPromptOwner_ok {intake : PromptIntake}
    (result : linkPromptOwner hooks db intake = .ok next) : JournalOnly db next := by
  unfold linkPromptOwner at result
  split at result
  · cases result
    exact .refl db
  · obtain ⟨origin, _, result⟩ := bind_ok.1 result
    cases origin with
    | none =>
      cases result
      exact .refl db
    | some ingress =>
      unfold linkPromptOwnerByKey at result
      obtain ⟨_, _, result⟩ := bind_ok.1 result
      obtain ⟨prompt, _, result⟩ := bind_ok.1 result
      rcases ite_ok.1 result with ⟨_, result⟩ | ⟨_, result⟩
      · cases result
      · obtain ⟨⟨changed, after⟩, update, result⟩ := bind_ok.1 result
        cases result
        exact updateIngress_only update

/-! ## Requests -/

theorem sameRequest_iff {jobId otherId : String} {messageId otherMessage : Option Int} :
    sameRequest jobId messageId otherId otherMessage = true ↔
      otherId = jobId ∨ (messageId.isSome ∧ otherMessage = messageId) := by
  simp [sameRequest]

theorem cancelled_iff {jobId : String} {messageId : Option Int} :
    cancelled db jobId messageId = true ↔ ∃ c ∈ db.cancellations.rows,
      c.jobId = jobId ∨ (messageId.isSome ∧ c.discordMessageId = messageId) := by
  simp [cancelled, Table.contains]

/-- An insert is refused, or adds the one row that no other request of the queue names. -/
theorem insertJob_ok {row : QueueRow} {created : Bool}
    (result : insertJob hooks db row = .ok (created, next)) :
    cancelled db row.jobId row.discordMessageId = false ∧
      ((created = false ∧ next = db) ∨ (created = true ∧
        (∀ r ∈ db.jobs.rows, sameRequest row.jobId row.discordMessageId r.jobId r.discordMessageId = false) ∧
        next.jobs.rows = db.jobs.rows ++ [row] ∧ next.intakes = db.intakes ∧
        next.cancellations = db.cancellations)) := by
  unfold insertJob at result
  rcases ite_ok.1 result with ⟨_, result⟩ | ⟨free, result⟩
  · cases result
  · refine ⟨by simpa using free, ?_⟩
    split at result
    · cases result
    · rcases ite_ok.1 result with ⟨_, result⟩ | ⟨absent, result⟩
      · cases result
        exact Or.inl ⟨rfl, rfl⟩
      · cases result
        simp only [Bool.or_eq_true, not_or, Bool.not_eq_true, Table.contains, List.any_eq_false] at absent
        have different : ∀ r ∈ db.jobs.rows, sameRequest row.jobId row.discordMessageId r.jobId
            r.discordMessageId = false := by
          intro r member
          simpa using absent.2 r member
        refine Or.inr ⟨rfl, different, ?_, rfl, rfl⟩
        have untaken : row.jobId ∉ db.jobs.rows.map QueueRow.jobId := by
          intro taken
          obtain ⟨r, member, same⟩ := List.mem_map.1 taken
          have := different r member
          rw [sameRequest_iff.2 (Or.inl same)] at this
          cases this
        simp [Table.insertOrIgnore, untaken]

/-- An enqueue adds the new request to the queue, or finds it there. -/
theorem enqueueIn_ok {newJob : NewQueueJob}
    {answer : QueueEnqueueResult} (result : enqueueIn hooks newJob db = .ok (answer, next)) :
    cancelled db newJob.jobId newJob.discordMessageId = false ∧ next.intakes = db.intakes ∧
      next.cancellations = db.cancellations ∧
      ((answer.created = true ∧ next.jobs.rows = db.jobs.rows ++ [newJob.row] ∧
          ∀ r ∈ db.jobs.rows, sameRequest newJob.jobId newJob.discordMessageId r.jobId
            r.discordMessageId = false) ∨
        (answer.created = false ∧ next.jobs = db.jobs)) ∧
      ∃ row ∈ next.jobs.rows, row.decode = .ok answer.job := by
  unfold enqueueIn at result
  obtain ⟨rest, _, result⟩ := bind_ok.1 result
  obtain ⟨_, _, result⟩ := bind_ok.1 result
  rcases ite_ok.1 result with ⟨_, result⟩ | ⟨_, result⟩
  · cases result
  · obtain ⟨_, _, result⟩ := bind_ok.1 result
    obtain ⟨_, _, result⟩ := bind_ok.1 result
    obtain ⟨⟨created, after⟩, inserted, result⟩ := bind_ok.1 result
    obtain ⟨job, stored, result⟩ := bind_ok.1 result
    cases result
    obtain ⟨free, outcome⟩ := insertJob_ok inserted
    have read : ∃ row ∈ next.jobs.rows, row.decode = .ok job := by
      have bySelect : ∀ {id}, selectJob next id = .ok job → ∃ row ∈ next.jobs.rows,
          row.decode = .ok job := by
        intro id selected
        unfold selectJob at selected
        split at selected
        · cases selected
        · next row found => exact ⟨row, Table.mem_of_find found, selected⟩
      split at stored
      · exact bySelect stored
      · rcases ite_ok.1 stored with ⟨_, stored⟩ | ⟨_, stored⟩
        · exact bySelect stored
        · unfold selectByMessage at stored
          split at stored
          · cases stored
          · next row found => exact ⟨row, List.mem_of_find?_eq_some found, stored⟩
    rcases outcome with ⟨kept, rfl⟩ | ⟨fresh, absent, rows, intakes, cancellations⟩
    · exact ⟨free, rfl, rfl, Or.inr ⟨kept, rfl⟩, read⟩
    · exact ⟨free, intakes, cancellations, Or.inl ⟨fresh, rows, absent⟩, read⟩

end CodexRemote.Verified.Queue

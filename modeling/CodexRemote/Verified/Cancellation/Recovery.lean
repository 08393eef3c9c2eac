import CodexRemote.Store.Queue.Cancel
import CodexRemote.Verified.Queue.Inserts

/-! # Requests and the fence around the cancelled ones

The abstract view of the two tables: a request is an id, a message and a target, and it is in
the queue or among the intakes.  Every write of the cancellations is described in this view.
-/

namespace CodexRemote.Verified.Cancellation

open Foundations Store Verified.Queue

variable {ρ : Type}

/-! ## The view -/

structure Request where
  jobId : String
  target : String
  message : Option Int
deriving DecidableEq

def rowRequest (row : QueueRow) : Request := ⟨row.jobId, row.targetThreadId, row.discordMessageId⟩

def intakeRequest (intake : PromptIntake) : Request :=
  ⟨intake.jobId, intake.targetThreadId, intake.discordMessageId⟩

/-- The requests in the queue, or among the intakes. -/
def requests (db : QueueDb ρ) (queued : Bool) : List Request :=
  if queued then db.jobs.rows.map rowRequest else db.intakes.rows.map intakeRequest

/-- The request has this id or this message. -/
def Request.named (request : Request) (job : String) (event : Option Int) : Bool :=
  sameRequest job event request.jobId request.message

/-- An archived room preserves the row. -/
def preserved (db : QueueDb ρ) (queued : Bool) (job : String) : Bool :=
  db.archive.recordRetired (if queued then .turnQueue else .promptIntakes) job

/-- No request of the two tables is cancelled. -/
def Fenced (db : QueueDb ρ) : Prop :=
  ∀ queued, ∀ r ∈ requests db queued, cancelled db r.jobId r.message = false

theorem requests_unique (db : QueueDb ρ) (queued : Bool) :
    ((requests db queued).map Request.jobId).Nodup := by
  cases queued with
  | true => simpa [requests, Function.comp_def, rowRequest] using db.jobs.unique
  | false => simpa [requests, Function.comp_def, intakeRequest] using db.intakes.unique

theorem occurrences_eq (db : QueueDb ρ) (job : String) (event : Option Int) :
    occurrences db job event = (requests db true).countP (·.named job event) +
      (requests db false).countP (·.named job event) := by
  simp [occurrences, Table.count, requests, List.countP_map, Function.comp_def, Request.named,
    rowRequest, intakeRequest]

variable {db next : QueueDb ρ} {hooks : QueueHooks ρ} {job target : String} {channel owner : Int}
  {now : Rat}

theorem requests_congr (jobs : next.jobs = db.jobs)
    (intakes : next.intakes = db.intakes) (queued : Bool) : requests next queued = requests db queued := by
  simp [requests, jobs, intakes]

theorem JournalOnly.requests (only : JournalOnly db next) (queued : Bool) :
    requests next queued = requests db queued :=
  requests_congr only.jobs only.intakes queued

/-! ## The fence under the writes -/

/-- Requests that stay, or that no cancellation names, keep the fence. -/
theorem Fenced.of_subset (fenced : Fenced db)
    (subset : ∀ queued, ∀ r ∈ requests next queued, r ∈ requests db queued ∨
      cancelled db r.jobId r.message = false)
    (cancellations : next.cancellations = db.cancellations) : Fenced next := by
  intro queued r member
  have same : cancelled next r.jobId r.message = cancelled db r.jobId r.message := by
    unfold cancelled
    rw [cancellations]
  rw [same]
  rcases subset queued r member with old | free
  · exact fenced queued r old
  · exact free

theorem cancelled_append {c : RequestCancellation}
    (rows : next.cancellations.rows = db.cancellations.rows ++ [c]) (r : Request) :
    cancelled next r.jobId r.message =
      (cancelled db r.jobId r.message || r.named c.jobId c.discordMessageId) := by
  have either : (c.jobId == r.jobId || (r.message.isSome && c.discordMessageId == r.message)) =
      r.named c.jobId c.discordMessageId := by
    unfold Request.named sameRequest
    rw [Bool.eq_iff_iff]
    simp only [Bool.or_eq_true, Bool.and_eq_true, beq_iff_eq]
    constructor
    · rintro (id | ⟨some_, same⟩)
      · exact Or.inl id.symm
      · exact Or.inr ⟨same ▸ some_, same.symm⟩
    · rintro (id | ⟨some_, same⟩)
      · exact Or.inl id.symm
      · exact Or.inr ⟨same ▸ some_, same.symm⟩
  unfold cancelled Table.contains
  rw [rows, List.any_append, ← either]
  simp

/-- A new cancellation keeps the fence when no request that is left has its names. -/
theorem Fenced.cancel {db next : QueueDb ρ} {c : RequestCancellation} (fenced : Fenced db)
    (rows : next.cancellations.rows = db.cancellations.rows ++ [c])
    (left : ∀ queued, ∀ r ∈ requests next queued, r ∈ requests db queued ∧
      r.named c.jobId c.discordMessageId = false) : Fenced next := by
  intro queued r member
  obtain ⟨old, unnamed⟩ := left queued r member
  rw [cancelled_append rows, fenced queued r old, unnamed]
  rfl

/-! ## The writes -/

theorem insertCancellation_ok {c : RequestCancellation}
    (result : insertCancellation db c = .ok next) :
    next = { db with cancellations := next.cancellations } ∧
      next.cancellations.rows = db.cancellations.rows ++ [c] ∧
      ∀ old ∈ db.cancellations.rows,
        sameRequest c.jobId c.discordMessageId old.jobId old.discordMessageId = false := by
  unfold insertCancellation at result
  rcases ite_ok.1 result with ⟨_, result⟩ | ⟨untaken, result⟩
  · cases result
  · cases result
    have different : ∀ old ∈ db.cancellations.rows,
        sameRequest c.jobId c.discordMessageId old.jobId old.discordMessageId = false := by
      intro old member
      simp only [Table.contains, List.any_eq_true, not_exists, not_and, Bool.not_eq_true] at untaken
      exact untaken old member
    refine ⟨rfl, ?_, different⟩
    have absent : c.jobId ∉ db.cancellations.rows.map RequestCancellation.jobId := by
      intro taken
      obtain ⟨old, member, same⟩ := List.mem_map.1 taken
      have no := different old member
      rw [sameRequest_iff.2 (Or.inl same)] at no
      cases no
    simp [Table.insertOrIgnore, absent]

/-- What the delete of a request leaves, and how many rows it removed. -/
structure RequestDeleted (db next : QueueDb ρ) (kind : RequestKind) (job : String) (removed : Nat) :
    Prop where
  requests : ∀ queued, requests next queued =
    if queued = (kind == .queue) then
      (requests db queued).filter fun r => !(r.jobId == job && !preserved db queued r.jobId)
    else requests db queued
  removed : removed = (Cancellation.requests db (kind == .queue)).countP fun r =>
    r.jobId == job && !preserved db (kind == .queue) r.jobId
  cancellations : next.cancellations = db.cancellations
  archive : next.archive = db.archive
  ingress : next.ingress = db.ingress

theorem deleteIntakes_job_ok
    {removed : Nat} {kind : RequestKind} (notQueue : (kind == .queue) = false)
    (result : deleteIntakes hooks db (·.jobId == job) = .ok (removed, next)) :
    RequestDeleted db next kind job removed := by
  unfold deleteIntakes at result
  simp only at result
  split at result
  · cases result
  · cases result
    constructor
    · intro queued
      cases queued with
      | true => simp [requests, notQueue]
      | false =>
        simp only [requests, notQueue, Bool.false_eq_true, if_false, if_true, Table.delete,
          List.filter_map]
        rfl
    · simp only [notQueue, requests, Bool.false_eq_true, if_false, Table.count,
        List.countP_map]
      rfl
    · rfl
    · rfl
    · rfl

theorem deleteRequest_ok {kind : RequestKind}
    {removed : Nat} (result : deleteRequest hooks db kind job = .ok (removed, next)) :
    RequestDeleted db next kind job removed := by
  cases kind with
  | ingress | intake => exact deleteIntakes_job_ok rfl result
  | queue =>
    unfold deleteRequest deleteJob at result
    simp only at result
    split at result
    · cases result
    · cases result
      constructor
      · intro queued
        cases queued with
        | false => simp [requests]
        | true =>
          simp only [requests, beq_self_eq_true, if_true, Table.delete, List.filter_map]
          rfl
      · simp only [requests, beq_self_eq_true, if_true, Table.count, List.countP_map]
        rfl
      · rfl
      · rfl
      · rfl

theorem RequestDeleted.subset {kind : RequestKind}
    {removed : Nat} (deleted : RequestDeleted db next kind job removed) (queued : Bool)
    {r : Request} (member : r ∈ Cancellation.requests next queued) :
    r ∈ Cancellation.requests db queued := by
  rw [deleted.requests] at member
  split at member
  · exact (List.mem_filter.1 member).1
  · exact member

/-! ## A request with one occurrence -/

/-- In a list with one element that satisfies a condition, that element is the only one. -/
theorem eq_of_countP_one {α : Type} {condition : α → Bool} {items : List α}
    (one : items.countP condition ≤ 1) {a b : α} (left : a ∈ items) (right : b ∈ items)
    (holdsA : condition a = true) (holdsB : condition b = true) : a = b := by
  induction items with
  | nil => cases left
  | cons head tail ih =>
    have nobody : condition head = true → ∀ x ∈ tail, ¬condition x = true := by
      intro holds
      apply List.countP_eq_zero.1
      rw [List.countP_cons, if_pos holds] at one
      omega
    rcases List.mem_cons.1 left with rfl | inA <;> rcases List.mem_cons.1 right with rfl | inB
    · rfl
    · exact absurd holdsB (nobody holdsA b inB)
    · exact absurd holdsA (nobody holdsB a inA)
    · refine ih ?_ inA inB
      rw [List.countP_cons] at one
      omega

/-- The one occurrence of a request is the only row with one of its names. -/
theorem only_occurrence {event : Option Int} {queued : Bool}
    {r : Request} (one : occurrences db job event = 1) (member : r ∈ requests db queued)
    (named : r.named job event = true) (other : Bool) {s : Request} (present : s ∈ requests db other)
    (alike : s.named job event = true) : other = queued ∧ s = r := by
  rw [occurrences_eq] at one
  have left : 0 < (requests db queued).countP (·.named job event) :=
    List.countP_pos_iff.2 ⟨r, member, named⟩
  have right : 0 < (requests db other).countP (·.named job event) :=
    List.countP_pos_iff.2 ⟨s, present, alike⟩
  have same : other = queued := by
    cases other <;> cases queued <;> first | rfl | omega
  subst same
  have few : (requests db other).countP (·.named job event) ≤ 1 := by cases other <;> omega
  exact ⟨rfl, eq_of_countP_one few present member alike named⟩

/-! ## Owners -/

/-- The unowned rows of the journal are the same. -/
def SameUnowned (db next : QueueDb ρ) : Prop :=
  ∀ r : IngressRow, r.unowned = true → (r ∈ next.ingress.rows ↔ r ∈ db.ingress.rows)

/-- An update that only touches rows with an owner and completes them. -/
theorem sameUnowned_of_update {selected : IngressRow → Bool}
    {assign : IngressRow → IngressRow} {keeps : ∀ r, (assign r).ingressId = r.ingressId}
    (owned : ∀ r ∈ db.ingress.rows, selected r = true → r.unowned = false)
    (completes : ∀ r, (assign r).unowned = false) :
    SameUnowned db { db with ingress := db.ingress.update selected assign keeps } := by
  intro r unowned
  show r ∈ List.map _ db.ingress.rows ↔ _
  rw [List.mem_map]
  constructor
  · rintro ⟨old, member, same⟩
    split at same
    · rw [← same, completes] at unowned
      cases unowned
    · exact same ▸ member
  · intro member
    refine ⟨r, member, ?_⟩
    cases chosen : selected r with
    | false => simp
    | true =>
      rw [owned r member chosen] at unowned
      cases unowned

theorem cancel_not_unowned (row : IngressRow) (kept : Json) (job : String) (now : Rat) :
    (row.cancel kept job now).unowned = false := by
  simp [IngressRow.unowned, IngressRow.cancel]

/-- The owners that the checks pass are owned by the job. -/
theorem cancellationOwners_ok {event : Option Int} {keys : List String}
    (result : cancellationOwners db job event target channel owner = .ok keys) :
    ∀ key ∈ keys, ∀ r ∈ db.ingress.rows, r.ingressId = key → r.unowned = false := by
  unfold cancellationOwners at result
  obtain ⟨_, checks, result⟩ := bind_ok.1 result
  cases result
  intro key member r present same
  obtain ⟨row, selected, rfl⟩ := List.mem_map.1 member
  have row_eq : row = r :=
    List.inj_on_of_nodup_map db.ingress.unique (List.mem_filter.1 selected).1 present same.symm
  subst row_eq
  have passed := forM_ok checks row selected
  unfold checkCancellationOwner at passed
  rcases ite_ok.1 passed with ⟨_, passed⟩ | ⟨owned, _⟩
  · cases passed
  · simp only [Bool.or_eq_true, not_or, bne_iff_ne, ne_eq, not_not] at owned
    simp [IngressRow.unowned, owned.1.1.1.2]

theorem cancelOwners_only {kept : IngressRow → Json} {owners : List String}
    (result : cancelOwners hooks kept job now db owners = .ok next) : JournalOnly db next := by
  refine foldlM_ok .refl .trans ?_ result
  intro s key t step
  obtain ⟨⟨changed, after⟩, update, step⟩ := bind_ok.1 step
  cases step
  exact updateIngress_only update

theorem cancelOwners_ok {kept : IngressRow → Json} {owners : List String}
    (owned : ∀ key ∈ owners, ∀ r ∈ db.ingress.rows, r.ingressId = key → r.unowned = false)
    (result : cancelOwners hooks kept job now db owners = .ok next) :
    JournalOnly db next ∧ next.archive = db.archive ∧ SameUnowned db next := by
  have kept : ∀ key ∈ owners, ∀ s t : QueueDb ρ,
      (JournalOnly db s ∧ s.archive = db.archive ∧ SameUnowned db s) →
      (updateIngress hooks s (·.ingressId == key) (fun r => r.cancel (kept r) job now)
        (fun _ => rfl) >>= fun made => .ok made.2) = .ok t →
      JournalOnly db t ∧ t.archive = db.archive ∧ SameUnowned db t := by
    rintro key member s t ⟨only, archive, same⟩ step
    obtain ⟨⟨changed, after⟩, update, step⟩ := bind_ok.1 step
    cases step
    obtain ⟨selected, keyed, rfl⟩ := updateIngress_ok update
    refine ⟨.trans only (updateIngress_only update), archive, ?_⟩
    have touched : ∀ r ∈ s.ingress.rows, selected r = true → r.unowned = false := by
      intro r present chosen
      by_contra unowned
      rw [Bool.not_eq_false] at unowned
      have id := beq_iff_eq.1 (keyed r chosen)
      rw [owned key member r ((same r unowned).1 present) id] at unowned
      cases unowned
    have completed : SameUnowned s { s with
        ingress := s.ingress.update selected (fun r => r.cancel (kept r) job now) (fun _ => rfl) } :=
      sameUnowned_of_update touched fun r => cancel_not_unowned r (kept r) job now
    intro r unowned
    exact (completed r unowned).trans (same r unowned)
  exact foldlM_keeps kept ⟨.refl db, rfl, fun _ _ => Iff.rfl⟩ result

/-! ## A candidate -/

/-- The cancellation of a candidate records it, and then closes its row of the journal, if neither
table has a request like it, or deletes its one request and completes the owners. -/
theorem cancelCandidate_cases {selected : Candidate} {answer : Option String}
    (result : cancelCandidate hooks selected target channel owner now db = .ok (answer, next)) :
    answer = some selected.job ∧ ∃ recorded, insertCancellation db
        ⟨selected.job, target, channel, owner, selected.event, now⟩ = .ok recorded ∧
      (occurrences db selected.job selected.event = 0 ∧ JournalOnly recorded next ∨
        ∃ owners cleared, ensureUnambiguous db selected target channel owner = .ok owners ∧
          deleteRequest hooks recorded selected.kind selected.job = .ok (1, cleared) ∧
          cancelOwners hooks IngressRow.keptOutcome selected.job now cleared owners = .ok next) := by
  unfold cancelCandidate at result
  split at result
  · obtain ⟨after, cancel, result⟩ := bind_ok.1 result
    cases result
    unfold cancelUnstartedIngress at cancel
    rcases ite_ok.1 cancel with ⟨_, cancel⟩ | ⟨_, cancel⟩
    · cases cancel
    · rcases ite_ok.1 cancel with ⟨_, cancel⟩ | ⟨absent, cancel⟩
      · cases cancel
      · obtain ⟨recorded, insertion, cancel⟩ := bind_ok.1 cancel
        obtain ⟨⟨changed, journal⟩, update, cancel⟩ := bind_ok.1 cancel
        rcases ite_ok.1 cancel with ⟨_, cancel⟩ | ⟨_, cancel⟩
        · cases cancel
        · cases cancel
          exact ⟨rfl, recorded, insertion, .inl ⟨by simpa using absent, updateIngress_only update⟩⟩
  · obtain ⟨owners, checked, result⟩ := bind_ok.1 result
    obtain ⟨recorded, insertion, result⟩ := bind_ok.1 result
    obtain ⟨⟨removed, cleared⟩, deletion, result⟩ := bind_ok.1 result
    rcases ite_ok.1 result with ⟨_, result⟩ | ⟨one, result⟩
    · cases result
    · obtain ⟨journal, owned, result⟩ := bind_ok.1 result
      cases result
      obtain rfl : removed = 1 := by simpa using one
      exact ⟨rfl, recorded, insertion, .inr ⟨owners, cleared, checked, deletion, owned⟩⟩

/-- The cancellation of a candidate removes its one request. -/
theorem cancelCandidate_fenced {selected : Candidate} {answer : Option String} (fenced : Fenced db)
    (result : cancelCandidate hooks selected target channel owner now db = .ok (answer, next)) :
    Fenced next := by
  obtain ⟨-, recorded, insertion, ended⟩ := cancelCandidate_cases result
  obtain ⟨frame, rows, _⟩ := insertCancellation_ok insertion
  have before : ∀ queued, requests recorded queued = requests db queued := by
    intro queued
    rw [frame]
    rfl
  obtain ⟨absent, only⟩ | ⟨owners, cleared, checked, deletion, owned⟩ := ended
  · refine fenced.cancel (by rw [only.cancellations, rows]) ?_
    intro queued r member
    rw [JournalOnly.requests only, before] at member
    refine ⟨member, ?_⟩
    -- no occurrence of the request is left in either table
    rw [occurrences_eq, Nat.add_eq_zero_iff, List.countP_eq_zero, List.countP_eq_zero] at absent
    cases queued with
    | true => simpa using absent.1 r member
    | false => simpa using absent.2 r member
  · unfold ensureUnambiguous at checked
    rcases ite_ok.1 checked with ⟨_, checked⟩ | ⟨single, owners_ok⟩
    · cases checked
    · have deleted := deleteRequest_ok deletion
      have keys : ∀ key ∈ owners, ∀ r ∈ cleared.ingress.rows, r.ingressId = key →
          r.unowned = false := by
        rw [deleted.ingress, frame]
        exact cancellationOwners_ok owners_ok
      obtain ⟨only, _, _⟩ := cancelOwners_ok keys owned
      simp only [Bool.or_eq_true, not_or, bne_iff_ne, ne_eq, not_not] at single
      -- the row that was removed is the one occurrence
      obtain ⟨p, member, id⟩ := List.countP_pos_iff.1 (deleted.removed ▸ Nat.one_pos)
      rw [before] at member
      simp only [Bool.and_eq_true, beq_iff_eq, Bool.not_eq_true'] at id
      have named : p.named selected.job selected.event = true :=
        sameRequest_iff.2 (Or.inl id.1)
      refine fenced.cancel (by rw [only.cancellations, deleted.cancellations, rows]) ?_
      intro queued r left
      rw [JournalOnly.requests only] at left
      have present := deleted.subset queued left
      rw [before] at present
      refine ⟨present, ?_⟩
      by_contra alike
      rw [Bool.not_eq_false] at alike
      obtain ⟨same, rfl⟩ := only_occurrence single.1 member named queued present alike
      rw [deleted.requests, if_pos same, List.mem_filter] at left
      rw [← same] at id
      have kept := left.2
      rw [id.2] at kept
      simp [id.1] at kept

/-- A request of the target: a row of one of the tables, or a question that has no job yet. -/
def Pending (db : QueueDb ρ) (target job : String) (event : Option Int) : Prop :=
  (∃ queued, ∃ r ∈ requests db queued, r.jobId = job ∧ r.message = event ∧ r.target = target) ∨
    ∃ row ∈ unownedAsks db target, ingressJob row.ingressId = job ∧ row.eventId = event

theorem candidates_pending {item : Candidate} (member : item ∈ candidates db target channel owner) :
    Pending db target item.job item.event := by
  rw [candidates, List.mem_mergeSort] at member
  rcases List.mem_append.1 member with stored | staged
  · rcases List.mem_append.1 stored with queued | prepared
    · obtain ⟨row, selected, rfl⟩ := List.mem_map.1 queued
      obtain ⟨present, own⟩ := List.mem_filter.1 selected
      simp only [Bool.and_eq_true, beq_iff_eq] at own
      exact .inl ⟨true, rowRequest row, List.mem_map_of_mem present, rfl, rfl, own.1.1⟩
    · obtain ⟨row, selected, rfl⟩ := List.mem_map.1 prepared
      obtain ⟨present, own⟩ := List.mem_filter.1 selected
      simp only [Bool.and_eq_true, beq_iff_eq] at own
      exact .inl ⟨false, intakeRequest row, List.mem_map_of_mem present, rfl, rfl, own.1.1⟩
  · obtain ⟨row, selected, rfl⟩ := List.mem_map.1 staged
    exact .inr ⟨row, (List.mem_filter.1 selected).1, rfl, rfl⟩

/-- The candidate that is answered is on record with its message. -/
theorem cancelCandidate_recorded {selected : Candidate} {answer : Option String}
    (result : cancelCandidate hooks selected target channel owner now db = .ok (answer, next)) :
    answer = some selected.job ∧ next.cancellations.rows = db.cancellations.rows ++
      [⟨selected.job, target, channel, owner, selected.event, now⟩] := by
  obtain ⟨answered, recorded, insertion, ended⟩ := cancelCandidate_cases result
  obtain ⟨-, rows, -⟩ := insertCancellation_ok insertion
  refine ⟨answered, ?_⟩
  obtain ⟨-, only⟩ | ⟨owners, cleared, -, deletion, owned⟩ := ended
  · rw [only.cancellations, rows]
  · rw [(cancelOwners_only owned).cancellations, (deleteRequest_ok deletion).cancellations, rows]

/-- The latest request is cancelled, or there is none and nothing changes. -/
theorem cancelLatest_cases {now : Timestamp} {requireMirror : Bool} {answer : Option String}
    (result : cancelLatestPendingIn hooks target channel owner now requireMirror db =
      .ok (answer, next)) :
    (∃ selected at_, (candidates db target channel owner).find? (·.eligible) = some selected ∧
        cancelCandidate hooks selected target channel owner at_ db = .ok (answer, next)) ∨
      (answer = none ∧ next = db) := by
  unfold cancelLatestPendingIn at result
  obtain ⟨at_, _, result⟩ := bind_ok.1 result
  obtain ⟨_, _, result⟩ := bind_ok.1 result
  obtain ⟨_, _, result⟩ := bind_ok.1 result
  obtain ⟨_, _, result⟩ := bind_ok.1 result
  obtain ⟨_, _, result⟩ := bind_ok.1 result
  simp only at result
  split at result
  · next selected found => exact .inl ⟨selected, at_, found, result⟩
  · obtain ⟨_, result⟩ | ⟨_, result⟩ := ite_ok.1 result
    · cases result
      exact .inr ⟨rfl, rfl⟩
    · cases result

theorem cancelLatest_fenced {now : Timestamp} {requireMirror : Bool} {answer : Option String}
    (fenced : Fenced db) (call : cancelLatestPendingOnRoute hooks target channel owner now
      requireMirror db = (.ok answer, next)) : Fenced next := by
  obtain ⟨_, _, _, cancelled⟩ | ⟨-, rfl⟩ := cancelLatest_cases (commit_ok call)
  · exact cancelCandidate_fenced fenced cancelled
  · exact fenced

/-! ## One step of a recovery -/

/-- The recovery has cancelled one request. -/
structure RequestCancelled (db next : QueueDb ρ) (request : RecoveryRequest) : Prop where
  one : occurrences db request.job request.event = 1
  cancellations : ∃ c : RequestCancellation, c.jobId = request.job ∧
    c.discordMessageId = request.event ∧
    next.cancellations.rows = db.cancellations.rows ++ [c]
  requests : ∀ queued, Cancellation.requests next queued =
    if queued = (request.kind == .queue) then
      (Cancellation.requests db queued).filter fun r =>
        !(r.jobId == request.job && !preserved db queued r.jobId)
    else Cancellation.requests db queued
  present : ∃ r ∈ Cancellation.requests db (request.kind == .queue), r.jobId = request.job
  archive : next.archive = db.archive
  unowned : SameUnowned db next

theorem requestEvidence_ok {request : RecoveryRequest}
    {answer : String × Bool} (result : requestEvidence hooks db request now = .ok answer) :
    ∃ r ∈ requests db (request.kind == .queue), r.jobId = request.job := by
  unfold requestEvidence at result
  split at result
  · next queue =>
    obtain ⟨stored, selected, _⟩ := bind_ok.1 result
    unfold selectJob at selected
    split at selected
    · cases selected
    · next row found =>
      have key : row.jobId = request.job := Table.find_key found
      rw [queue]
      exact ⟨rowRequest row, List.mem_map_of_mem (Table.mem_of_find found), key⟩
  · next kind notQueue =>
    split at result
    · cases result
    · next intake found =>
      have other : (request.kind == .queue) = false := by
        cases kind_eq : request.kind with
        | queue => exact absurd kind_eq notQueue
        | ingress | intake => rfl
      have key : intake.jobId = request.job := Table.find_key found
      rw [other]
      exact ⟨intakeRequest intake, List.mem_map_of_mem (Table.mem_of_find found), key⟩

theorem cancelRequestIn_ok
    {state next : RecoveryCancellation × QueueDb ρ} {request : RecoveryRequest}
    (result : cancelRequestIn hooks target channel owner now state request = .ok next) :
    RequestCancelled state.2 next.2 request ∧ next.1.jobs = state.1.jobs ++ [request.job] := by
  obtain ⟨before, db⟩ := state
  unfold cancelRequestIn at result
  simp only at result
  rcases ite_ok.1 result with ⟨_, result⟩ | ⟨one, result⟩
  · cases result
  · obtain ⟨owners, checked, result⟩ := bind_ok.1 result
    obtain ⟨⟨evidence, started⟩, saved, result⟩ := bind_ok.1 result
    obtain ⟨recorded, insertion, result⟩ := bind_ok.1 result
    obtain ⟨⟨removed, cleared⟩, deletion, result⟩ := bind_ok.1 result
    obtain ⟨journal, owned, result⟩ := bind_ok.1 result
    cases result
    obtain ⟨frame, rows, _⟩ := insertCancellation_ok insertion
    have deleted := deleteRequest_ok deletion
    have archive : recorded.archive = db.archive := by rw [frame]; rfl
    -- the insertion writes one table, so requests and owners are still those of the start
    have same : ∀ queued, requests recorded queued = requests db queued := by
      intro queued
      rw [frame]
      rfl
    have keys : ∀ key ∈ owners, ∀ r ∈ cleared.ingress.rows, r.ingressId = key →
        r.unowned = false := by
      rw [deleted.ingress, frame]
      exact cancellationOwners_ok checked
    obtain ⟨only, kept, unowned⟩ := cancelOwners_ok keys owned
    refine ⟨⟨by simpa using one,
      ⟨⟨request.job, target, channel, owner, request.event, now⟩, rfl, rfl, ?_⟩, ?_,
      requestEvidence_ok saved, ?_, ?_⟩, rfl⟩
    · show journal.cancellations.rows = _
      rw [only.cancellations, deleted.cancellations, rows]
      rfl
    · intro queued
      show requests journal queued = _
      rw [JournalOnly.requests only, deleted.requests, same]
      simp only [preserved, archive]
    · exact kept.trans (deleted.archive.trans archive)
    · have ingress : cleared.ingress = db.ingress := by rw [deleted.ingress, frame]; rfl
      intro r isUnowned
      rw [← ingress]
      exact unowned r isUnowned

/-- The recovery has cancelled a request that had no job. -/
structure UnownedCancelled (db next : QueueDb ρ) (row : IngressRow) : Prop where
  untaken : ∀ old ∈ db.cancellations.rows, sameRequest (ingressJob row.ingressId) row.eventId
    old.jobId old.discordMessageId = false
  cancellations : ∃ c : RequestCancellation, c.jobId = ingressJob row.ingressId ∧
    c.discordMessageId = row.eventId ∧ next.cancellations.rows = db.cancellations.rows ++ [c]
  requests : ∀ queued, Cancellation.requests next queued = Cancellation.requests db queued
  archive : next.archive = db.archive

theorem cancelUnownedIn_ok {state next : RecoveryCancellation × QueueDb ρ} {row : IngressRow}
    (result : cancelUnownedIn hooks target channel owner now state row = .ok next) :
    UnownedCancelled state.2 next.2 row ∧
      next.1.jobs = state.1.jobs ++ [ingressJob row.ingressId] := by
  obtain ⟨before, db⟩ := state
  unfold cancelUnownedIn at result
  obtain ⟨recorded, insertion, result⟩ := bind_ok.1 result
  obtain ⟨⟨changed, journal⟩, update, result⟩ := bind_ok.1 result
  cases result
  obtain ⟨frame, rows, untaken⟩ := insertCancellation_ok insertion
  have only := updateIngress_only update
  refine ⟨⟨untaken,
    ⟨⟨ingressJob row.ingressId, target, channel, owner, row.eventId, now⟩, rfl, rfl, ?_⟩, ?_, ?_⟩, rfl⟩
  · show journal.cancellations.rows = _
    rw [only.cancellations, rows]
    rfl
  · intro queued
    show requests journal queued = _
    rw [JournalOnly.requests only, frame]
    rfl
  · obtain ⟨_, _, rfl⟩ := updateIngress_ok update
    rw [frame]
    rfl

end CodexRemote.Verified.Cancellation

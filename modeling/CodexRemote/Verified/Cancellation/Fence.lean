import CodexRemote.Verified.Cancellation.Recovery
import CodexRemote.Verified.PromptIntake.Promotion

/-! # The fence around cancelled requests

Every operation keeps cancelled requests out of the queue and the intakes, but for one: a recovery
does not look for other jobs of a request that has no job of its own yet, and it does not look at
how many rows it removed.
-/

namespace CodexRemote.Verified.Cancellation

open Foundations Store Verified.Queue
open Verified.PromptIntake

variable {ρ : Type}

/-! ## A whole recovery -/

/-- What a recovery of this target does not check: that no archived room preserves a request of
the target, and that no request of another target has the names of one without a job. -/
structure RecoveryClean (db : QueueDb ρ) (target : String) : Prop where
  unpreserved : ∀ queued, ∀ r ∈ requests db queued, r.target = target →
    preserved db queued r.jobId = false
  unclaimed : ∀ row ∈ unownedAsks db target, ∀ queued, ∀ r ∈ requests db queued,
    r.target ≠ target → r.named (ingressJob row.ingressId) row.eventId = false

/-- A cancellation of exactly these names is on record. -/
def Recorded (db : QueueDb ρ) (job : String) (event : Option Int) : Prop :=
  ∃ c ∈ db.cancellations.rows, c.jobId = job ∧ c.discordMessageId = event

variable {db next start : QueueDb ρ} {event : Option Int} {job target : String}
  {channel owner : Int} {hooks : QueueHooks ρ} {now : Timestamp}

theorem Recorded.cancelled {r : Request}
    (recorded : Recorded db job event) (named : r.named job event = true) :
    cancelled db r.jobId r.message = true := by
  obtain ⟨c, member, rfl, rfl⟩ := recorded
  rw [cancelled_iff]
  refine ⟨c, member, ?_⟩
  rcases sameRequest_iff.1 named with id | ⟨some_, same⟩
  · exact Or.inl id.symm
  · exact Or.inr ⟨same ▸ some_, same.symm⟩

theorem Recorded.append {c : RequestCancellation} (recorded : Recorded db job event)
    (rows : next.cancellations.rows = db.cancellations.rows ++ [c]) : Recorded next job event := by
  obtain ⟨old, member, names⟩ := recorded
  exact ⟨old, by rw [rows]; exact List.mem_append_left _ member, names⟩

theorem recoveryRequests_origin {request : RecoveryRequest}
    (member : request ∈ recoveryRequests db target) :
    ∃ r ∈ requests db (request.kind == .queue), r.jobId = request.job ∧
      r.message = request.event ∧ r.target = target := by
  rcases List.mem_append.1 member with queued | prepared
  · obtain ⟨row, selected, rfl⟩ := List.mem_map.1 queued
    obtain ⟨present, own⟩ := List.mem_filter.1 selected
    exact ⟨rowRequest row, List.mem_map_of_mem present, rfl, rfl, beq_iff_eq.1 own⟩
  · obtain ⟨row, selected, rfl⟩ := List.mem_map.1 prepared
    obtain ⟨present, own⟩ := List.mem_filter.1 selected
    exact ⟨intakeRequest row, List.mem_map_of_mem present, rfl, rfl, beq_iff_eq.1 own⟩

theorem recoveryRequests_all {queued : Bool} {r : Request}
    (member : r ∈ requests db queued) (own : r.target = target) :
    ∃ request ∈ recoveryRequests db target, request.job = r.jobId ∧ request.event = r.message := by
  cases queued with
  | true =>
    obtain ⟨row, present, rfl⟩ := List.mem_map.1 member
    have selected : row ∈ db.jobs.select (·.targetThreadId == target) :=
      List.mem_filter.2 ⟨present, beq_iff_eq.2 own⟩
    exact ⟨_, List.mem_append_left _ (List.mem_map_of_mem selected), rfl, rfl⟩
  | false =>
    obtain ⟨row, present, rfl⟩ := List.mem_map.1 member
    have selected : row ∈ db.intakes.select (·.targetThreadId == target) :=
      List.mem_filter.2 ⟨present, beq_iff_eq.2 own⟩
    exact ⟨_, List.mem_append_right _ (List.mem_map_of_mem selected), rfl, rfl⟩

/-- A recovery under way: requests of the target leave unless they are preserved, all others
stay, and the requests without an owner are those of the start. -/
structure Recovering (start : QueueDb ρ) (target : String) (db : QueueDb ρ) : Prop where
  subset : ∀ queued, ∀ r ∈ requests db queued, r ∈ requests start queued
  stay : ∀ queued, ∀ r ∈ requests start queued,
    (r.target ≠ target ∨ preserved start queued r.jobId = true) → r ∈ requests db queued
  archive : db.archive = start.archive
  unowned : SameUnowned start db
  fenced : RecoveryClean start target → Fenced db

theorem same_request {queued : Bool} {a b : Request} (left : a ∈ requests db queued)
    (right : b ∈ requests db queued) (same : a.jobId = b.jobId) : a = b :=
  List.inj_on_of_nodup_map (requests_unique db queued) left right same

theorem Recovering.request {request : RecoveryRequest}
    (recovering : Recovering start target db) (listed : request ∈ recoveryRequests start target)
    (cancel : RequestCancelled db next request) : Recovering start target next := by
  obtain ⟨origin, from_start, id, message, own⟩ := recoveryRequests_origin listed
  have later : ∀ queued, ∀ r ∈ requests next queued, r ∈ requests db queued := by
    intro queued r member
    rw [cancel.requests] at member
    split at member
    · exact (List.mem_filter.1 member).1
    · exact member
  have kept : ∀ queued job, preserved db queued job = preserved start queued job := by
    intro queued job
    unfold preserved
    rw [recovering.archive]
  constructor
  · exact fun queued r member => recovering.subset queued r (later queued r member)
  · intro queued r member reason
    have present := recovering.stay queued r member reason
    rw [cancel.requests]
    split
    · next same =>
      refine List.mem_filter.2 ⟨present, ?_⟩
      cases removed : r.jobId == request.job && !preserved db queued r.jobId with
      | false => rfl
      | true =>
        -- the row that goes is the listed one, which is of this target
        simp only [kept, Bool.and_eq_true, beq_iff_eq, Bool.not_eq_true'] at removed
        subst same
        have r_eq := same_request member from_start (removed.1.trans id.symm)
        rcases reason with other | preserved_
        · exact absurd (r_eq ▸ own) other
        · rw [removed.2] at preserved_
          cases preserved_
    · exact present
  · exact cancel.archive.trans recovering.archive
  · exact fun r isUnowned => (cancel.unowned r isUnowned).trans (recovering.unowned r isUnowned)
  · intro clean
    obtain ⟨c, job, event, rows⟩ := cancel.cancellations
    obtain ⟨p, present, same⟩ := cancel.present
    have p_eq : p = origin :=
      same_request (recovering.subset _ p present) from_start (same.trans id.symm)
    have named : p.named request.job request.event = true := sameRequest_iff.2 (Or.inl same)
    refine (recovering.fenced clean).cancel rows ?_
    intro queued r member
    refine ⟨later queued r member, ?_⟩
    rw [job, event]
    by_contra alike
    rw [Bool.not_eq_false] at alike
    obtain ⟨sameTable, rfl⟩ :=
      only_occurrence cancel.one present named queued (later queued r member) alike
    rw [cancel.requests, if_pos sameTable, List.mem_filter] at member
    have unpreserved := clean.unpreserved _ origin from_start own
    have left := member.2
    rw [← p_eq, ← sameTable] at unpreserved
    rw [kept, unpreserved] at left
    simp [same] at left

/-- The loop over the requests of the target -/
theorem cancelRequests_ok {now : Rat} {first last : RecoveryCancellation × QueueDb ρ}
    (recovering : Recovering start target first.2)
    (loop : (recoveryRequests start target).foldlM (cancelRequestIn hooks target channel owner now)
      first = .ok last) :
    Recovering start target last.2 ∧
      ∀ request ∈ recoveryRequests start target, Recorded last.2 request.job request.event := by
  have each : ∀ request ∈ recoveryRequests start target, ∀ s t : RecoveryCancellation × QueueDb ρ,
      Recovering start target s.2 → cancelRequestIn hooks target channel owner now s request = .ok t →
      Recovering start target t.2 ∧ Recorded t.2 request.job request.event ∧
        ∀ a : RecoveryRequest, Recorded s.2 a.job a.event → Recorded t.2 a.job a.event := by
    intro request listed s t before step
    have cancel := (cancelRequestIn_ok step).1
    obtain ⟨c, job, event, rows⟩ := cancel.cancellations
    refine ⟨before.request listed cancel, ⟨c, by rw [rows]; simp, job, event⟩, ?_⟩
    exact fun a recorded => recorded.append rows
  obtain ⟨kept, all, _⟩ := @foldlM_each _ _ _ (fun s => Recovering start target s.2)
    (fun request s => Recorded s.2 request.job request.event) _ _ each _ _ recovering loop
  exact ⟨kept, all⟩

/-- The requests of the target are cancelled, and those without a job are being cancelled. -/
structure Clearing (start middle : QueueDb ρ) (target : String) (db : QueueDb ρ) : Prop where
  same : ∀ queued, requests db queued = requests middle queued
  recorded : ∀ request ∈ recoveryRequests start target, Recorded db request.job request.event
  fenced : RecoveryClean start target → Fenced db

theorem Clearing.row {middle : QueueDb ρ} {row : IngressRow}
    (clearing : Clearing start middle target db)
    (subset : ∀ queued, ∀ r ∈ requests middle queued, r ∈ requests start queued)
    (listed : row ∈ unownedAsks start target) (cancel : UnownedCancelled db next row) :
    Clearing start middle target next := by
  obtain ⟨c, job, event, rows⟩ := cancel.cancellations
  refine ⟨fun queued => (cancel.requests queued).trans (clearing.same queued),
    fun request listed => (clearing.recorded request listed).append rows, ?_⟩
  intro clean
  refine (clearing.fenced clean).cancel rows ?_
  intro queued r member
  rw [cancel.requests] at member
  refine ⟨member, ?_⟩
  rw [job, event]
  rw [clearing.same] at member
  have from_start := subset queued r member
  by_cases own : r.target = target
  · -- a request of the target is cancelled already, and names are not cancelled twice
    obtain ⟨request, requested, sameJob, sameEvent⟩ := recoveryRequests_all from_start own
    obtain ⟨old, taken, oldJob, oldEvent⟩ := clearing.recorded request requested
    have untaken := cancel.untaken old taken
    rw [oldJob, oldEvent, sameJob, sameEvent] at untaken
    exact untaken
  · exact clean.unclaimed row listed queued r from_start own

/-- The loop over the requests without a job -/
theorem cancelUnowned_ok {now : Rat}
    {middle : QueueDb ρ} {first last : RecoveryCancellation × QueueDb ρ} {rows : List IngressRow}
    (subset : ∀ queued, ∀ r ∈ requests middle queued, r ∈ requests start queued)
    (asked : ∀ row ∈ rows, row ∈ unownedAsks start target)
    (clearing : Clearing start middle target first.2)
    (loop : rows.foldlM (cancelUnownedIn hooks target channel owner now) first = .ok last) :
    Clearing start middle target last.2 ∧
      ∀ row ∈ rows, Recorded last.2 (ingressJob row.ingressId) row.eventId := by
  have each : ∀ row ∈ rows, ∀ s t : RecoveryCancellation × QueueDb ρ,
      Clearing start middle target s.2 →
      cancelUnownedIn hooks target channel owner now s row = .ok t →
      Clearing start middle target t.2 ∧ Recorded t.2 (ingressJob row.ingressId) row.eventId ∧
        ∀ a : IngressRow, Recorded s.2 (ingressJob a.ingressId) a.eventId →
          Recorded t.2 (ingressJob a.ingressId) a.eventId := by
    intro row listed s t before step
    have cancel := (cancelUnownedIn_ok step).1
    obtain ⟨c, job, event, appended⟩ := cancel.cancellations
    refine ⟨before.row subset (asked row listed) cancel,
      ⟨c, by rw [appended]; simp, job, event⟩, ?_⟩
    exact fun a recorded => recorded.append appended
  obtain ⟨kept, all, _⟩ := @foldlM_each _ _ _ (fun s => Clearing start middle target s.2)
    (fun row s => Recorded s.2 (ingressJob row.ingressId) row.eventId) _ _ each _ _ clearing loop
  exact ⟨kept, all⟩

theorem mem_unownedAsks (same : SameUnowned db next)
    (row : IngressRow) : row ∈ unownedAsks next target ↔ row ∈ unownedAsks db target := by
  simp only [unownedAsks, Table.select, List.mem_filter, Bool.and_eq_true]
  constructor <;> rintro ⟨member, ⟨own, unowned⟩, asks⟩
  · exact ⟨(same row unowned).1 member, ⟨own, unowned⟩, asks⟩
  · exact ⟨(same row unowned).2 member, ⟨own, unowned⟩, asks⟩

/-- The two loops of a recovery that succeeds -/
theorem cancelForRecovery_loops {check : QueueDb ρ → Except StoreError Unit}
    {answer : RecoveryCancellation}
    (call : cancelForRecoveryChecked hooks target channel owner now check db = (.ok answer, next)) :
    ∃ time first middle last rest,
      (recoveryRequests db target).foldlM (cancelRequestIn hooks target channel owner time)
        (⟨[], 0⟩, db) = .ok (first, middle) ∧
      (unownedAsks middle target).foldlM (cancelUnownedIn hooks target channel owner time)
        (first, middle) = .ok (answer, last) ∧
      next = { last with rest := rest } := by
  have result := commit_ok call
  unfold cancelForRecoveryIn at result
  rcases ite_ok.1 result with ⟨_, result⟩ | ⟨_, result⟩
  · cases result
  · obtain ⟨time, _, result⟩ := bind_ok.1 result
    obtain ⟨_, _, result⟩ := bind_ok.1 result
    obtain ⟨_, _, result⟩ := bind_ok.1 result
    obtain ⟨_, _, result⟩ := bind_ok.1 result
    rcases ite_ok.1 result with ⟨_, result⟩ | ⟨_, result⟩
    · cases result
    · obtain ⟨⟨first, middle⟩, loop, result⟩ := bind_ok.1 result
      rcases ite_ok.1 result with ⟨_, result⟩ | ⟨_, result⟩
      · cases result
      · obtain ⟨⟨second, last⟩, unowned, result⟩ := bind_ok.1 result
        obtain ⟨_, _, result⟩ := bind_ok.1 result
        obtain ⟨rest, _, result⟩ := bind_ok.1 result
        cases result
        exact ⟨time, first, middle, last, rest, loop, unowned, rfl⟩

/-- A recovery that succeeds keeps the fence exactly when it finds its target clean. -/
theorem recovery_fenced_iff {check : QueueDb ρ → Except StoreError Unit}
    {answer : RecoveryCancellation} (fenced : Fenced db)
    (call : cancelForRecoveryChecked hooks target channel owner now check db = (.ok answer, next)) :
    Fenced next ↔ RecoveryClean db target := by
  obtain ⟨time, first, middle, last, rest, loop, loop', rfl⟩ := cancelForRecovery_loops call
  have start : Recovering db target db :=
    ⟨fun _ _ member => member, fun _ _ member _ => member, rfl, fun _ _ => Iff.rfl,
      fun _ => fenced⟩
  obtain ⟨recovering, recorded⟩ := cancelRequests_ok start loop
  have asked : ∀ row, row ∈ unownedAsks middle target ↔ row ∈ unownedAsks db target :=
    mem_unownedAsks recovering.unowned
  obtain ⟨clearing, taken⟩ := cancelUnowned_ok recovering.subset
    (fun row listed => (asked row).1 listed) ⟨fun _ => rfl, recorded, recovering.fenced⟩ loop'
  constructor
  · intro final
    constructor
    · -- a preserved request of the target is cancelled and stays where it is
      intro queued r member own
      by_contra preserved_
      rw [Bool.not_eq_false] at preserved_
      have present := recovering.stay queued r member (Or.inr preserved_)
      rw [← clearing.same] at present
      obtain ⟨request, listed, job, event⟩ := recoveryRequests_all member own
      have named : r.named request.job request.event = true :=
        sameRequest_iff.2 (Or.inl job.symm)
      have no := final queued r present
      exact Bool.noConfusion (no.symm.trans ((clearing.recorded request listed).cancelled named))
    · -- a request of another target stays, although its message is cancelled
      intro row listed queued r member other
      by_contra named
      rw [Bool.not_eq_false] at named
      have present := recovering.stay queued r member (Or.inl other)
      rw [← clearing.same] at present
      have no := final queued r present
      have yes := (taken row ((asked row).2 listed)).cancelled named
      exact Bool.noConfusion (no.symm.trans yes)
  · exact fun clean => clearing.fenced clean

/-! ## What a cancellation answers -/

/-- Cancellations stay on record. -/
def Persist (db next : QueueDb ρ) : Prop :=
  ∀ c ∈ db.cancellations.rows, c ∈ next.cancellations.rows

theorem Persist.of_eq (same : next.cancellations = db.cancellations) :
    Persist db next := fun _ member => same ▸ member

theorem Recorded.persist
    (recorded : Recorded db job event) (persist : Persist db next) : Recorded next job event := by
  obtain ⟨c, member, names⟩ := recorded
  exact ⟨c, persist c member, names⟩

/-- A recovery under way has answered requests of its target only, and each is on record. -/
structure Answering (start : QueueDb ρ) (target : String)
    (state : RecoveryCancellation × QueueDb ρ) : Prop where
  persist : Persist start state.2
  answered : ∀ job ∈ state.1.jobs, ∃ event, Pending start target job event ∧
    Recorded state.2 job event

theorem Answering.add
    {state next : RecoveryCancellation × QueueDb ρ} (answering : Answering start target state)
    (pending : Pending start target job event)
    (cancellations : ∃ c : RequestCancellation, c.jobId = job ∧ c.discordMessageId = event ∧
      next.2.cancellations.rows = state.2.cancellations.rows ++ [c])
    (jobs : next.1.jobs = state.1.jobs ++ [job]) : Answering start target next := by
  obtain ⟨c, id, message, rows⟩ := cancellations
  have persist : Persist state.2 next.2 := by
    intro old member
    rw [rows]
    exact List.mem_append_left _ member
  refine ⟨fun old member => persist old (answering.persist old member), ?_⟩
  intro other listed
  rw [jobs] at listed
  rcases List.mem_append.1 listed with before | now
  · obtain ⟨message, asked, recorded⟩ := answering.answered other before
    exact ⟨message, asked, recorded.persist persist⟩
  · rw [List.mem_singleton.1 now]
    exact ⟨event, pending, c, by rw [rows]; simp, id, message⟩

theorem recovery_answering {check : QueueDb ρ → Except StoreError Unit}
    {answer : RecoveryCancellation}
    (call : cancelForRecoveryChecked hooks target channel owner now check db = (.ok answer, next)) :
    Answering db target (answer, next) := by
  obtain ⟨time, first, middle, last, rest, loop, loop', rfl⟩ := cancelForRecovery_loops call
  have stored : ∀ request ∈ recoveryRequests db target, ∀ s t : RecoveryCancellation × QueueDb ρ,
      (Answering db target s ∧ SameUnowned db s.2) →
      cancelRequestIn hooks target channel owner time s request = .ok t →
      Answering db target t ∧ SameUnowned db t.2 := by
    rintro request listed s t ⟨before, same⟩ step
    obtain ⟨cancel, jobs⟩ := cancelRequestIn_ok step
    obtain ⟨r, present, names⟩ := recoveryRequests_origin listed
    have pending : Pending db target request.job request.event := .inl ⟨_, r, present, names⟩
    exact ⟨before.add pending cancel.cancellations jobs,
      fun row unowned => (cancel.unowned row unowned).trans (same row unowned)⟩
  -- the asks without a job are read after the first loop, which leaves them alone
  have start : Answering db target (⟨[], 0⟩, db) := ⟨fun _ member => member, by simp⟩
  obtain ⟨requested, same⟩ := foldlM_keeps stored ⟨start, fun _ _ => Iff.rfl⟩ loop
  have staged : ∀ row ∈ unownedAsks middle target, ∀ s t : RecoveryCancellation × QueueDb ρ,
      Answering db target s → cancelUnownedIn hooks target channel owner time s row = .ok t →
      Answering db target t := by
    intro row listed s t before step
    obtain ⟨cancel, jobs⟩ := cancelUnownedIn_ok step
    have pending : Pending db target (ingressJob row.ingressId) row.eventId :=
      .inr ⟨row, (mem_unownedAsks same row).1 listed, rfl, rfl⟩
    exact before.add pending cancel.cancellations jobs
  obtain ⟨persist, answered⟩ := foldlM_keeps staged requested loop'
  exact ⟨persist, answered⟩

theorem cancelLatest_answered {requireMirror : Bool} {answer : Option String}
    (call : cancelLatestPendingOnRoute hooks target channel owner now requireMirror db =
      (.ok answer, next)) :
    Persist db next ∧ ∀ job, answer = some job →
      ∃ event, Pending db target job event ∧ Recorded next job event := by
  obtain ⟨selected, _, found, cancelled⟩ | ⟨rfl, rfl⟩ := cancelLatest_cases (commit_ok call)
  · obtain ⟨rfl, rows⟩ := cancelCandidate_recorded cancelled
    refine ⟨fun old member => by rw [rows]; exact List.mem_append_left _ member, ?_⟩
    rintro _ ⟨⟩
    exact ⟨selected.event, candidates_pending (List.mem_of_find?_eq_some found), _,
      by rw [rows]; exact List.mem_append_right _ (List.mem_singleton_self _), rfl, rfl⟩
  · exact ⟨.of_eq rfl, by rintro _ ⟨⟩⟩

/-! ## The other operations -/

/-- No cancellation is new, and every new request is one that no cancellation names. -/
structure OnlyFree (db next : QueueDb ρ) : Prop where
  cancellations : next.cancellations = db.cancellations
  requests : ∀ queued, ∀ r ∈ Cancellation.requests next queued,
    r ∈ Cancellation.requests db queued ∨ cancelled db r.jobId r.message = false

theorem OnlyFree.refl (db : QueueDb ρ) : OnlyFree db db := ⟨rfl, fun _ _ member => Or.inl member⟩

theorem OnlyFree.fenced {db next : QueueDb ρ} (free : OnlyFree db next) (fenced : Fenced db) :
    Fenced next := fenced.of_subset free.requests free.cancellations

theorem OnlyFree.of_enqueue {newJob : NewQueueJob}
    (free : cancelled db newJob.jobId newJob.discordMessageId = false)
    (intakes : ∀ r ∈ next.intakes.rows, r ∈ db.intakes.rows)
    (cancellations : next.cancellations = db.cancellations)
    (jobs : next.jobs.rows = db.jobs.rows ++ [newJob.row] ∨ next.jobs = db.jobs) :
    OnlyFree db next := by
  refine ⟨cancellations, ?_⟩
  intro queued r member
  cases queued with
  | false =>
    obtain ⟨row, present, rfl⟩ := List.mem_map.1 member
    exact Or.inl (List.mem_map_of_mem (intakes row present))
  | true =>
    obtain ⟨row, present, rfl⟩ := List.mem_map.1 member
    rcases jobs with rows | same
    · rw [rows] at present
      rcases List.mem_append.1 present with old | new
      · exact Or.inl (List.mem_map_of_mem old)
      · rw [List.mem_singleton.1 new]
        exact Or.inr free
    · rw [same] at present
      exact Or.inl (List.mem_map_of_mem present)

theorem enqueue_free {newJob : NewQueueJob}
    {answer : QueueEnqueueResult} (call : enqueue hooks newJob db = (.ok answer, next)) :
    OnlyFree db next := by
  obtain ⟨free, intakes, cancellations, outcome, _⟩ := enqueueIn_ok (commit_ok call)
  refine .of_enqueue free (fun r member => intakes ▸ member) cancellations ?_
  rcases outcome with ⟨_, rows, _⟩ | ⟨_, same⟩
  · exact Or.inl rows
  · exact Or.inr same

theorem promote_free {claim : PromptIntakeClaim} {newJob : NewQueueJob}
    {answer : QueueEnqueueResult}
    (call : promotePromptIntakeToQueue hooks claim newJob now db = (.ok answer, next)) :
    OnlyFree db next := by
  obtain ⟨_, _, _, promotion⟩ := promote_spec call
  refine .of_enqueue promotion.free ?_ promotion.cancellations ?_
  · intro r member
    have found := Table.find_of_mem member
    by_cases own : r.jobId = claim.intake.jobId
    · rw [own, promotion.removed] at found
      cases found
    · rw [promotion.others _ own] at found
      exact Table.mem_of_find found
  · exact promotion.jobs.imp And.left id

theorem admit_free {new : NewPromptIntake}
    {answer : PromptIntakeAdmission} (call : admitPromptIntake hooks new db = (.ok answer, next)) :
    OnlyFree db next := by
  have result := commit_ok call
  unfold admitIn at result
  obtain ⟨_, _, result⟩ := bind_ok.1 result
  obtain ⟨existing, _, result⟩ := bind_ok.1 result
  have linked : ∀ {middle after : QueueDb ρ}, JournalOnly middle after → OnlyFree db middle →
      OnlyFree db after := by
    intro middle after only free
    refine ⟨only.cancellations.trans free.cancellations, ?_⟩
    intro queued r member
    rw [JournalOnly.requests only] at member
    exact free.requests queued r member
  cases existing with
  | some intake =>
    obtain ⟨after, link, result⟩ := bind_ok.1 result
    cases result
    exact linked (linkPromptOwner_ok link) (.refl db)
  | none =>
    obtain ⟨target, _, result⟩ := bind_ok.1 result
    obtain ⟨inserted, insertion, result⟩ := bind_ok.1 result
    obtain ⟨intake, _, result⟩ := bind_ok.1 result
    obtain ⟨after, link, result⟩ := bind_ok.1 result
    cases result
    refine linked (linkPromptOwner_ok link) ?_
    unfold insertIntake at insertion
    rcases ite_ok.1 insertion with ⟨_, insertion⟩ | ⟨free, insertion⟩
    · cases insertion
    · split at insertion
      · cases insertion
      · rcases ite_ok.1 insertion with ⟨_, insertion⟩ | ⟨_, insertion⟩
        · cases insertion
          exact .refl db
        · rcases ite_ok.1 insertion with ⟨_, insertion⟩ | ⟨_, insertion⟩
          · cases insertion
          · cases insertion
            refine ⟨rfl, ?_⟩
            intro queued r member
            cases queued with
            | true => exact Or.inl member
            | false =>
              obtain ⟨row, present, rfl⟩ := List.mem_map.1 member
              -- the inserted row is the new one or an old one
              have found := Table.find_of_mem present
              rw [Table.find_insertOrIgnore] at found
              split at found
              · next same =>
                cases old : db.intakes.find row.jobId with
                | none =>
                  rw [old, Option.getD_none, Option.some.injEq] at found
                  rw [← found]
                  have absent : cancelled db (new.row target).jobId
                      (new.row target).discordMessageId = false := by simpa using free
                  exact Or.inr absent
                | some before =>
                  rw [old, Option.getD_some, Option.some.injEq] at found
                  exact Or.inl (found ▸ List.mem_map_of_mem (Table.mem_of_find old))
              · exact Or.inl (List.mem_map_of_mem (Table.mem_of_find found))

/-- Claims of queue jobs change neither the id nor the message of a row. -/
theorem JobMove.names {row later : QueueRow} {event : QueueEvent} (move : JobMove row event later) :
    later.jobId = row.jobId ∧ later.discordMessageId = row.discordMessageId := by
  cases move <;> exact ⟨rfl, rfl⟩

theorem claims_fenced {event : QueueEvent} (fenced : Fenced db)
    (moves : JobsMove db event next) (intakes : next.intakes = db.intakes)
    (cancellations : next.cancellations = db.cancellations) : Fenced next := by
  refine fenced.of_subset ?_ cancellations
  intro queued r member
  cases queued with
  | false =>
    left
    rw [requests, intakes] at member
    exact member
  | true =>
    right
    obtain ⟨later, present, rfl⟩ := List.mem_map.1 member
    cases found : db.jobs.find later.jobId with
    | none =>
      have gone := moves.absent later.jobId found
      rw [Table.find_of_mem present] at gone
      cases gone
    | some row =>
      obtain ⟨after, same, move⟩ := moves.moved later.jobId row found
      rw [Table.find_of_mem present, Option.some.injEq] at same
      obtain ⟨id, message⟩ := JobMove.names move
      have old := fenced true (rowRequest row) (List.mem_map_of_mem (Table.mem_of_find found))
      show cancelled db later.jobId later.discordMessageId = false
      rw [same, id, message]
      exact old

/-! ## Runs -/

inductive FenceEvent where
  | admitted (answer : Except StoreError PromptIntakeAdmission)
  | promoted (answer : Except StoreError QueueEnqueueResult)
  | enqueued (answer : Except StoreError QueueEnqueueResult)
  | began (jobId : String) (answer : Except StoreError (Option StoredQueueJob))
  | marked (jobId : String) (answer : Except StoreError (Option StoredQueueJob))
  | cancelledLatest (target : String) (answer : Except StoreError (Option String))
  | recovered (target : String) (answer : Except StoreError RecoveryCancellation)
  | surrounded

/-- One operation.  In between, the rest of the program may change what it likes, but it neither
adds a request nor changes the names of one, and it leaves the cancellations alone. -/
inductive FenceStep : QueueDb ρ → FenceEvent → QueueDb ρ → Prop where
  | admitted {db next : QueueDb ρ} (hooks : QueueHooks ρ) (new : NewPromptIntake)
      {answer : Except StoreError PromptIntakeAdmission}
      (call : admitPromptIntake hooks new db = (answer, next)) : FenceStep db (.admitted answer) next
  | promoted {db next : QueueDb ρ} (hooks : QueueHooks ρ) (claim : PromptIntakeClaim)
      (newJob : NewQueueJob) (now : Timestamp) {answer : Except StoreError QueueEnqueueResult}
      (call : promotePromptIntakeToQueue hooks claim newJob now db = (answer, next)) :
      FenceStep db (.promoted answer) next
  | enqueued {db next : QueueDb ρ} (hooks : QueueHooks ρ) (newJob : NewQueueJob)
      {answer : Except StoreError QueueEnqueueResult}
      (call : enqueue hooks newJob db = (answer, next)) : FenceStep db (.enqueued answer) next
  | began {db next : QueueDb ρ} (hooks : QueueHooks ρ) (jobId : String) (baseline : List String)
      (generation : Int) (now : Rat) {answer : Except StoreError (Option StoredQueueJob)}
      (call : tryBeginAttempt hooks jobId baseline generation now db = (answer, next)) :
      FenceStep db (.began jobId answer) next
  | marked {db next : QueueDb ρ} (hooks : QueueHooks ρ) (claimed : StoredQueueJob) (turnId : String)
      (resident : Option String) (now : Rat) {answer : Except StoreError (Option StoredQueueJob)}
      (call : markRunningWithResidentIfClaimed hooks claimed turnId resident now db =
        (answer, next)) : FenceStep db (.marked claimed.jobId answer) next
  | cancelledLatest {db next : QueueDb ρ} (hooks : QueueHooks ρ) (target : String)
      (channel owner : Int) (now : Timestamp) (requireMirror : Bool)
      {answer : Except StoreError (Option String)}
      (call : cancelLatestPendingOnRoute hooks target channel owner now requireMirror db =
        (answer, next)) : FenceStep db (.cancelledLatest target answer) next
  | recovered {db next : QueueDb ρ} (hooks : QueueHooks ρ) (target : String) (channel owner : Int)
      (now : Timestamp) (check : QueueDb ρ → Except StoreError Unit)
      {answer : Except StoreError RecoveryCancellation}
      (call : cancelForRecoveryChecked hooks target channel owner now check db = (answer, next)) :
      FenceStep db (.recovered target answer) next
  | surrounded {db next : QueueDb ρ}
      (requests : ∀ queued, ∀ r ∈ Cancellation.requests next queued,
        ∃ old ∈ Cancellation.requests db queued, old.jobId = r.jobId ∧ old.message = r.message)
      (cancellations : next.cancellations = db.cancellations) : FenceStep db .surrounded next

/-- A recovery that succeeds finds its target clean. -/
def FenceEvent.clean (db : QueueDb ρ) : FenceEvent → Prop
  | .recovered target (.ok _) => RecoveryClean db target
  | _ => True

theorem fenceStep_iff {event : FenceEvent} (fenced : Fenced db)
    (step : FenceStep db event next) : Fenced next ↔ event.clean db := by
  have holds : Fenced next → (∀ target answer, event ≠ .recovered target (.ok answer)) →
      (Fenced next ↔ event.clean db) := by
    intro kept other
    refine ⟨fun _ => ?_, fun _ => kept⟩
    unfold FenceEvent.clean
    split
    · next target answer => exact absurd rfl (other target answer)
    · trivial
  cases step with
  | admitted hooks new call =>
    rename_i answer
    refine holds ?_ (by simp)
    cases answer with
    | error e => exact commit_error call ▸ fenced
    | ok answer => exact (admit_free call).fenced fenced
  | promoted hooks claim newJob now call =>
    rename_i answer
    refine holds ?_ (by simp)
    cases answer with
    | error e => exact commit_error call ▸ fenced
    | ok answer => exact (promote_free call).fenced fenced
  | enqueued hooks newJob call =>
    rename_i answer
    refine holds ?_ (by simp)
    cases answer with
    | error e => exact commit_error call ▸ fenced
    | ok answer => exact (enqueue_free call).fenced fenced
  | began hooks jobId baseline generation now call =>
    rename_i answer
    refine holds ?_ (by simp)
    cases answer with
    | error e => exact commit_error call ▸ fenced
    | ok answer =>
      have moves := queueStep_moves (.began hooks jobId baseline generation now call)
      rcases tryBeginAttempt_spec call with ⟨_, rfl⟩ | ⟨_, _, _, _, _, _, _, _, _, only, _⟩
      · exact fenced
      · exact claims_fenced fenced moves only.intakes only.cancellations
  | marked hooks claimed turnId resident now call =>
    rename_i answer
    refine holds ?_ (by simp)
    cases answer with
    | error e => exact commit_error call ▸ fenced
    | ok answer =>
      have moves := queueStep_moves (.marked hooks claimed turnId resident now call)
      rcases markRunning_spec call with ⟨_, rfl⟩ | ⟨_, _, only⟩
      · exact fenced
      · exact claims_fenced fenced moves only.intakes only.cancellations
  | cancelledLatest hooks target channel owner now requireMirror call =>
    rename_i answer
    refine holds ?_ (by simp)
    cases answer with
    | error e => exact commit_error call ▸ fenced
    | ok answer => exact cancelLatest_fenced fenced call
  | recovered hooks target channel owner now check call =>
    rename_i answer
    cases answer with
    | error e => exact holds (commit_error call ▸ fenced) (by simp)
    | ok answer => exact recovery_fenced_iff fenced call
  | surrounded kept cancellations =>
    refine holds ?_ (by simp)
    refine fenced.of_subset ?_ cancellations
    intro queued r member
    obtain ⟨old, present, id, message⟩ := kept queued r member
    exact Or.inr (id ▸ message ▸ fenced queued old present)

/-- The operation answers that this job of the target is cancelled. -/
inductive Tells : FenceEvent → String → String → Prop where
  | latest (target job : String) : Tells (.cancelledLatest target (.ok (some job))) target job
  | recovery (target job : String) (answer : RecoveryCancellation) (listed : job ∈ answer.jobs) :
      Tells (.recovered target (.ok answer)) target job

/-- The job that an operation starts -/
def FenceEvent.starts : FenceEvent → Option String
  | .began jobId (.ok (some _)) => some jobId
  | .marked jobId (.ok (some _)) => some jobId
  | _ => none

theorem fenceStep_persist {event : FenceEvent}
    (step : FenceStep db event next) : Persist db next := by
  -- only a cancellation writes the records, and it appends; a refused call changes nothing
  cases step with
  | admitted hooks new call =>
    rename_i answer
    cases answer with
    | error e => exact .of_eq (commit_error call ▸ rfl)
    | ok answer => exact .of_eq (admit_free call).cancellations
  | promoted hooks claim newJob now call =>
    rename_i answer
    cases answer with
    | error e => exact .of_eq (commit_error call ▸ rfl)
    | ok answer => exact .of_eq (promote_free call).cancellations
  | enqueued hooks newJob call =>
    rename_i answer
    cases answer with
    | error e => exact .of_eq (commit_error call ▸ rfl)
    | ok answer => exact .of_eq (enqueue_free call).cancellations
  | began hooks jobId baseline generation now call =>
    rename_i answer
    cases answer with
    | error e => exact .of_eq (commit_error call ▸ rfl)
    | ok answer =>
      rcases tryBeginAttempt_spec call with ⟨_, rfl⟩ | ⟨_, _, _, _, _, _, _, _, _, only, _⟩
      · exact .of_eq rfl
      · exact .of_eq only.cancellations
  | marked hooks claimed turnId resident now call =>
    rename_i answer
    cases answer with
    | error e => exact .of_eq (commit_error call ▸ rfl)
    | ok answer =>
      rcases markRunning_spec call with ⟨_, rfl⟩ | ⟨_, _, only⟩
      · exact .of_eq rfl
      · exact .of_eq only.cancellations
  | cancelledLatest hooks target channel owner now requireMirror call =>
    rename_i answer
    cases answer with
    | error e => exact .of_eq (commit_error call ▸ rfl)
    | ok answer => exact (cancelLatest_answered call).1
  | recovered hooks target channel owner now check call =>
    rename_i answer
    cases answer with
    | error e => exact .of_eq (commit_error call ▸ rfl)
    | ok answer => exact (recovery_answering call).persist
  | surrounded kept cancellations => exact .of_eq cancellations

theorem tells_recorded {before after : QueueDb ρ} {event : FenceEvent}
    (step : FenceStep before event after) (told : Tells event target job) :
    ∃ message, Pending before target job message ∧ Recorded after job message := by
  cases told with
  | latest =>
    cases step with
    | cancelledLatest hooks _ channel owner now requireMirror call =>
      exact (cancelLatest_answered call).2 job rfl
  | recovery _ _ answer listed =>
    cases step with
    | recovered hooks _ channel owner now check call =>
      exact (recovery_answering call).answered job listed

/-- What an operation starts in a fenced store has no name that is on record. -/
theorem starts_unnamed {event : FenceEvent} {id : String}
    {message : Option Int} (fenced : Fenced db) (recorded : Recorded db job message)
    (step : FenceStep db event next) (starts : event.starts = some id) :
    ∃ row, db.jobs.find id = some row ∧ (rowRequest row).named job message = false := by
  -- both starts find the job in the queue first
  have found : ∃ row, db.jobs.find id = some row := by
    cases step with
    | began hooks jobId baseline generation now call =>
      rename_i answer
      rcases answer with e | _ | claim <;> cases starts
      rcases tryBeginAttempt_spec call with ⟨impossible, _⟩ | ⟨_, row, _, found, _⟩
      · cases impossible
      · exact ⟨row, found⟩
    | marked hooks claimed turnId resident now call =>
      rename_i answer
      rcases answer with e | _ | claim <;> cases starts
      rcases markRunning_spec call with ⟨impossible, _⟩ | ⟨_, update, _⟩
      · cases impossible
      · obtain ⟨row, found, _⟩ := update.held
        exact ⟨row, found⟩
    | admitted | promoted | enqueued | cancelledLatest | recovered | surrounded => cases starts
  obtain ⟨row, found⟩ := found
  refine ⟨row, found, ?_⟩
  by_contra named
  rw [Bool.not_eq_false] at named
  have free := fenced true _ (List.mem_map_of_mem (Table.mem_of_find found))
  exact Bool.noConfusion (free.symm.trans (recorded.cancelled named))

/-- A run in which every recovery finds its target clean. -/
abbrev CleanRun (db : QueueDb ρ) (events : List FenceEvent) (next : QueueDb ρ) : Prop :=
  Run (fun s e t => FenceStep s e t ∧ e.clean s) db events next

/-- A run in which the fence holds after every operation. -/
abbrev FencedRun (db : QueueDb ρ) (events : List FenceEvent) (next : QueueDb ρ) : Prop :=
  Run (fun s e t => FenceStep s e t ∧ Fenced t) db events next

theorem CleanRun.fenced {db final : QueueDb ρ} {events : List FenceEvent} (fenced : Fenced db)
    (run : CleanRun db events final) : Fenced final :=
  run.preserves Fenced (fun _ _ _ step kept => (fenceStep_iff kept step.1).2 step.2) fenced

/-- What is on record stays on record, whatever runs. -/
theorem Recorded.run {final : QueueDb ρ} {events : List FenceEvent}
    {message : Option Int} (recorded : Recorded db job message) (run : Run FenceStep db events final) :
    Recorded final job message :=
  run.preserves (Recorded · job message)
    (fun _ _ _ step before => before.persist (fenceStep_persist step)) recorded

theorem Recorded.clean_run {final : QueueDb ρ} {events : List FenceEvent}
    {message : Option Int} (recorded : Recorded db job message) (run : CleanRun db events final) :
    Recorded final job message :=
  run.preserves (Recorded · job message)
    (fun _ _ _ step before => before.persist (fenceStep_persist step.1)) recorded

/-- From a fenced store, the fence holds after every operation of a run exactly when every
recovery in it finds its target clean.  No job that a cancellation names is ever begun.  A job that
an operation answers as cancelled was a request of its target, and it is on record with its message
ever after, whatever runs; in a clean run no later operation starts a job with one of the two. -/
theorem cancellation_fence {db final : QueueDb ρ} {events : List FenceEvent} (fenced : Fenced db) :
    (FencedRun db events final ↔ CleanRun db events final) ∧
      (∀ before after jobId claim, FenceStep (before : QueueDb ρ) (.began jobId (.ok (some claim))) after →
        ∃ row, before.jobs.find jobId = some row ∧
          cancelled before row.jobId row.discordMessageId = false) ∧
      (∀ before after last tell late target job, FenceStep (before : QueueDb ρ) tell after →
        Run FenceStep after late last → Tells tell target job →
        ∃ message, Pending before target job message ∧ Recorded last job message) ∧
      ∀ early tell late last target job, CleanRun db (early ++ tell :: late) last →
        Tells tell target job → ∃ before message, CleanRun db early before ∧
          Pending before target job message ∧ Recorded last job message ∧
          ∀ start next id, FenceStep last start next → start.starts = some id →
            ∃ row, last.jobs.find id = some row ∧ (rowRequest row).named job message = false := by
  refine ⟨?_, ?_, ?_, ?_⟩
  · constructor
    · intro run
      induction run with
      | nil => exact .nil _
      | cons first _ ih =>
        exact .cons ⟨first.1, (fenceStep_iff fenced first.1).1 first.2⟩ (ih first.2)
    · intro run
      induction run with
      | nil => exact .nil _
      | cons first _ ih =>
        have kept := (fenceStep_iff fenced first.1).2 first.2
        exact .cons ⟨first.1, kept⟩ (ih kept)
  · intro before after jobId claim step
    cases step with
    -- a begin looks for a cancellation itself, in any run
    | began hooks _ baseline generation now call =>
      rcases tryBeginAttempt_spec call with
        ⟨impossible, _⟩ | ⟨_, row, _, found, _, _, _, _, _, _, free⟩
      · cases impossible
      · exact ⟨row, found, free⟩
  · intro before after last tell late target job step run told
    obtain ⟨message, pending, recorded⟩ := tells_recorded step told
    exact ⟨message, pending, recorded.run run⟩
  · intro early tell late last target job run told
    -- the fence at the end of the run is what the next start meets
    have kept := run.fenced fenced
    obtain ⟨before, after, front, step, back⟩ := run.split_at
    obtain ⟨message, pending, recorded⟩ := tells_recorded step.1 told
    have lasting := recorded.clean_run back
    exact ⟨before, message, front, pending, lasting,
      fun start next id once starts => starts_unnamed kept lasting once starts⟩

/-! ## One request, asked on one target and queued on another -/

def askPayload : Json :=
  .object [("plan", .object [("Execute", .object [("Ask", .object [("prompt", .text "prompt")])])]),
    ("version", .integer 1)]

def stagedAsk : IngressRow where
  ingressId := "message-42"
  kind := .message
  eventId := some 42
  channelId := 7
  ownerUserId := 1
  payload := askPayload
  state := .staged
  phase := "staged"
  targetThreadId := some "thread"
  ownerKind := none
  ownerId := none
  outcome := none
  createdAt := 0
  updatedAt := 0

/-- A store without requests, and one staged ask. -/
def askedOnly : QueueDb Unit :=
  { onlyJob waitingRow with jobs := .empty, ingress := ⟨[stagedAsk], List.nodup_singleton _⟩ }

/-- The message of the ask, as a job of some target. -/
def askedJob (target : String) : NewQueueJob where
  jobId := "job"
  targetThreadId := target
  channelId := 7
  ownerUserId := some 1
  discordMessageId := some 42
  appServerGeneration := 3
  prompt := "prompt"
  queued := true
  ackSent := false
  createdAt := 1

theorem askedOnly_fenced : Fenced askedOnly := by
  intro queued r member
  cases queued <;> cases member

/-- The message is queued on another target.  The recovery of its own target cancels it and leaves
that job in the queue. -/
theorem recovery_breaks_fence :
    ∃ middle final : QueueDb Unit, ∃ queued recovered,
      Run FenceStep askedOnly [.enqueued (.ok queued), .recovered "thread" (.ok recovered)] final ∧
      enqueue quietHooks (askedJob "other") askedOnly = (.ok queued, middle) ∧
      Fenced askedOnly ∧ Fenced middle ∧
      (final.jobs.find "job").map (·.discordMessageId) = some (some 42) ∧
      cancelled final "job" (some 42) = true ∧ ¬ Fenced final := by
  have queued : enqueue quietHooks (askedJob "other") askedOnly =
      (.ok ⟨decoded (askedJob "other").row, true⟩,
        (enqueue quietHooks (askedJob "other") askedOnly).2) := by rfl
  generalize stored : (enqueue quietHooks (askedJob "other") askedOnly).2 = middle at queued
  have recovered : cancelForRecovery quietHooks "thread" 7 1 (some 2) middle =
      (.ok ⟨["ingress:message-42"], 0⟩,
        (cancelForRecovery quietHooks "thread" 7 1 (some 2) middle).2) := by
    rw [← stored]
    rfl
  generalize left : (cancelForRecovery quietHooks "thread" 7 1 (some 2) middle).2 = final at recovered
  have first := FenceStep.enqueued quietHooks _ queued
  have second := FenceStep.recovered quietHooks _ _ _ _ _ recovered
  have found : final.jobs.find "job" = some (askedJob "other").row := by
    rw [← left, ← stored]
    rfl
  have named : cancelled final "job" (some 42) = true := by
    rw [← left, ← stored]
    rfl
  have fenced := (fenceStep_iff askedOnly_fenced first).2 trivial
  refine ⟨middle, final, _, _, .cons first (.single second), queued, askedOnly_fenced, fenced,
    by rw [found]; rfl, named, ?_⟩
  intro kept
  have no := kept true _ (List.mem_map_of_mem (Table.mem_of_find found))
  exact Bool.noConfusion (no.symm.trans named)

/-- With nothing else of that message, the recovery is clean, and the message stays on record. -/
theorem recovery_keeps_fence : ∃ final : QueueDb Unit,
    FencedRun askedOnly [.recovered "thread" (.ok ⟨["ingress:message-42"], 0⟩)] final ∧
    ∃ message, Pending askedOnly "thread" "ingress:message-42" message ∧
      Recorded final "ingress:message-42" message ∧
      ∀ start next id, FenceStep final start next → start.starts = some id →
        ∃ row, final.jobs.find id = some row ∧
          (rowRequest row).named "ingress:message-42" message = false := by
  have recovered : cancelForRecovery quietHooks "thread" 7 1 (some 2) askedOnly =
      (.ok ⟨["ingress:message-42"], 0⟩,
        (cancelForRecovery quietHooks "thread" 7 1 (some 2) askedOnly).2) := by rfl
  generalize (cancelForRecovery quietHooks "thread" 7 1 (some 2) askedOnly).2 = final at recovered
  have clean : RecoveryClean askedOnly "thread" := by
    constructor
    · rintro (_ | _) r ⟨⟩
    · rintro row _ (_ | _) r ⟨⟩
  have run : CleanRun askedOnly [.recovered "thread" (.ok ⟨["ingress:message-42"], 0⟩)] final :=
    .single ⟨.recovered quietHooks _ _ _ _ _ recovered, clean⟩
  have fence := @cancellation_fence Unit askedOnly final
    [.recovered "thread" (.ok ⟨["ingress:message-42"], 0⟩)] askedOnly_fenced
  obtain ⟨before, message, front, pending, recorded⟩ := fence.2.2.2 [] _ [] _ "thread" _ run
    (.recovery "thread" "ingress:message-42" _ (List.mem_singleton_self _))
  cases front
  exact ⟨final, fence.1.2 run, message, pending, recorded⟩

end CodexRemote.Verified.Cancellation

import Mathlib.Algebra.Order.Ring.Rat
import CodexRemote.Verified.PromptIntake.Moves
import CodexRemote.Verified.Queue.Claims

/-! # Leases of an intake and its one promotion -/

namespace CodexRemote.Verified.PromptIntake

open Foundations Store Verified.Queue

variable {ρ : Type}

/-! ## Events -/

inductive IntakeEvent where
  | claimed (jobId : String) (now : Timestamp) (answer : Except StoreError (Option PromptIntakeClaim))
  | renewed (claim : PromptIntakeClaim) (now : Timestamp)
      (answer : Except StoreError (Option PromptIntakeClaim))
  | failed (claim : PromptIntakeClaim) (answer : Except StoreError (Option PromptIntake))
  | releasedAll (answer : Except StoreError Nat)
  | promoted (claim : PromptIntakeClaim) (newJob : NewQueueJob) (now : Timestamp)
      (answer : Except StoreError QueueEnqueueResult)
  | enqueued (newJob : NewQueueJob) (answer : Except StoreError QueueEnqueueResult)
  | surrounded

/-- The message of the queue job with this id, when there is one. -/
def messageOf (db : QueueDb ρ) (jobId : String) : Option (Option Int) :=
  (db.jobs.find jobId).map QueueRow.discordMessageId

def IntakeEvent.refused : IntakeEvent → Prop
  | .claimed _ _ (.error _) | .renewed _ _ (.error _) | .failed _ (.error _)
  | .releasedAll (.error _) | .promoted _ _ _ (.error _) | .enqueued _ (.error _) => True
  | _ => False

/-- One operation, or a failure in SQLite.  In between, the rest of the program may move the
queue's jobs as it likes, as long as it neither adds nor removes one. -/
inductive IntakeCall : QueueDb ρ → IntakeEvent → QueueDb ρ → Prop where
  | claimed {db next : QueueDb ρ} (hooks : QueueHooks ρ) (jobId token : String)
      (now expires : Timestamp) {answer : Except StoreError (Option PromptIntakeClaim)}
      (call : tryClaimPromptIntake hooks jobId now expires token db = (answer, next)) :
      IntakeCall db (.claimed jobId now answer) next
  | renewed {db next : QueueDb ρ} (hooks : QueueHooks ρ) (claim : PromptIntakeClaim)
      (now expires : Timestamp) {answer : Except StoreError (Option PromptIntakeClaim)}
      (call : renewPromptIntakeClaimIfCurrent hooks claim now expires db = (answer, next)) :
      IntakeCall db (.renewed claim now answer) next
  | failed {db next : QueueDb ρ} (hooks : QueueHooks ρ) (claim : PromptIntakeClaim) (error : String)
      (retryAfter : Timestamp) (observedAt : Rat) {answer : Except StoreError (Option PromptIntake)}
      (call : recordPromptIntakeFailureIfClaimed hooks claim error retryAfter observedAt db =
        (answer, next)) : IntakeCall db (.failed claim answer) next
  | releasedAll {db next : QueueDb ρ} (hooks : QueueHooks ρ) {answer : Except StoreError Nat}
      (call : releaseAllPromptIntakeClaims hooks db = (answer, next)) :
      IntakeCall db (.releasedAll answer) next
  | promoted {db next : QueueDb ρ} (hooks : QueueHooks ρ) (claim : PromptIntakeClaim)
      (newJob : NewQueueJob) (now : Timestamp) {answer : Except StoreError QueueEnqueueResult}
      (call : promotePromptIntakeToQueue hooks claim newJob now db = (answer, next)) :
      IntakeCall db (.promoted claim newJob now answer) next
  | enqueued {db next : QueueDb ρ} (hooks : QueueHooks ρ) (newJob : NewQueueJob)
      {answer : Except StoreError QueueEnqueueResult}
      (call : enqueue hooks newJob db = (answer, next)) : IntakeCall db (.enqueued newJob answer) next
  | refused (db : QueueDb ρ) (event : IntakeEvent) (error : event.refused) : IntakeCall db event db
  | surrounded {db next : QueueDb ρ} (intakes : next.intakes = db.intakes)
      (jobs : messageOf next = messageOf db) : IntakeCall db .surrounded next

/-- A lease that a worker was given and has not given back. -/
structure Grant where
  jobId : String
  token : String
  expires : Rat

def grantOf (claim : PromptIntakeClaim) : Grant :=
  ⟨claim.intake.jobId, claim.claimToken, claim.intake.claimExpiresAt⟩

namespace IntakeEvent

/-- The leases after an operation: a claim or a renewal gives one, a recorded failure gives back
the leases of its token, a promotion those of its intake, and a release all of them. -/
def grants (before : List Grant) : IntakeEvent → List Grant
  | .claimed _ _ (.ok (some claim)) | .renewed _ _ (.ok (some claim)) => grantOf claim :: before
  | .failed claim (.ok (some _)) => before.filter fun g =>
    !(g.jobId == claim.intake.jobId && g.token == claim.claimToken)
  | .releasedAll (.ok _) => []
  | .promoted claim _ _ (.ok _) => before.filter (·.jobId != claim.intake.jobId)
  | _ => before

def time : IntakeEvent → Timestamp
  | .claimed _ now _ | .renewed _ now _ | .promoted _ _ now _ => now
  | _ => none

/-- A successful promotion of the intake. -/
def promotes (jobId : String) : IntakeEvent → Bool
  | .promoted claim _ _ (.ok _) => claim.intake.jobId == jobId
  | _ => false

/-- An enqueue that creates a job of this id. -/
def enqueues (jobId : String) : IntakeEvent → Bool
  | .enqueued newJob (.ok answer) => newJob.jobId == jobId && answer.created
  | _ => false

end IntakeEvent

/-- The store, the time of the last operation, and the leases that are out. -/
structure IntakeWorld (ρ : Type) where
  db : QueueDb ρ
  clock : Rat
  grants : List Grant

structure IntakeStep (world : IntakeWorld ρ) (event : IntakeEvent) (next : IntakeWorld ρ) : Prop where
  call : IntakeCall world.db event next.db
  time : ∀ t, event.time = some t → world.clock ≤ t
  clock : next.clock = event.time.getD world.clock
  grants : next.grants = event.grants world.grants

abbrev IntakeRun (world : IntakeWorld ρ) (events : List IntakeEvent) (next : IntakeWorld ρ) : Prop :=
  Run IntakeStep world events next

variable {event : IntakeEvent} {world final : IntakeWorld ρ} {db next : QueueDb ρ} {jobId : String}
  {events : List IntakeEvent}

theorem IntakeStep.later {next : IntakeWorld ρ}
    (step : IntakeStep world event next) : world.clock ≤ next.clock := by
  rw [step.clock]
  cases time : event.time with
  | none => exact Rat.le_refl
  | some t => exact step.time t time

/-! ## Moves of an intake -/

/-- The moves of one intake: none at all, a change of its lease by the operation that is named,
or its promotion. -/
inductive IntakeMove (jobId : String) : Option PromptIntake → IntakeEvent → Option PromptIntake → Prop where
  | still {intake : Option PromptIntake} {event : IntakeEvent}
      (leases : ∀ g ∈ event.grants [], g.jobId ≠ jobId) (unpromoted : event.promotes jobId = false) :
      IntakeMove jobId intake event intake
  | claim {row : PromptIntake} {token : String} {start finish : Rat}
      (free : row.claimExpiresAt ≤ start) :
      IntakeMove jobId (some row)
        (.claimed jobId (some start) (.ok (some ⟨row.claim token finish start, token⟩)))
        (some (row.claim token finish start))
  | renew {row : PromptIntake} {claim : PromptIntakeClaim} {start finish : Rat}
      (token : row.claimToken = some claim.claimToken) (later : row.claimExpiresAt < finish) :
      IntakeMove jobId (some row)
        (.renewed claim (some start) (.ok (some ⟨row.renew finish start, claim.claimToken⟩)))
        (some (row.renew finish start))
  | fail {row failed : PromptIntake} {claim : PromptIntakeClaim} {answer : PromptIntake}
      (own : claim.intake.jobId = jobId) (token : row.claimToken = some claim.claimToken)
      (message : failed.discordMessageId = row.discordMessageId) :
      IntakeMove jobId (some row) (.failed claim (.ok (some answer))) (some failed)
  | release {row : PromptIntake} {released : Nat} :
      IntakeMove jobId (some row) (.releasedAll (.ok released)) (some row.release)
  | promote {row : PromptIntake} {claim : PromptIntakeClaim} {newJob : NewQueueJob} {now : Timestamp}
      {answer : QueueEnqueueResult} (own : claim.intake.jobId = jobId) :
      IntakeMove jobId (some row) (.promoted claim newJob now (.ok answer)) none

theorem IntakeMove.of_update {db next : QueueDb ρ} {event : IntakeEvent} {changed : String}
    {row later : PromptIntake} (update : IntakeUpdate db next changed row later)
    (leases : ∀ g ∈ event.grants [], g.jobId = changed)
    (unpromoted : ∀ jobId, event.promotes jobId = false)
    (move : IntakeMove changed (some row) event (some later)) (jobId : String) :
    IntakeMove jobId (db.intakes.find jobId) event (next.intakes.find jobId) := by
  by_cases same : jobId = changed
  · subst same
    rw [update.found, update.changed]
    exact move
  · rw [update.others jobId same]
    refine .still ?_ (unpromoted jobId)
    intro g member equal
    exact same (equal.symm.trans (leases g member))

theorem IntakeMove.of_same {db next : QueueDb ρ} {event : IntakeEvent}
    (same : next.intakes = db.intakes) (leases : event.grants [] = [])
    (unpromoted : ∀ jobId, event.promotes jobId = false) (jobId : String) :
    IntakeMove jobId (db.intakes.find jobId) event (next.intakes.find jobId) := by
  rw [same]
  exact .still (by simp [leases]) (unpromoted jobId)

/-- An operation moves each intake as `IntakeMove` says. -/
theorem intakeCall_moves (call : IntakeCall db event next) (jobId : String) :
    IntakeMove jobId (db.intakes.find jobId) event (next.intakes.find jobId) := by
  cases call with
  | claimed hooks changed token now expires call =>
    rename_i answer
    cases answer with
    | error e => exact .of_same (congrArg QueueDb.intakes (commit_error call)) rfl (fun _ => rfl) jobId
    | ok answer =>
      rcases tryClaim_spec call with ⟨rfl, rfl⟩ | ⟨start, finish, row, rfl, _, free, rfl, update⟩
      · exact .of_same rfl rfl (fun _ => rfl) jobId
      · have key := Table.find_key update.found
        refine .of_update update ?_ (fun _ => rfl) (.claim free) jobId
        intro g member
        rw [List.mem_singleton.1 member]
        exact key
  | renewed hooks claim now expires call =>
    rename_i answer
    cases answer with
    | error e => exact .of_same (congrArg QueueDb.intakes (commit_error call)) rfl (fun _ => rfl) jobId
    | ok answer =>
      rcases renew_spec call with
        ⟨rfl, rfl⟩ | ⟨start, finish, row, rfl, token, _, later, rfl, update⟩
      · exact .of_same rfl rfl (fun _ => rfl) jobId
      · have key := Table.find_key update.found
        refine .of_update update ?_ (fun _ => rfl) (.renew token later) jobId
        intro g member
        rw [List.mem_singleton.1 member]
        exact key
  | failed hooks claim error retryAfter observedAt call =>
    rename_i answer
    cases answer with
    | error e => exact .of_same (congrArg QueueDb.intakes (commit_error call)) rfl (fun _ => rfl) jobId
    | ok answer =>
      rcases recordFailure_spec call with ⟨rfl, rfl⟩ | ⟨retry, row, token, rfl, update⟩
      · exact .of_same rfl rfl (fun _ => rfl) jobId
      · exact .of_update update (by simp [IntakeEvent.grants]) (fun _ => rfl)
          (.fail rfl token rfl) jobId
  | releasedAll hooks call =>
    rename_i answer
    cases answer with
    | error e => exact .of_same (congrArg QueueDb.intakes (commit_error call)) rfl (fun _ => rfl) jobId
    | ok released =>
      obtain ⟨_, final⟩ := updateIntakes_ok (commit_ok call)
      rw [final]
      simp only
      rw [Table.find_update]
      cases db.intakes.find jobId with
      | none => exact .still (by simp [IntakeEvent.grants]) rfl
      | some row =>
        rw [Option.map_some]
        split
        · exact .release
        · exact .still (by simp [IntakeEvent.grants]) rfl
  | promoted hooks claim newJob now call =>
    rename_i answer
    cases answer with
    | error e => exact .of_same (congrArg QueueDb.intakes (commit_error call)) rfl (fun _ => rfl) jobId
    | ok answer =>
      obtain ⟨start, row, _, promotion⟩ := promote_spec call
      by_cases same : jobId = claim.intake.jobId
      · subst same
        rw [promotion.found, promotion.removed]
        exact .promote rfl
      · rw [promotion.others jobId same]
        refine .still (by simp [IntakeEvent.grants]) ?_
        simp only [IntakeEvent.promotes, beq_eq_false_iff_ne]
        exact fun equal => same equal.symm
  | enqueued hooks newJob call =>
    rename_i answer
    cases answer with
    | error e => exact .of_same (congrArg QueueDb.intakes (commit_error call)) rfl (fun _ => rfl) jobId
    | ok answer =>
      obtain ⟨_, intakes, _⟩ := enqueueIn_ok (commit_ok call)
      exact .of_same intakes rfl (fun _ => rfl) jobId
  | refused _ error =>
    unfold IntakeEvent.refused at error
    split at error <;> first | exact .of_same rfl rfl (fun _ => rfl) jobId | exact error.elim
  | surrounded intakes jobs => exact .of_same intakes rfl (fun _ => rfl) jobId

theorem IntakeMove.message {jobId : String} {row later : PromptIntake} {event : IntakeEvent}
    (move : IntakeMove jobId (some row) event (some later)) :
    later.discordMessageId = row.discordMessageId := by
  cases move with
  | still | claim | renew | release => rfl
  | fail _ _ message => exact message

theorem IntakeMove.absent {later : Option PromptIntake}
    (move : IntakeMove jobId none event later) : later = none ∧ event.promotes jobId = false := by
  cases move with
  | still _ unpromoted => exact ⟨rfl, unpromoted⟩

theorem IntakeMove.promoted {jobId : String} {intake later : Option PromptIntake}
    {event : IntakeEvent} (move : IntakeMove jobId intake event later)
    (promotes : event.promotes jobId = true) : later = none := by
  cases move with
  | still _ unpromoted =>
    rw [unpromoted] at promotes
    cases promotes
  | claim | renew | fail | release => cases promotes
  | promote => rfl

/-! ## Leases -/

/-- Every unexpired lease is the one on its row, which does not end before it. -/
def LeasesHeld (world : IntakeWorld ρ) : Prop :=
  ∀ g ∈ world.grants, world.clock < g.expires →
    ∃ row, world.db.intakes.find g.jobId = some row ∧ row.claimToken = some g.token ∧
      g.expires ≤ row.claimExpiresAt

theorem mem_grants {before : List Grant} {g : Grant}
    (member : g ∈ event.grants before) : g ∈ event.grants [] ∨ g ∈ before := by
  unfold IntakeEvent.grants at member ⊢
  split at member
  · rcases List.mem_cons.1 member with rfl | old
    · exact Or.inl (List.mem_cons_self ..)
    · exact Or.inr old
  · rcases List.mem_cons.1 member with rfl | old
    · exact Or.inl (List.mem_cons_self ..)
    · exact Or.inr old
  · exact Or.inr (List.mem_filter.1 member).1
  · cases member
  · exact Or.inr (List.mem_filter.1 member).1
  · exact Or.inr member

theorem LeasesHeld.step {world next : IntakeWorld ρ} {event : IntakeEvent}
    (held : LeasesHeld world) (step : IntakeStep world event next) : LeasesHeld next := by
  intro g member unexpired
  rw [step.grants] at member
  have still_unexpired : world.clock < g.expires := lt_of_le_of_lt step.later unexpired
  have move := intakeCall_moves step.call g.jobId
  generalize before_eq : world.db.intakes.find g.jobId = before at move
  generalize after_eq : next.db.intakes.find g.jobId = after at move
  -- what the row says about a lease that was out before
  have old : g ∈ world.grants → ∃ row, before = some row ∧ row.claimToken = some g.token ∧
      g.expires ≤ row.claimExpiresAt := by
    intro earlier
    rw [← before_eq]
    exact held g earlier still_unexpired
  cases move with
  | still leases =>
    rcases mem_grants member with new | earlier
    · exact absurd rfl (leases g new)
    · exact old earlier
  | @claim row token start finish free =>
    rcases List.mem_cons.1 member with rfl | earlier
    · exact ⟨_, rfl, rfl, le_refl _⟩
    · obtain ⟨_, row_eq, _, covers⟩ := old earlier
      cases row_eq
      have now : next.clock = start := step.clock
      exact absurd (lt_of_lt_of_le (now ▸ unexpired) (covers.trans free)) (lt_irrefl _)
  | @renew row claim start finish token later =>
    rcases List.mem_cons.1 member with rfl | earlier
    · exact ⟨_, rfl, token, le_refl _⟩
    · obtain ⟨_, row_eq, same, covers⟩ := old earlier
      cases row_eq
      exact ⟨_, rfl, same, covers.trans later.le⟩
  | @fail row failed claim answer own token =>
    obtain ⟨earlier, different⟩ := List.mem_filter.1 member
    obtain ⟨_, row_eq, same, _⟩ := old earlier
    cases row_eq
    rw [token, Option.some.injEq] at same
    simp [own, same] at different
  | release => cases member
  | promote own =>
    obtain ⟨_, different⟩ := List.mem_filter.1 member
    simp [own] at different

theorem LeasesHeld.run
    (run : IntakeRun world events final) (held : LeasesHeld world) : LeasesHeld final :=
  run.preserves LeasesHeld (fun _ _ _ step held => held.step step) held

/-! ## One promotion -/

theorem absent_run
    (run : IntakeRun world events final) (absent : world.db.intakes.find jobId = none) :
    final.db.intakes.find jobId = none ∧ events.countP (·.promotes jobId) = 0 := by
  induction run with
  | nil => exact ⟨absent, rfl⟩
  | cons first _ ih =>
    have move := intakeCall_moves first.call jobId
    rw [absent] at move
    obtain ⟨gone, unpromoted⟩ := move.absent
    obtain ⟨still, count⟩ := ih gone
    exact ⟨still, by rw [List.countP_cons, count, unpromoted]; rfl⟩

theorem promoted_at_most_once (run : IntakeRun world events final) (jobId : String) :
    events.countP (·.promotes jobId) ≤ 1 := by
  induction run with
  | nil => simp
  | @cons world next final event events first rest ih =>
    cases promotes : event.promotes jobId with
    | false => simpa [List.countP_cons, promotes] using ih
    | true =>
      have gone := (intakeCall_moves first.call jobId).promoted promotes
      simp [promotes, (absent_run rest gone).2]

/-! ## The jobs of the queue -/

/-- Two jobs with one message are one job, as the unique index has it. -/
def MessagesUnique (db : QueueDb ρ) : Prop :=
  ∀ a b message, messageOf db a = some (some message) → messageOf db b = some (some message) → a = b

/-- An operation leaves the requests of the queue as they are, or adds one. -/
inductive RequestsMove (db : QueueDb ρ) (event : IntakeEvent) (next : QueueDb ρ) : Prop where
  | same (kept : messageOf next = messageOf db)
  | inserted (newJob : NewQueueJob)
      (named : event.enqueues newJob.jobId = true ∨ event.promotes newJob.jobId = true)
      (absent : messageOf db newJob.jobId = none)
      (fresh : ∀ other message, newJob.discordMessageId = some message →
        messageOf db other ≠ some (some message))
      (added : ∀ id, messageOf next id =
        if newJob.jobId = id then some newJob.discordMessageId else messageOf db id)

theorem RequestsMove.of_append {newJob : NewQueueJob}
    (named : event.enqueues newJob.jobId = true ∨ event.promotes newJob.jobId = true)
    (rows : next.jobs.rows = db.jobs.rows ++ [newJob.row])
    (different : ∀ r ∈ db.jobs.rows, sameRequest newJob.jobId newJob.discordMessageId r.jobId
      r.discordMessageId = false) : RequestsMove db event next := by
  refine .inserted newJob named ?_ ?_ ?_
  · cases found : db.jobs.find newJob.jobId with
    | none => simp [messageOf, found]
    | some row =>
      have no := different row (Table.mem_of_find found)
      rw [sameRequest_iff.2 (Or.inl (Table.find_key found))] at no
      cases no
  · intro other message own taken
    obtain ⟨row, found, same⟩ := Option.map_eq_some_iff.1 taken
    have no := different row (Table.mem_of_find found)
    rw [sameRequest_iff.2 (Or.inr ⟨by simp [own], same.trans own.symm⟩)] at no
    cases no
  · intro id
    unfold messageOf
    rw [Table.find_append rows]
    show Option.map _ (if newJob.jobId = id then _ else _) = _
    split <;> rfl

theorem intakeCall_requests (call : IntakeCall db event next) : RequestsMove db event next := by
  have same : next.jobs = db.jobs → RequestsMove db event next := by
    intro jobs
    exact .same (by unfold messageOf; rw [jobs])
  cases call with
  | claimed hooks changed token now expires call =>
    rename_i answer
    cases answer with
    | error e => exact same (congrArg QueueDb.jobs (commit_error call))
    | ok answer =>
      rcases tryClaim_spec call with ⟨_, rfl⟩ | ⟨_, _, _, _, _, _, _, update⟩
      · exact same rfl
      · exact same update.jobs
  | renewed hooks claim now expires call =>
    rename_i answer
    cases answer with
    | error e => exact same (congrArg QueueDb.jobs (commit_error call))
    | ok answer =>
      rcases renew_spec call with ⟨_, rfl⟩ | ⟨_, _, _, _, _, _, _, _, update⟩
      · exact same rfl
      · exact same update.jobs
  | failed hooks claim error retryAfter observedAt call =>
    rename_i answer
    cases answer with
    | error e => exact same (congrArg QueueDb.jobs (commit_error call))
    | ok answer =>
      rcases recordFailure_spec call with ⟨_, rfl⟩ | ⟨_, _, _, _, update⟩
      · exact same rfl
      · exact same update.jobs
  | releasedAll hooks call =>
    rename_i answer
    cases answer with
    | error e => exact same (congrArg QueueDb.jobs (commit_error call))
    | ok released =>
      obtain ⟨_, final⟩ := updateIntakes_ok (commit_ok call)
      exact same (by rw [final])
  | promoted hooks claim newJob now call =>
    rename_i answer
    cases answer with
    | error e => exact same (congrArg QueueDb.jobs (commit_error call))
    | ok answer =>
      obtain ⟨_, _, _, promotion⟩ := promote_spec call
      rcases promotion.jobs with ⟨rows, different⟩ | jobs
      · refine .of_append (Or.inr ?_) rows different
        simp [IntakeEvent.promotes, promotion.jobId]
      · exact same jobs
  | enqueued hooks newJob call =>
    rename_i answer
    cases answer with
    | error e => exact same (congrArg QueueDb.jobs (commit_error call))
    | ok answer =>
      obtain ⟨_, _, _, ⟨created, rows, different⟩ | ⟨_, jobs⟩, _⟩ := enqueueIn_ok (commit_ok call)
      · refine .of_append (Or.inl ?_) rows different
        simp [IntakeEvent.enqueues, created]
      · exact same jobs
  | refused => exact same rfl
  | surrounded _ jobs => exact .same jobs

theorem RequestsMove.keeps {id : String} {message : Option Int} (move : RequestsMove db event next)
    (present : messageOf db id = some message) : messageOf next id = some message := by
  cases move with
  | same kept => rw [kept, present]
  | inserted newJob _ absent _ added =>
    rw [added]
    split
    · next here =>
      rw [here, present] at absent
      cases absent
    · exact present

theorem RequestsMove.unique
    (move : RequestsMove db event next) (unique : MessagesUnique db) : MessagesUnique next := by
  cases move with
  | same kept =>
    unfold MessagesUnique
    rw [kept]
    exact unique
  | inserted newJob _ _ fresh added =>
    intro a b message left right
    rw [added] at left right
    split at left <;> split at right
    · next here there => exact here.symm.trans there
    · exact absurd right (fresh b message (Option.some.inj left))
    · exact absurd left (fresh a message (Option.some.inj right))
    · exact unique a b message left right

theorem RequestsMove.unnamed {id : String}
    (move : RequestsMove db event next) (enqueues : event.enqueues id = false)
    (promotes : event.promotes id = false) : messageOf next id = messageOf db id := by
  cases move with
  | same kept => rw [kept]
  | inserted newJob named _ _ added =>
    rw [added]
    split
    · next here =>
      subst here
      rw [enqueues, promotes] at named
      simp at named
    · rfl

theorem intakeCall_promoted {claim : PromptIntakeClaim}
    {newJob : NewQueueJob} {now : Timestamp} {answer : QueueEnqueueResult}
    (call : IntakeCall db (.promoted claim newJob now (.ok answer)) next) :
    ∃ start row, now = some start ∧ Promotion db next claim newJob start row := by
  cases call with
  | promoted hooks _ _ _ call => exact promote_spec call
  | refused _ error => exact error.elim

/-! ## An intake through a run -/

/-- The request waits in the intakes. -/
def Waiting (db : QueueDb ρ) (jobId : String) (message : Option Int) : Prop :=
  ∃ row, db.intakes.find jobId = some row ∧ row.discordMessageId = message

/-- The request has left the intakes for the queue. -/
def Handed (db : QueueDb ρ) (jobId : String) (message : Option Int) : Prop :=
  db.intakes.find jobId = none ∧ messageOf db jobId = some message

theorem Handed.step {db next : QueueDb ρ} {event : IntakeEvent} {jobId : String}
    {message : Option Int} (handed : Handed db jobId message) (call : IntakeCall db event next) :
    Handed next jobId message := by
  have move := intakeCall_moves call jobId
  rw [handed.1] at move
  exact ⟨move.absent.1, (intakeCall_requests call).keeps handed.2⟩

/-- A waiting request goes on waiting, or its promotion hands it over. -/
theorem Waiting.step {db next : QueueDb ρ} {event : IntakeEvent} {jobId : String}
    {message : Option Int} (waiting : Waiting db jobId message) (call : IntakeCall db event next) :
    (Waiting next jobId message ∧ event.promotes jobId = false) ∨ Handed next jobId message := by
  obtain ⟨row, found, own⟩ := waiting
  have move := intakeCall_moves call jobId
  rw [found] at move
  cases promotes : event.promotes jobId with
  | false =>
    left
    generalize after_eq : next.intakes.find jobId = after at move
    cases after with
    | none =>
      cases move with
      | promote own' => simp [IntakeEvent.promotes, own'] at promotes
    | some later => exact ⟨⟨later, after_eq, move.message.trans own⟩, rfl⟩
  | true =>
    right
    refine ⟨move.promoted promotes, ?_⟩
    unfold IntakeEvent.promotes at promotes
    split at promotes
    · obtain ⟨_, current, _, promotion⟩ := intakeCall_promoted call
      simp only [beq_iff_eq] at promotes
      obtain ⟨job, member, sameId, sameMessage⟩ := promotion.queued
      have current_eq : current = row := by
        have present := promotion.found
        rw [promotes, found, Option.some.injEq] at present
        exact present.symm
      have queued := Table.find_of_mem member
      rw [sameId, promotes] at queued
      rw [messageOf, queued, Option.map_some, sameMessage, current_eq, own]
    · cases promotes

theorem Waiting.run {message : Option Int} (run : IntakeRun world events final)
    (start : Waiting world.db jobId message ∨ Handed world.db jobId message) :
    Waiting final.db jobId message ∨ Handed final.db jobId message := by
  induction run with
  | nil => exact start
  | cons first _ ih =>
    apply ih
    rcases start with waiting | handed
    · exact (waiting.step first.call).imp_left And.left
    · exact Or.inr (handed.step first.call)

/-- Until an enqueue takes its id, a waiting request is not in the queue. -/
theorem Waiting.run_apart {message : Option Int} (run : IntakeRun world events final)
    (waiting : Waiting world.db jobId message) (apart : messageOf world.db jobId = none) :
    (Waiting final.db jobId message ∧
        (messageOf final.db jobId = none ∨ events.any (·.enqueues jobId) = true)) ∨
      Handed final.db jobId message := by
  induction run with
  | nil => exact Or.inl ⟨waiting, Or.inl apart⟩
  | @cons world next final event events first rest ih =>
    rcases waiting.step first.call with ⟨later, unpromoted⟩ | handed
    · cases enqueues : event.enqueues jobId with
      | true =>
        refine (Waiting.run rest (Or.inl later)).imp_left ?_
        intro last
        exact ⟨last, Or.inr (by simp [enqueues])⟩
      | false =>
        have still := (intakeCall_requests first.call).unnamed enqueues unpromoted
        simpa [enqueues] using ih later (still.trans apart)
    · rcases Waiting.run rest (Or.inr handed) with last | last
      · obtain ⟨row, found, _⟩ := last
        rw [(absent_run rest handed.1).1] at found
        cases found
      · exact Or.inr last

/-- A request that was handed over is one job of the queue. -/
theorem Handed.one {message : Option Int}
    (handed : Handed db jobId message) (unique : MessagesUnique db) :
    db.jobs.count (fun r => sameRequest jobId message r.jobId r.discordMessageId) = 1 := by
  obtain ⟨row, found, own⟩ := Option.map_eq_some_iff.1 handed.2
  have same : ∀ r ∈ db.jobs.rows,
      (sameRequest jobId message r.jobId r.discordMessageId = true ↔ (r.jobId == jobId) = true) := by
    intro r member
    rw [sameRequest_iff, beq_iff_eq]
    constructor
    · rintro (id | ⟨some_, shared⟩)
      · exact id
      · obtain ⟨m, rfl⟩ := Option.isSome_iff_exists.1 some_
        have left : messageOf db r.jobId = some (some m) := by
          rw [messageOf, Table.find_of_mem member, Option.map_some, shared]
        exact unique r.jobId jobId m left handed.2
    · exact Or.inl
  have named : ∀ r : QueueRow, (r.jobId == jobId) = true → r.jobId = jobId := fun r => beq_iff_eq.1
  have count : db.jobs.count (fun r => sameRequest jobId message r.jobId r.discordMessageId) =
      db.jobs.count (fun r => r.jobId == jobId) := List.countP_congr same
  rw [count, Table.count_keyed named, found]
  simp [Table.find_key found]

/-! ## The protocol of the intakes -/

/-- Leases and promotions over every run of the intake operations and enqueues, at times that
do not decrease. -/
theorem intake_leases {world final : IntakeWorld ρ} {events : List IntakeEvent}
    (run : IntakeRun world events final) (fresh : world.grants = [])
    (unique : MessagesUnique world.db) :
    -- the unexpired leases of an intake have one token, which is the one on its row
    (∀ t, final.clock ≤ t → ∀ g ∈ final.grants, ∀ h ∈ final.grants, g.jobId = h.jobId →
      t < g.expires → t < h.expires → g.token = h.token ∧
        ∃ row, final.db.intakes.find g.jobId = some row ∧ row.claimToken = some g.token ∧
          t < row.claimExpiresAt) ∧
    -- a promotion succeeds for the current unexpired token only
    (∀ before after claim newJob now answer,
      IntakeStep (before : IntakeWorld ρ) (.promoted claim newJob now (.ok answer)) after →
      ∃ t row, now = some t ∧ before.db.intakes.find claim.intake.jobId = some row ∧
        row.claimToken = some claim.claimToken ∧ t < row.claimExpiresAt) ∧
    -- an intake is promoted at most once
    (∀ jobId, events.countP (·.promotes jobId) ≤ 1) ∧
    -- it is among the intakes, and then in the queue only if an enqueue took its id before,
    -- or it is exactly one job of the queue
    (∀ jobId intake, world.db.intakes.find jobId = some intake →
      world.db.jobs.find jobId = none →
      ((∃ row, final.db.intakes.find jobId = some row ∧
          row.discordMessageId = intake.discordMessageId) ∧
        (final.db.jobs.find jobId = none ∨ events.any (·.enqueues jobId) = true)) ∨
      (final.db.intakes.find jobId = none ∧
        (∃ job, final.db.jobs.find jobId = some job ∧
          job.discordMessageId = intake.discordMessageId) ∧
        final.db.jobs.count (fun r => sameRequest jobId intake.discordMessageId r.jobId
          r.discordMessageId) = 1)) := by
  refine ⟨?_, ?_, promoted_at_most_once run, ?_⟩
  · intro t now g mine h yours same gLater hLater
    have start : LeasesHeld world := by
      intro g member
      rw [fresh] at member
      cases member
    have held := LeasesHeld.run run start
    obtain ⟨row, found, token, covers⟩ := held g mine (lt_of_le_of_lt now gLater)
    obtain ⟨row', found', token', _⟩ := held h yours (lt_of_le_of_lt now hLater)
    rw [← same, found, Option.some.injEq] at found'
    subst found'
    rw [token, Option.some.injEq] at token'
    exact ⟨token', row, found, token, lt_of_lt_of_le gLater covers⟩
  · intro before after claim newJob now answer step
    obtain ⟨start, row, now_, promotion⟩ := intakeCall_promoted step.call
    exact ⟨start, row, now_, promotion.found, promotion.token, promotion.unexpired⟩
  · intro jobId intake found absent
    have waiting : Waiting world.db jobId intake.discordMessageId := ⟨intake, found, rfl⟩
    have apart : messageOf world.db jobId = none := by rw [messageOf, absent]; rfl
    have last : MessagesUnique final.db :=
      run.preserves (fun w => MessagesUnique w.db)
        (fun _ _ _ step before => (intakeCall_requests step.call).unique before) unique
    rcases Waiting.run_apart run waiting apart with ⟨still, outside⟩ | handed
    · exact Or.inl ⟨still, outside.imp_left Option.map_eq_none_iff.1⟩
    · exact Or.inr ⟨handed.1, Option.map_eq_some_iff.1 handed.2, handed.one last⟩

/-! ## One intake, claimed and promoted -/

def waitingIntake : PromptIntake where
  jobId := "job"
  targetThreadId := "thread"
  channelId := 7
  ownerUserId := some 1
  discordMessageId := some 42
  rawPrompt := "prompt"
  autoQueueWhenBusy := true
  requireCurrentMirror := false
  attemptCount := 0
  lastError := ""
  retryAfter := 0
  claimToken := none
  claimExpiresAt := 0
  createdAt := 0
  updatedAt := 0

def preparedJob : NewQueueJob where
  jobId := "job"
  targetThreadId := "thread"
  channelId := 7
  ownerUserId := some 1
  discordMessageId := some 42
  appServerGeneration := 3
  prompt := "prepared prompt"
  queued := true
  ackSent := false
  createdAt := 2

def onlyIntake (intake : PromptIntake) : QueueDb Unit :=
  { onlyJob waitingRow with jobs := .empty, intakes := ⟨[intake], List.nodup_singleton _⟩ }

def heldIntake : PromptIntake := waitingIntake.claim "token" 10 1
def heldClaim : PromptIntakeClaim := ⟨heldIntake, "token"⟩

/-- The store after the promotion of the claimed intake. -/
def promotedDb : QueueDb Unit :=
  (promotePromptIntakeToQueue quietHooks heldClaim preparedJob (some 2) (onlyIntake heldIntake)).2

theorem intake_promoted_once :
    promotedDb.jobs.count (fun r => sameRequest "job" (some 42) r.jobId r.discordMessageId) = 1 := by
  have claimed : tryClaimPromptIntake quietHooks "job" (some 1) (some 10) "token"
      (onlyIntake waitingIntake) = (.ok (some heldClaim), onlyIntake heldIntake) := by rfl
  have promoted : promotePromptIntakeToQueue quietHooks heldClaim preparedJob (some 2)
      (onlyIntake heldIntake) = (.ok ⟨decoded preparedJob.row, true⟩, promotedDb) := by rfl
  have first : IntakeStep ⟨onlyIntake waitingIntake, 0, []⟩ (.claimed "job" (some 1) (.ok (some heldClaim)))
      ⟨onlyIntake heldIntake, 1, [grantOf heldClaim]⟩ :=
    { call := .claimed quietHooks "job" "token" (some 1) (some 10) claimed
      time := by rintro t ⟨⟩; decide
      clock := rfl
      grants := rfl }
  have second : IntakeStep ⟨onlyIntake heldIntake, 1, [grantOf heldClaim]⟩
      (.promoted heldClaim preparedJob (some 2) (.ok ⟨decoded preparedJob.row, true⟩))
      ⟨promotedDb, 2, []⟩ :=
    { call := .promoted quietHooks heldClaim preparedJob (some 2) promoted
      time := by rintro t ⟨⟩; decide
      clock := rfl
      grants := rfl }
  have unique : MessagesUnique (onlyIntake waitingIntake) := by
    intro a b message left
    cases left
  have settled := (intake_leases (.cons first (.single second)) rfl unique).2.2.2 "job" waitingIntake
    rfl rfl
  rcases settled with ⟨⟨row, found, _⟩, _⟩ | ⟨_, _, one⟩
  · cases found
  · exact one

/-- An enqueue does not look at the intakes: one that takes the id of a waiting intake leaves the
request in both tables. -/
theorem enqueue_beside_intake :
    ∃ before after : QueueDb Unit, ∃ answer,
      IntakeCall before (.enqueued preparedJob (.ok answer)) after ∧
      (before.intakes.find "job").isSome ∧ before.jobs.find "job" = none ∧
      (after.intakes.find "job").map (·.discordMessageId) = some (some 42) ∧
      (after.jobs.find "job").map (·.discordMessageId) = some (some 42) :=
  ⟨onlyIntake waitingIntake, _, ⟨decoded preparedJob.row, true⟩,
    .enqueued quietHooks preparedJob (by rfl), by rfl, by rfl, by rfl, by rfl⟩

end CodexRemote.Verified.PromptIntake

import CodexRemote.Verified.Ingress.ExactlyOnce
import CodexRemote.Verified.StopAcceptance.Stops

/-! # Stops of one's own work

A stop of one's own work is accepted exactly when every hold of its thread's requests names that
thread.  A handoff moves requests without their holds, so a fork may inherit a request that is held
for its source; where no step does so, every such stop is accepted.
-/

namespace CodexRemote.Verified.StopAcceptance

open Foundations Store Store.Stop

variable {σ : Type}

/-! ## The operations on a served store -/

inductive ServedEvent where
  | enqueue (newJob : NewQueueJob)
  | admitted (new : NewPromptIntake)
  | promoted (newJob : NewQueueJob)
  | stop (target : String)
  | finalized (handoffId : String)
  | other

/-- The requests that an operation adds or moves, and their threads -/
def ServedEvent.places (db : StopDb σ) : ServedEvent → String → String → Prop
  | .enqueue newJob => Only newJob.jobId newJob.targetThreadId
  | .admitted new => IntakeAt db new
  | .promoted newJob => fun id target =>
    Only newJob.jobId newJob.targetThreadId id target ∧ db.holds.find id = none
  | .finalized handoffId => MovedBy handoffId db
  | .stop _ | .other => fun _ _ => False

/-- The operation places no request that is held for another thread, and holds none for a thread
while another one has a request with its id. -/
def ServedEvent.Fits (db : StopDb σ) (event : ServedEvent) : Prop :=
  (∀ id target, event.places db id target → ∀ hold, db.holds.find id = some hold →
    hold.targetThreadId = target) ∧ ∀ target, event = .stop target → Alone db target

/-- Requests are changed in place or removed, and nothing is held, journalled or stopped. -/
structure Elsewhere (hooks : ServedHooks σ) (db next : StopDb σ) : Prop where
  jobs : ∀ row ∈ next.jobs.rows, ∃ before ∈ db.jobs.rows, before.jobId = row.jobId ∧
    before.targetThreadId = row.targetThreadId
  decoded : (∀ row ∈ db.jobs.rows, Decoded row) → ∀ row ∈ next.jobs.rows, Decoded row
  intakes : ∀ intake ∈ next.intakes.rows, ∃ before ∈ db.intakes.rows,
    before.jobId = intake.jobId ∧ before.targetThreadId = intake.targetThreadId
  ingress : next.ingress = db.ingress
  holds : next.holds = db.holds
  dispositions : next.archive.dispositions = db.archive.dispositions
  rest : Untouched hooks.fenced db.rest next.rest

/-- One operation, with any arguments -/
inductive ServedStep (hooks : ServedHooks σ) : StopDb σ → ServedEvent → StopDb σ → Prop where
  | enqueue {s t answer} (newJob : NewQueueJob)
      (call : enqueue hooks.ingress.queue newJob s = (answer, t)) :
      ServedStep hooks s (.enqueue newJob) t
  | enqueueMirrored {s t answer} (newJob : NewQueueJob) (expected : ExpectedMirrorMapping)
      (call : enqueueIfMirrorMatches hooks.ingress.queue newJob expected s = (answer, t)) :
      ServedStep hooks s (.enqueue newJob) t
  | admitPromptIntake {s t answer} (new : NewPromptIntake)
      (call : admitPromptIntake hooks.ingress.queue new s = (answer, t)) :
      ServedStep hooks s (.admitted new) t
  | promote {s t answer} (claim : PromptIntakeClaim) (newJob : NewQueueJob) (now : Timestamp)
      (call : promotePromptIntakeToQueue hooks.ingress.queue claim newJob now s = (answer, t)) :
      ServedStep hooks s (.promoted newJob) t
  | admitRequest {s t answer} (request : NewIngress)
      (call : Ingress.admitRequest hooks.ingress.admission request s = (answer, t)) :
      ServedStep hooks s .other t
  | acknowledge {s t answer} (key : String) (now : Rat)
      (call : Ingress.acknowledge hooks.ingress.queue key now s = (answer, t)) :
      ServedStep hooks s .other t
  | beginExecution {s t answer} (key phase : String) (target : Option String) (now : Rat)
      (call : Ingress.beginExecution hooks.ingress.queue key phase target now s = (answer, t)) :
      ServedStep hooks s .other t
  | acceptScope {s t answer} (stop : StopCall) (allowUncertain : Bool) (fresh : FreshCall stop)
      (call : acceptScope hooks.ingress.stop stop allowUncertain s = (answer, t)) :
      ServedStep hooks s (.stop stop.scope.target) t
  | acceptRunning {s t answer} (stop : StopCall) (resident : String) (generation : Int)
      (fresh : FreshCall stop)
      (call : Control.acceptRunning hooks.ingress.stop stop resident generation s = (answer, t)) :
      ServedStep hooks s (.stop stop.scope.target) t
  | beginFork {s t answer} (request : Fork.NewForkHandoff) (now : Rat)
      (call : Fork.beginForkHandoff request now s = (answer, t)) : ServedStep hooks s .other t
  | stageFork {s t answer} (handoffId target : String)
      (call : Fork.stageForkTarget handoffId target s = (answer, t)) : ServedStep hooks s .other t
  | finalize {s t answer} (handoffId : String) (generation : Int) (now : Rat)
      (call : Fork.finalizeForkHandoff hooks.ingress.queue hooks.forks handoffId generation now s =
        (answer, t)) : ServedStep hooks s (.finalized handoffId) t
  | elsewhere {s t} (other : Elsewhere hooks s t) : ServedStep hooks s .other t

/-! ## One step -/

/-- A store in order, where no archive or cleanup has a fence -/
structure Served (hooks : ServedHooks σ) (db : StopDb σ) : Prop where
  order : InOrder db
  open_ : hooks.fenced db.rest.archiveFences db.rest.others = false

variable {db s t : StopDb σ} {hooks : ServedHooks σ}

theorem Served.unfenced (served : Served hooks db) :
    Unfenced hooks.ingress.stop db := by
  intro current _ rest before after
  exact hooks.fence_needed current before after (by rw [rest]; exact served.open_)

theorem Elsewhere.adds {new : String → String → Prop} {next : StopDb σ}
    (other : Elsewhere hooks db next) : Adds hooks.fenced new db next where
  quiet := ⟨other.decoded, .of_same other.ingress, other.dispositions, other.rest, other.holds⟩
  requests id target request := by
    obtain ⟨row, member, named, own⟩ | ⟨intake, member, named, own⟩ := request
    · obtain ⟨before, there, id, target⟩ := other.jobs row member
      exact .inl (.inl ⟨before, there, id.trans named, target.trans own⟩)
    · obtain ⟨before, there, id, target⟩ := other.intakes intake member
      exact .inl (.inr ⟨before, there, id.trans named, target.trans own⟩)

/-- A transaction that fails adds nothing. -/
theorem adds_of_commit {new : String → String → Prop} {ε α : Type}
    {body : StopDb σ → Except ε (α × StopDb σ)} {next : StopDb σ} {answer : Except ε α}
    (call : commit body db = (answer, next))
    (adds : ∀ a, body db = .ok (a, next) → Adds hooks.fenced new db next) :
    Adds hooks.fenced new db next := by
  cases answer with
  | error e =>
    rw [commit_error call]
    exact .of_same (.refl db) rfl rfl
  | ok a => exact adds a (commit_ok call)

/-- A step adds what its operation places, or is a stop. -/
theorem ServedStep.effect {e : ServedEvent}
    (step : ServedStep hooks s e t) (served : Served hooks s) :
    Adds hooks.fenced (e.places s) s t ∨
      ∃ call : StopCall, e = .stop call.scope.target ∧ FreshCall call ∧ StopKept call s t := by
  have stopped : ∀ {call : StopCall} {t' : StopDb σ}, FreshCall call → t' = s ∨ StopKept call s t' →
      Adds hooks.fenced ((ServedEvent.stop call.scope.target).places s) s t' ∨
        ∃ other : StopCall, ServedEvent.stop call.scope.target = .stop other.scope.target ∧
          FreshCall other ∧ StopKept other s t' := by
    rintro call t' fresh (rfl | kept)
    · exact .inl (.of_same (.refl _) rfl rfl)
    · exact .inr ⟨call, rfl, fresh, kept⟩
  cases step with
  | enqueue newJob call => exact .inl (adds_of_commit call fun _ result => enqueueIn_adds result)
  | enqueueMirrored newJob expected call =>
    refine .inl (adds_of_commit call fun _ result => ?_)
    obtain ⟨_, _, result⟩ := bind_ok.1 result
    exact enqueueIn_adds result
  | admitPromptIntake new call =>
    exact .inl (adds_of_commit call fun _ result => admitIntake_adds result)
  | promote claim newJob now call =>
    refine .inl (adds_of_commit call fun _ result => ?_)
    obtain ⟨adds, free⟩ := promoteIn_adds result
    refine ⟨adds.quiet, fun id target request => ?_⟩
    obtain old | placed := adds.requests id target request
    · exact .inl old
    · exact .inr ⟨placed, placed.1 ▸ free⟩
  | admitRequest request call =>
    exact .inl (adds_of_commit call fun _ result =>
      admitRequest_adds served.order.dispositions result)
  | acknowledge key now call =>
    have write := acknowledge_journal call
    have quiet : Quiet hooks.fenced s t := .of_write write
    obtain ⟨_, rfl⟩ := write.only
    exact .inl (.of_same quiet rfl rfl)
  | beginExecution key phase target now call =>
    have write := beginExecution_journal call
    have quiet : Quiet hooks.fenced s t := .of_write write
    obtain ⟨_, rfl⟩ := write.only
    exact .inl (.of_same quiet rfl rfl)
  | acceptScope stop allowUncertain fresh call =>
    exact stopped fresh (acceptScope_kept served.order call)
  | acceptRunning stop resident generation fresh call =>
    exact stopped fresh (acceptRunning_kept served.order call)
  | beginFork request now call =>
    refine .inl (adds_of_commit call fun _ result => ?_)
    obtain ⟨_, _, result⟩ := bind_ok.1 result
    exact beginIn_adds result
  | stageFork handoffId target call =>
    refine .inl (adds_of_commit call fun _ result => ?_)
    obtain ⟨_, result⟩ | ⟨_, result⟩ := ite_ok.1 result
    · exact stageTargetIn_adds result
    · cases result
  | finalize handoffId generation now call =>
    refine .inl (adds_of_commit call fun _ result => ?_)
    obtain ⟨_, result⟩ | ⟨_, result⟩ := ite_ok.1 result
    · exact finalizeIn_adds result
    · cases result
  | elsewhere other => exact .inl other.adds

theorem ServedStep.served {e : ServedEvent}
    (step : ServedStep hooks s e t) (served : Served hooks s) : Served hooks t := by
  obtain adds | ⟨call, _, fresh, kept⟩ := step.effect served
  · exact ⟨served.order.quiet adds.quiet, adds.quiet.rest.open_ served.open_⟩
  · obtain ⟨archives, others⟩ := kept.fences
    exact ⟨served.order.stopped fresh kept, by rw [archives, others]; exact served.open_⟩

theorem ServedStep.agreed {e : ServedEvent}
    (step : ServedStep hooks s e t) (served : Served hooks s) (fits : e.Fits s)
    (agreed : Agreed s) : Agreed t := by
  obtain adds | ⟨call, named, _, kept⟩ := step.effect served
  · exact adds.agreed fits.1 agreed
  · exact kept.effect.agreed (fits.2 _ named) agreed

/-! ## Runs -/

/-- A new store: no request and no stop, and no room that is archived or cleaned up -/
structure Opened (hooks : ServedHooks σ) (db : StopDb σ) : Prop where
  jobs : db.jobs.rows = []
  intakes : db.intakes.rows = []
  ingress : db.ingress.rows = []
  revisions : db.rest.revisions = .start
  dispositions : db.archive.dispositions = []
  open_ : hooks.fenced db.rest.archiveFences db.rest.others = false

theorem Opened.served (opened : Opened hooks db) :
    Served hooks db where
  order :=
    { jobs := by simp [opened.jobs]
      asks := by simp [opened.ingress]
      revisions := by
        rw [opened.revisions]
        exact .start
      accepted := by
        intro receipt there
        rw [opened.revisions] at there
        cases there
      dispositions := opened.dispositions }
  open_ := opened.open_

theorem Opened.agreed (opened : Opened hooks db) :
    Agreed db := by
  rintro target id (⟨row, member, _⟩ | ⟨intake, member, _⟩)
  · rw [opened.jobs] at member
    cases member
  · rw [opened.intakes] at member
    cases member

theorem run_served {events : List ServedEvent}
    (opened : Opened hooks s) (run : Run (ServedStep hooks) s events t) : Served hooks t :=
  run.preserves (Served hooks) (fun _ _ _ step => step.served) opened.served

/-- A step that fits -/
def FittingStep (hooks : ServedHooks σ) (s : StopDb σ) (e : ServedEvent) (t : StopDb σ) : Prop :=
  e.Fits s ∧ ServedStep hooks s e t

theorem run_agreed {events : List ServedEvent}
    (opened : Opened hooks s) (run : Run (FittingStep hooks) s events t) :
    Served hooks t ∧ Agreed t :=
  run.preserves (fun db => Served hooks db ∧ Agreed db)
    (fun _ _ _ ⟨fits, step⟩ ⟨served, agreed⟩ =>
      ⟨step.served served, step.agreed served fits agreed⟩) ⟨opened.served, opened.agreed⟩

/-- In every reachable store a stop of one's own work is accepted, with a receipt that names all of
it, exactly when no request of its thread is held for another thread; and in a run whose steps all
fit it always is. -/
theorem own_stop_accepted (hooks : ServedHooks σ) :
    (∀ s events t, Opened hooks s → Run (ServedStep hooks) s events t →
      ∀ call, OwnStop call t →
        (Accepted hooks.ingress.stop call t ↔ HoldsAgree t call.scope.target)) ∧
    ∀ s events t, Opened hooks s → Run (FittingStep hooks) s events t →
      ∀ call, OwnStop call t → Accepted hooks.ingress.stop call t := by
  constructor
  · intro s events t opened run call stop
    have served := run_served opened run
    exact accepts_iff served.order served.unfenced stop
  · intro s events t opened run call stop
    obtain ⟨served, agreed⟩ := run_agreed opened run
    exact stop_accepts served.order served.unfenced stop (agreed call.scope.target)

/-! ## A fork that inherits a held request -/

open Verified.Ingress Verified.Stop Verified.StopControl

def quietServed : ServedHooks Unit where
  ingress := quietIngress
  forks :=
    { detailUsed := fun _ _ => false
      moveSessionDetail := fun db _ _ => .ok db.rest
      fenceMapping := fun _ _ _ => none
      mappingFrozen := fun _ _ => false
      fenceNoticeDelete := fun _ _ => none }
  fenced _ _ := false
  fence_needed _ _ _ _ := rfl
  beforeEnqueue_keeps db _ _ result := Except.ok.inj result ▸ .refl _ db.rest
  promoteNewReply_keeps db _ _ _ _ result := Except.ok.inj result ▸ .refl _ db.rest
  recordNew_keeps db _ _ result := Except.ok.inj result ▸ .refl _ db.rest
  moveSessionDetail_keeps db _ _ _ result := Except.ok.inj result ▸ .refl _ db.rest

def newStore : StopDb Unit := { oneRunning with jobs := .empty }

def waitingJob : NewQueueJob :=
  ⟨"job", "thread", 7, some 1, none, 3, "prompt", true, true, 0⟩

def queuedStore : StopDb Unit := (enqueue quietQueue waitingJob newStore).2

def heldStore : StopDb Unit := (acceptScope (quietStops .null) stopCall true queuedStore).2

/-- The start of the thread was lost before it named a job. -/
def lostStart : Fork.NewForkHandoff := ⟨"handoff", none, "thread", 3, "lost start"⟩

def forkingStore : StopDb Unit := (Fork.beginForkHandoff lostStart 200 heldStore).2

def stagedStore : StopDb Unit := (Fork.stageForkTarget "handoff" "fork" forkingStore).2

def forkedStore : StopDb Unit :=
  (Fork.finalizeForkHandoff quietQueue quietServed.forks "handoff" 4 300 stagedStore).2

/-- The same owner stops the fork. -/
def forkStop : StopCall :=
  { stopCall with
    scope := ⟨"fork", 7, 1⟩
    binding := .object
      [("command", .object [("Stop", .object [("reference", .text "fork")])]),
        ("route", .text "Explicit"), ("target", .text "fork")]
    id := "later" }

/-- A second stop of the same thread -/
def laterStop : StopCall := { stopCall with id := "later" }

theorem newStore_opened : Opened quietServed newStore := ⟨rfl, rfl, rfl, rfl, rfl, rfl⟩

theorem messageId_head (event : Int) : (messageId event).toList.head? = some 'm' := by
  rw [messageId, String.toList_append, List.head?_append,
    show "message:".toList.head? = some 'm' from rfl]
  rfl

theorem no_message {id : String} (head : id.toList.head? ≠ some 'm') (event : Int) :
    id ≠ messageId event := fun same => head (same ▸ messageId_head event)

/-- What the checks of a stop read off the store, and a young clock -/
abbrev OwnReads (call : StopCall) (db : StopDb Unit) : Prop :=
  call.id.toList.head? ≠ some 'm' ∧
    (call.valid = true ∧ validate db call.scope call.binding call.expected = .ok ()) ∧
    db.jobs.count (·.targetThreadId == call.scope.target) +
      db.intakes.count (·.targetThreadId == call.scope.target) +
      (unownedAsks db call.scope.target).length ≤ 128 ∧
    (∀ row ∈ db.jobs.rows, row.targetThreadId = call.scope.target →
      row.channelId = call.scope.channel ∧ row.ownerUserId = some call.scope.owner) ∧
    (∀ intake ∈ db.intakes.rows, intake.targetThreadId = call.scope.target →
      intake.channelId = call.scope.channel ∧ intake.ownerUserId = some call.scope.owner) ∧
    (∀ row ∈ unownedAsks db call.scope.target,
      row.channelId = call.scope.channel ∧ row.ownerUserId = call.scope.owner) ∧
    db.rest.revisions.receipts.find call.operation = none ∧
    db.rest.revisions.clock = some 1

/-- A stop whose checks all pass -/
theorem ownStop_of {call : StopCall} {db : StopDb Unit} (file : call.file = .present)
    (before : call.selectedBefore = .ok ()) (after : call.selectedAfter = .ok ())
    (reads : OwnReads call db) : OwnStop call db := by
  obtain ⟨head, ⟨valid, validated⟩, few, jobs, intakes, asks, fresh, clock⟩ := reads
  refine ⟨valid, file, validated, before, after, few, jobs, intakes, asks,
    fun _ => ⟨no_message head, fresh⟩, fun now found => ?_⟩
  rw [clock] at found
  cases found
  decide

/-- What the stores of the runs hold -/
theorem stores_read :
    stopCall.id.toList.head? ≠ some 'm' ∧ OwnReads forkStop forkedStore ∧
      OwnReads laterStop heldStore ∧
      (acceptUnresolved quietServed.ingress.stop forkStop forkedStore).1 = .error stopRefused ∧
      (∀ row ∈ queuedStore.jobs.rows, row.targetThreadId = "thread") ∧
      queuedStore.intakes.rows = [] := by
  decide +kernel

theorem held_run : Run (ServedStep quietServed) newStore [.enqueue waitingJob, .stop "thread"]
    heldStore :=
  .cons (.enqueue waitingJob (Prod.eta _).symm) (.single (.acceptScope stopCall true
    (fun _ => no_message stores_read.1) (Prod.eta _).symm))

theorem forked_run : Run (ServedStep quietServed) newStore
    [.enqueue waitingJob, .stop "thread", .other, .other, .finalized "handoff"] forkedStore :=
  held_run.append (.cons (.beginFork lostStart 200 (Prod.eta _).symm)
    (.cons (.stageFork "handoff" "fork" (Prod.eta _).symm)
      (.single (.finalize "handoff" 4 300 (Prod.eta _).symm))))

/-- The owner of a fork that got a held request stops the fork. -/
theorem forkStop_own : OwnStop forkStop forkedStore := ownStop_of rfl rfl rfl stores_read.2.1

/-- A stop of one's own work is refused in a reachable store. -/
theorem fork_stop_refused :
    (acceptUnresolved quietServed.ingress.stop forkStop forkedStore).1 = .error stopRefused ∧
    ¬ ∀ s events t, Opened quietServed s → Run (ServedStep quietServed) s events t →
      ∀ call, OwnStop call t → Accepted quietServed.ingress.stop call t := by
  have refused := stores_read.2.2.2.1
  refine ⟨refused, fun claimed => ?_⟩
  obtain ⟨receipt, next, ran, _⟩ := claimed _ _ _ newStore_opened forked_run forkStop forkStop_own
  rw [ran] at refused
  cases refused

/-! ## A second stop of the same thread -/

theorem laterStop_own : OwnStop laterStop heldStore := ownStop_of rfl rfl rfl stores_read.2.2.1

theorem queuedStore_alone : Alone queuedStore "thread" := by
  obtain ⟨-, -, -, -, jobs, intakes⟩ := stores_read
  rintro id _ other (⟨row, member, _, own⟩ | ⟨intake, member, _⟩)
  · exact own ▸ jobs row member
  · rw [intakes] at member
    cases member

theorem fitting_run : Run (FittingStep quietServed) newStore [.enqueue waitingJob, .stop "thread"]
    heldStore := by
  have first : (ServedEvent.enqueue waitingJob).Fits newStore :=
    ⟨(fun _ _ _ _ found => nomatch found), (fun _ same => nomatch same)⟩
  have second : (ServedEvent.stop "thread").Fits queuedStore := by
    refine ⟨fun _ _ placed => placed.elim, fun target same => ?_⟩
    cases same
    exact queuedStore_alone
  exact .cons ⟨first, .enqueue waitingJob (Prod.eta _).symm⟩ (.single ⟨second,
    .acceptScope stopCall true (fun _ => no_message stores_read.1) (Prod.eta _).symm⟩)

/-- The hold of the first stop does not stand in the way of the second one. -/
theorem later_stop_accepted : Accepted quietServed.ingress.stop laterStop heldStore :=
  (own_stop_accepted quietServed).2 _ _ _ newStore_opened fitting_run laterStop laterStop_own

end CodexRemote.Verified.StopAcceptance

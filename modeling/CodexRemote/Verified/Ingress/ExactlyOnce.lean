import CodexRemote.Verified.Ingress.Admission
import CodexRemote.Verified.StopControl.OneUse

/-! # Requests are admitted once

Over any order of the operations on requests, each id and each event is answered as new at most
once, a request only goes forward, and the evidence in its outcome stays.
-/

namespace CodexRemote.Verified.Ingress

open Foundations Store Store.Ingress

variable {σ : Type}

/-! ## The operations on requests -/

inductive IngressEvent where
  | admitted (request : NewIngress) (answer : Except StoreError IngressAdmission)
  | moved

/-- One operation on the requests, with any arguments; or the other tables change. -/
inductive IngressStep (hooks : IngressHooks σ) : StopDb σ → IngressEvent → StopDb σ → Prop where
  | admitted {s t answer} (request : NewIngress)
      (call : admitRequest hooks.admission request s = (answer, t)) :
      IngressStep hooks s (.admitted request answer) t
  | acknowledge {s t answer} (key : String) (now : Rat)
      (call : acknowledge hooks.queue key now s = (answer, t)) : IngressStep hooks s .moved t
  | beginConfirmation {s t answer} (key : String) (now : Rat)
      (call : beginConfirmation hooks.queue key now s = (answer, t)) : IngressStep hooks s .moved t
  | beginExecution {s t answer} (key phase : String) (target : Option String) (now : Rat)
      (call : beginExecution hooks.queue key phase target now s = (answer, t)) :
      IngressStep hooks s .moved t
  | beginThreadStart {s t answer} (key : String) (generation : Int) (now : Rat)
      (call : beginThreadStart hooks.queue hooks.digests key generation now s = (answer, t)) :
      IngressStep hooks s .moved t
  | recordCreatedThread {s t answer} (key : String) (generation : Int) (target : String) (now : Rat)
      (call : recordCreatedThread hooks.queue key generation target now s = (answer, t)) :
      IngressStep hooks s .moved t
  | recordResult {s t answer} (key : String) (outcome : Json) (now : Rat)
      (call : recordResult hooks.queue key outcome now s = (answer, t)) :
      IngressStep hooks s .moved t
  | confirm {s t answer} (key : String) (now : Rat)
      (call : confirm hooks.queue hooks.newReply key now s = (answer, t)) :
      IngressStep hooks s .moved t
  | recordProcessingMode {s t answer} (key mode : String)
      (call : recordProcessingMode hooks.queue key mode s = (answer, t)) :
      IngressStep hooks s .moved t
  | recordNewInput {s t answer} (key raw prompt : String) (now : Timestamp)
      (call : recordNewInput hooks.queue hooks.digests key raw prompt now s = (answer, t)) :
      IngressStep hooks s .moved t
  | recordNewCreation {s t answer} (key : String) (generation : Int) (cwd : Option String)
      (channel : Int) (now : Rat)
      (call : recordNewCreation hooks.queue hooks.newThreadOrigin key generation cwd channel now s =
        (answer, t)) : IngressStep hooks s .moved t
  | recordNewEvidence {s t} (job : NewQueueJob) (call : recordNewEvidence hooks.queue s job = .ok t) :
      IngressStep hooks s .moved t
  | acceptScope {s t answer} (stop : Store.Stop.StopCall) (allowUncertain : Bool)
      (call : Store.Stop.acceptScope hooks.stop stop allowUncertain s = (answer, t)) :
      IngressStep hooks s .moved t
  | acceptRunning {s t answer} (stop : Store.Stop.StopCall) (resident : String) (generation : Int)
      (call : Store.Stop.Control.acceptRunning hooks.stop stop resident generation s = (answer, t)) :
      IngressStep hooks s .moved t
  | elsewhere {s t} (same : t.ingress = s.ingress) : IngressStep hooks s .moved t

/-- The admission of this id was answered as new. -/
def createdAs (id : String) : IngressEvent → Bool
  | .admitted request (.ok answer) => answer.created && request.ingressId == id
  | _ => false

/-- The admission of this event was answered as new. -/
def createdFor (event : Int) : IngressEvent → Bool
  | .admitted request (.ok answer) => answer.created && request.eventId == some event
  | _ => false

/-- Every row is one that the operations write. -/
def Sound (db : StopDb σ) : Prop := ∀ row ∈ db.ingress.rows, SoundRow row

/-- The journal knows the request, by its id or by its event. -/
def Known (request : NewIngress) (row : IngressRow) : Prop :=
  row.ingressId = request.ingressId ∨ (request.eventId.isSome ∧ row.eventId = request.eventId)

/-! ## One step -/

variable {e : IngressEvent} {hooks : IngressHooks σ} {s t : StopDb σ}

/-- A step moves the rows that are there, unless it answers a new request. -/
theorem IngressStep.effect (step : IngressStep hooks s e t) :
    (JournalMove s t ∧ (∀ id, createdAs id e = false) ∧ ∀ event, createdFor event e = false) ∨
      ∃ request answer, e = .admitted request (.ok answer) ∧ answer.created = true ∧
        NewRequest request s t := by
  have quiet : ∀ {t' : StopDb σ}, JournalMove s t' →
      JournalMove s t' ∧ (∀ id, createdAs id .moved = false) ∧
        ∀ event, createdFor event .moved = false := fun moves => ⟨moves, fun _ => rfl, fun _ => rfl⟩
  cases step with
  | @admitted _ answer request call =>
    cases answer with
    | error e =>
      rw [commit_error call]
      exact .inl ⟨.refl s, fun _ => rfl, fun _ => rfl⟩
    | ok answer =>
      obtain ⟨old, same⟩ | ⟨created, new⟩ := admitIn_cases (commit_ok call)
      · left
        rw [same]
        exact ⟨.refl s, fun id => by simp [createdAs, old], fun id => by simp [createdFor, old]⟩
      · exact .inr ⟨request, answer, rfl, created, new⟩
  | acknowledge key now call => exact .inl (quiet (acknowledge_moves call))
  | beginConfirmation key now call => exact .inl (quiet (beginConfirmation_moves call))
  | beginExecution key phase target now call => exact .inl (quiet (beginExecution_moves call))
  | beginThreadStart key generation now call => exact .inl (quiet (beginThreadStart_moves call))
  | recordCreatedThread key generation target now call =>
    exact .inl (quiet (recordCreatedThread_moves call))
  | recordResult key outcome now call => exact .inl (quiet (recordResult_moves call))
  | confirm key now call => exact .inl (quiet (confirm_moves call))
  | recordProcessingMode key mode call => exact .inl (quiet (recordProcessingMode_moves call))
  | recordNewInput key raw prompt now call => exact .inl (quiet (recordNewInput_moves call))
  | recordNewCreation key generation cwd channel now call =>
    exact .inl (quiet (recordNewCreation_moves call))
  | recordNewEvidence job call => exact .inl (quiet (recordNewEvidence_moves call))
  | acceptScope stop allowUncertain call => exact .inl (quiet (acceptScope_moves call).1)
  | acceptRunning stop resident generation call => exact .inl (quiet (acceptRunning_moves call).1)
  | elsewhere same => exact .inl (quiet (.of_same same))

/-- Either way every request that is there moves on. -/
theorem IngressStep.moves
    (step : IngressStep hooks s e t) : ∀ key row, s.ingress.find key = some row →
      ∃ after, t.ingress.find key = some after ∧ RowMoves row after := by
  obtain ⟨moved, _⟩ | ⟨request, answer, _, _, new⟩ := step.effect
  · exact moved.moves
  · exact new.moves

theorem IngressStep.sound (step : IngressStep hooks s e t) (sound : Sound s) : Sound t := by
  intro row member
  have here := Table.find_of_mem member
  cases before : s.ingress.find row.ingressId with
  | some first =>
    obtain ⟨after, found, moves⟩ := step.moves _ first before
    rw [here] at found
    cases found
    exact moves.sound (sound first (Table.mem_of_find before))
  | none =>
    obtain ⟨moved, _⟩ | ⟨request, answer, _, _, new⟩ := step.effect
    · rw [moved.closed _ before] at here
      cases here
    · by_cases named : row.ingressId = request.ingressId
      · obtain ⟨added, found, _, fine⟩ := new.row
        rw [← named, here] at found
        cases found
        exact fine
      · rw [new.closed _ named before] at here
        cases here

/-! ## New at most once -/

def unknownId (id : String) (db : StopDb σ) : Nat := if (db.ingress.find id).isNone then 1 else 0

def unknownEvent (event : Int) (db : StopDb σ) : Nat :=
  if db.ingress.rows.any (·.eventId == some event) then 0 else 1

theorem created_pays_id (id : String) (step : IngressStep hooks s e t) :
    (createdAs id e).toNat + unknownId id t ≤ unknownId id s + false.toNat := by
  have kept : unknownId id t ≤ unknownId id s := by
    simp only [unknownId]
    cases found : s.ingress.find id with
    | none => split <;> simp
    | some row =>
      obtain ⟨after, there, _⟩ := step.moves id row found
      simp [there]
  obtain ⟨_, quiet, _⟩ | ⟨request, answer, rfl, created, new⟩ := step.effect
  · rw [quiet id]
    simpa using kept
  · simp only [createdAs, created, Bool.true_and]
    by_cases named : request.ingressId = id
    · subst named
      obtain ⟨row, found, _⟩ := new.row
      simp [unknownId, new.id, found]
    · rw [beq_eq_false_iff_ne.2 named]
      simpa using kept

theorem created_pays_event (event : Int) (step : IngressStep hooks s e t) :
    (createdFor event e).toNat + unknownEvent event t ≤ unknownEvent event s + false.toNat := by
  have kept : unknownEvent event t ≤ unknownEvent event s := by
    simp only [unknownEvent]
    cases known : s.ingress.rows.any (·.eventId == some event) with
    | false => split <;> simp
    | true =>
      obtain ⟨row, member, named⟩ := List.any_eq_true.1 known
      obtain ⟨after, there, moves⟩ := step.moves _ row (Table.find_of_mem member)
      have still : t.ingress.rows.any (·.eventId == some event) = true := by
        refine List.any_eq_true.2 ⟨after, Table.mem_of_find there, ?_⟩
        rw [moves.same.eventId]
        exact named
      simp [still]
  obtain ⟨_, _, quiet⟩ | ⟨request, answer, rfl, created, new⟩ := step.effect
  · rw [quiet event]
    simpa using kept
  · simp only [createdFor, created, Bool.true_and]
    by_cases named : request.eventId = some event
    · obtain ⟨row, found, own, _⟩ := new.row
      have absent : s.ingress.rows.any (·.eventId == some event) = false := by
        rw [List.any_eq_false]
        intro other member
        have apart := new.event (by rw [named]; rfl) other member
        rw [named] at apart
        simpa using apart
      have present : t.ingress.rows.any (·.eventId == some event) = true := by
        refine List.any_eq_true.2 ⟨row, Table.mem_of_find found, ?_⟩
        rw [own.eventId, named]
        exact beq_self_eq_true _
      simp [unknownEvent, absent, present, named]
    · rw [beq_eq_false_iff_ne.2 named]
      simpa using kept

/-! ## Conflicts -/

/-- A known request with another room, owner, kind or event is refused. -/
theorem conflict_refused {request : NewIngress} {db : StopDb σ}
    {row : IngressRow} (member : row ∈ db.ingress.rows) (known : Known request row)
    (conflict : sameOwner row request = false) :
    ∃ e, admitRequest hooks.admission request db = (.error e, db) := by
  cases ran : admitRequest hooks.admission request db with
  | mk answer next =>
    cases answer with
    | error e => exact ⟨e, by rw [commit_error ran]⟩
    | ok answer =>
      exfalso
      have result := commit_ok ran
      simp only [Ingress.admitIn] at result
      obtain ⟨_, _, result⟩ := bind_ok.1 result
      obtain ⟨found, looked, result⟩ := bind_ok.1 result
      cases found with
      | none =>
        obtain ⟨free, fresh⟩ := existing_none looked
        obtain named | ⟨isSome, event⟩ := known
        · rw [← named, Table.find_of_mem member] at free
          cases free
        · exact fresh isSome row member event
      | some other =>
        obtain ⟨agrees, _⟩ := guard_ok.1 result
        rw [Bool.not_eq_true, Bool.not_eq_false'] at agrees
        have same : other = row := existing_known looked member known (by
          simp only [sameOwner, Bool.and_eq_true, decide_eq_true_eq] at agrees
          exact agrees.2)
        rw [same, conflict] at agrees
        cases agrees

/-! ## Runs -/

variable {hooks : IngressHooks σ} {s t : StopDb σ} {events : List IngressEvent}

theorem run_sound (run : Run (IngressStep hooks) s events t) (sound : Sound s) : Sound t :=
  run.preserves Sound (fun _ _ _ step => step.sound) sound

theorem created_once_id (run : Run (IngressStep hooks) s events t) (id : String) :
    events.countP (createdAs id) ≤ 1 := by
  have spent := run.spends_le (unknownId id) (createdAs id) (fun _ => false)
    fun _ _ _ step => created_pays_id id step
  have start : unknownId id s ≤ 1 := by
    simp only [unknownId]
    split <;> simp
  have none : events.countP (fun _ => false) = 0 := List.countP_eq_zero.2 (by simp)
  omega

theorem created_once_event (run : Run (IngressStep hooks) s events t) (event : Int) :
    events.countP (createdFor event) ≤ 1 := by
  have spent := run.spends_le (unknownEvent event) (createdFor event) (fun _ => false)
    fun _ _ _ step => created_pays_event event step
  have start : unknownEvent event s ≤ 1 := by
    simp only [unknownEvent]
    split <;> simp
  have none : events.countP (fun _ => false) = 0 := List.countP_eq_zero.2 (by simp)
  omega

/-- A request that is there stays, and goes forward through every step. -/
theorem run_forward (run : Run (IngressStep hooks) s events t) (sound : Sound s) (key : String)
    (before : IngressRow) (found : s.ingress.find key = some before) :
    ∃ after, t.ingress.find key = some after ∧ Forward before after := by
  induction run generalizing before with
  | nil _ => exact ⟨before, found, .refl before⟩
  | cons first _ ih =>
    obtain ⟨middle, there, moves⟩ := first.moves key before found
    obtain ⟨after, last, later⟩ := ih (first.sound sound) middle there
    exact ⟨after, last, (moves.forward (sound before (Table.mem_of_find found))).trans later⟩

/-- Each id and each event is answered as new at most once.  A known request that differs is refused
without a change.  A request only goes forward, and its outcome keeps the evidence of its thread and
the acceptance of its stop, which a stop with a request of its own leaves there. -/
theorem ingress_admitted_once (sound : Sound s) (run : Run (IngressStep hooks) s events t) :
    (∀ id, events.countP (createdAs id) ≤ 1) ∧ (∀ event, events.countP (createdFor event) ≤ 1) ∧
    (∀ request row, row ∈ t.ingress.rows → Known request row → sameOwner row request = false →
      ∃ e, admitRequest hooks.admission request t = (.error e, t)) ∧
    (∀ key before, s.ingress.find key = some before →
      ∃ after, t.ingress.find key = some after ∧ Forward before after) ∧
    (∀ stop allowUncertain receipt next,
      Store.Stop.acceptScope hooks.stop stop allowUncertain t = (.ok (some receipt), next) →
        AcceptedFor next stop.expected receipt) ∧
    (∀ stop resident generation control next,
      Store.Stop.Control.acceptRunning hooks.stop stop resident generation t =
        (.ok (some control), next) → ∃ receipt, AcceptedFor next stop.expected receipt) ∧
    Sound t := by
  refine ⟨created_once_id run, created_once_event run, ?_, run_forward run sound, ?_, ?_,
    run_sound run sound⟩
  · intro request row member known conflict
    exact conflict_refused member known conflict
  · intro stop allowUncertain receipt next accepted
    exact (acceptScope_moves accepted).2 receipt rfl
  · intro stop resident generation control next accepted
    exact (acceptRunning_moves accepted).2 control rfl

/-! ## A stop that is admitted twice -/

open Stop StopControl

def quietIngress : IngressHooks Unit where
  stop := quietStops .null
  digests := ⟨id, fun id _ _ _ _ _ => id⟩
  newThreadOrigin _ _ := .ok .null
  newReply _ _ := .ok none
  processed _ _ := false
  fence _ _ := none
  recordNew db _ := .ok db.rest
  verify _ _ := .ok ()

def stopMessage : NewIngress where
  ingressId := "message:801"
  kind := .message
  eventId := some 801
  channelId := 7
  ownerUserId := 1
  sourceMessageId := some 801
  payload := .object
    [("lifecycle_binding", stopBinding),
      ("plan", .object [("Execute", .object [("Stop", .object [("reference", .text "thread")])])]),
      ("version", .integer 1)]
  targetThreadId := some "thread"
  now := some 1

def admittedOnce : StopDb Unit := (admitRequest quietIngress.admission stopMessage oneRunning).2

def admittedTwice : StopDb Unit := (admitRequest quietIngress.admission stopMessage admittedOnce).2

def executingStop : StopDb Unit :=
  (beginExecution quietQueue "message:801" "processing" none 2 admittedTwice).2

def ownStopCall : Store.Stop.StopCall :=
  { stopCall with expected := executingStop.ingress.find "message:801" }

def acceptedOwnStop : StopDb Unit :=
  (Store.Stop.acceptScope (quietStops .null) ownStopCall true executingStop).2

def finishedStop : StopDb Unit :=
  (recordResult quietQueue "message:801" (.object [("kind", .text "done")]) 4 acceptedOwnStop).2

def stopEvents : List IngressEvent :=
  [.admitted stopMessage (admitRequest quietIngress.admission stopMessage oneRunning).1,
    .admitted stopMessage (admitRequest quietIngress.admission stopMessage admittedOnce).1,
    .moved, .moved]

theorem stop_run : Run (IngressStep quietIngress) oneRunning stopEvents acceptedOwnStop :=
  .cons (.admitted stopMessage (Prod.eta _).symm) (.cons (.admitted stopMessage (Prod.eta _).symm)
    (.cons (.beginExecution "message:801" "processing" none 2 (Prod.eta _).symm)
      (.single (.acceptScope ownStopCall true (Prod.eta _).symm))))

theorem finished_run : Run (IngressStep quietIngress) acceptedOwnStop [.moved] finishedStop :=
  .single (.recordResult "message:801" (.object [("kind", .text "done")]) 4 (Prod.eta _).symm)

/-- The stop is new once, and its result keeps the acceptance. -/
theorem stop_admitted_once : stopEvents.countP (createdAs "message:801") = 1 ∧
    stopEvents.countP (createdFor 801) = 1 ∧ Sound acceptedOwnStop ∧
    ∃ before after, acceptedOwnStop.ingress.find "message:801" = some before ∧
      StopRecord before ⟨["job"], []⟩ ∧ finishedStop.ingress.find "message:801" = some after ∧
      Forward before after ∧ after.state = .completed := by
  have start : Sound oneRunning := fun row member => (nomatch member)
  have first := ingress_admitted_once start stop_run
  have sound := first.2.2.2.2.2.2
  have last := (ingress_admitted_once sound finished_run).2.2.2.1
  obtain ⟨counts, there, ended⟩ : (stopEvents.countP (createdAs "message:801") = 1 ∧
      stopEvents.countP (createdFor 801) = 1) ∧
      (acceptedOwnStop.ingress.find "message:801").map (fun row => (row.phase, row.outcome)) =
        some ("stop_accepted", some (Store.Stop.acceptedOutcome ⟨["job"], []⟩)) ∧
      (finishedStop.ingress.find "message:801").map (·.state) = some .completed := by
    decide +kernel
  refine ⟨counts.1, counts.2, sound, ?_⟩
  obtain ⟨before, found, written⟩ := Option.map_eq_some_iff.1 there
  obtain ⟨phase, outcome⟩ := Prod.mk.inj written
  obtain ⟨after, here, forward⟩ := last _ before found
  refine ⟨before, after, found, .inl ⟨phase, outcome⟩, here, forward, ?_⟩
  rw [here] at ended
  exact Option.some.inj ended

end CodexRemote.Verified.Ingress

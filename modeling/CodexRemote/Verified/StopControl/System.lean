import CodexRemote.Verified.Stop.Acceptance

/-! # Runs of stops, interrupts and terminals

The controls change by the operations below and by nothing else.  The inversion theorem of this
module says what one operation can do to one control.
-/

namespace CodexRemote.Verified.StopControl

open Foundations Store Store.Stop Store.Stop.Control
open Verified.Stop

variable {σ : Type}

/-! ## Events -/

inductive ControlEvent where
  | accepted (answer : Except StoreError (Option StopControl))
  | started (claimed : StoredQueueJob) (turn : String)
      (answer : Except StoreError (Option StoredQueueJob))
  | claimed (control : StopControl) (answer : Except StoreError (Option StopClaim))
  | began (claim : Except StoreError StopClaim) (answer : Except StoreError Unit)
  | finished (claim : Except StoreError StopClaim) (outcome : String)
      (answer : Except StoreError Unit)
  | erred (claim : StopClaim)
  /-- a notification, and whether its terminal was recorded -/
  | observed (thread turn payload : String) (recorded : Bool)
  | recovered (control : StopControl) (observed : Json) (answer : Except StoreError Nat)
  /-- the rest of the program, with the targets whose turns it may start or forget -/
  | other (touched : List String)

/-- The operation failed inside SQLite. -/
def ControlEvent.failed : ControlEvent → Prop
  | .accepted (.error _) | .started _ _ (.error _) | .claimed _ (.error _) | .began _ (.error _)
  | .finished _ _ (.error _) | .erred _ | .observed _ _ _ false | .recovered _ _ (.error _) => True
  | _ => False

/-- Nothing of the target is starting or running. -/
def Idle (db : StopDb σ) (target : String) : Prop :=
  ∀ row ∈ db.jobs.rows, row.targetThreadId = target → row.state = .pending

/-- The notification is admitted, and it is the terminal of a running turn. -/
def recordsTerminal (hooks : StopHooks σ) (db : StopDb σ) (thread turn : String) (generation : Int)
    (payload resident : String) : Bool :=
  (hooks.observationAllowed db thread turn generation resident payload).toOption == some true &&
    ownedTurn db thread turn generation &&
    (hooks.parse payload).any fun value => terminalNotice value thread turn

/-- What the rest of the program leaves as it is: the controls, the holds and, for a target that it
does not touch, the observed terminals and that nothing is running. -/
structure Beside (touched : List String) (db next : StopDb σ) : Prop where
  controls : next.rest.controls = db.rest.controls
  holds : HoldsKept db next
  observed : ∀ target turn, target ∉ touched → terminalObserved db target turn →
    terminalObserved next target turn
  idle : ∀ target, target ∉ touched → Idle db target → Idle next target

inductive ControlStep (hooks : StopHooks σ) : StopDb σ → ControlEvent → StopDb σ → Prop where
  | accepted {db next : StopDb σ} (call : StopCall) (resident : String) (generation : Int)
      {answer : Except StoreError (Option StopControl)}
      (ran : acceptRunning hooks call resident generation db = (answer, next)) :
      ControlStep hooks db (.accepted answer) next
  | started {db next : StopDb σ} (claimed : StoredQueueJob) (turn : String)
      (resident : Option String) (now : Rat) {answer : Except StoreError (Option StoredQueueJob)}
      (ran : markRunningWithResidentIfClaimed (lateStart hooks) claimed turn resident now db =
        (answer, next)) : ControlStep hooks db (.started claimed turn answer) next
  | claimed {db next : StopDb σ} (control : StopControl)
      (selectedBefore selectedAfter : Except StoreError Unit) (token : String)
      {answer : Except StoreError (Option StopClaim)}
      (ran : claim hooks control selectedBefore selectedAfter token db = (answer, next)) :
      ControlStep hooks db (.claimed control answer) next
  | began {db next : StopDb σ} (claim : Except StoreError StopClaim) (owner : String × Int)
      (request : WireRequest) (params : Json) {answer : Except StoreError Unit}
      (ran : beginWire hooks claim owner request params db = (answer, next)) :
      ControlStep hooks db (.began claim answer) next
  | finished {db next : StopDb σ} (claim : Except StoreError StopClaim) (owner : String × Int)
      (request : WireRequest) (outcome : String) {answer : Except StoreError Unit}
      (ran : finishWire claim owner request outcome db = (answer, next)) :
      ControlStep hooks db (.finished claim outcome answer) next
  | erred (db : StopDb σ) (claim : StopClaim) (error : String) :
      ControlStep hooks db (.erred claim) (recordError claim error db)
  | observed {db next : StopDb σ} (thread turn : String) (generation : Int)
      (payload resident : String) {answer : Except StoreError Bool}
      (ran : recordForResident hooks thread turn generation payload resident db = (answer, next)) :
      ControlStep hooks db (.observed thread turn payload (answer.toBool &&
        recordsTerminal hooks db thread turn generation payload resident)) next
  | recovered {db next : StopDb σ} (control : StopControl) (observed : Json) (reader : String)
      (generation : Int) (now : Timestamp) {answer : Except StoreError Nat}
      (ran : recoverTerminal hooks control observed reader generation now db = (answer, next)) :
      ControlStep hooks db (.recovered control observed answer) next
  | failed (db : StopDb σ) (event : ControlEvent) (error : event.failed) :
      ControlStep hooks db event db
  | other {db next : StopDb σ} (touched : List String) (beside : Beside touched db next) :
      ControlStep hooks db (.other touched) next

/-! ## Moves of one control -/

/-- The record of a control that a stop has just left -/
structure FreshControl (hooks : StopHooks σ) (row : ControlRow) : Prop where
  phase : row.phase = .accepted
  claimToken : row.claimToken = none
  wireAttempt : row.wireAttempt = none
  jobs : ∀ text ∈ row.control.jobs, ∃ job : StoredQueueJob,
    text = hooks.jobText job ∧ job.targetThreadId = row.control.target

/-- All jobs that the control names have a hold for its target. -/
def AllHeld (hooks : StopHooks σ) (db : StopDb σ) (control : StopControl) : Prop :=
  ∀ text ∈ control.jobs, heldFor hooks db control.target text = true

inductive RowMove (hooks : StopHooks σ) (db : StopDb σ) :
    ControlEvent → ControlRow → ControlRow → Prop where
  | still {event : ControlEvent} {row : ControlRow} : RowMove hooks db event row row
  | claim {control : StopControl} {token : String} {row : ControlRow}
      (own : row.control = control) (accepted : row.phase = .accepted)
      (unclaimed : keyClaimed db control.key = false) :
      RowMove hooks db (.claimed control (.ok (some ⟨control, token⟩))) row
        { row with phase := .dispatching, claimToken := some token }
  | begin {claim : StopClaim} {row : ControlRow} {request : WireRequest}
      (own : row.control = claim.control) (token : row.claimToken = some claim.token)
      (unsent : row.wireAttempt = none) :
      RowMove hooks db (.began (.ok claim) (.ok ())) row
        { row with wireAttempt := some request.1, wireId := some request.2 }
  | note {event : ControlEvent} {row : ControlRow} (phase : ControlPhase) (error : String)
      (settled : phase = .settled ↔ row.phase = .settled) :
      RowMove hooks db event row { row with phase := phase, lastError := error }
  | observe {thread turn payload resident : String} {generation : Int} {recorded : Bool}
      {row : ControlRow} {value : Json} (own : row.control.key = ⟨thread, resident, generation, turn⟩)
      (parsed : hooks.parse payload = some value) (notice : terminalNotice value thread turn = true) :
      RowMove hooks db (.observed thread turn payload recorded) row
        { row with
          terminal := some payload
          phase := if row.control.canSettle &&
              row.control.jobs.all (heldFor hooks db row.control.target) then .settled
            else .unknown }
  | recover {control : StopControl} {observed : Json} {answer : Nat} {proof : String}
      {row : ControlRow} (own : row.control = control) (settles : control.canSettle = true)
      (seen : verifyObservation hooks control observed = .ok ()) (held : AllHeld hooks db control) :
      RowMove hooks db (.recovered control observed (.ok answer)) row
        { row with phase := .settled, terminal := some proof }

/-- What a step does to the controls: each moves as above, and new ones are fresh. -/
structure ControlsMove (hooks : StopHooks σ) (db : StopDb σ) (event : ControlEvent)
    (next : StopDb σ) : Prop where
  moved : ∀ id row, db.rest.controls.find id = some row →
    ∃ later, next.rest.controls.find id = some later ∧ RowMove hooks db event row later
  fresh : ∀ id row, next.rest.controls.find id = some row → db.rest.controls.find id = none →
    FreshControl hooks row

theorem RowMove.control {hooks : StopHooks σ} {db : StopDb σ} {event : ControlEvent}
    {row later : ControlRow} (move : RowMove hooks db event row later) :
    later.control = row.control := by
  cases move <;> rfl

theorem ControlsMove.of_same {hooks : StopHooks σ} {db next : StopDb σ} {event : ControlEvent}
    (same : next.rest.controls = db.rest.controls) : ControlsMove hooks db event next where
  moved id row found := ⟨row, same ▸ found, .still⟩
  fresh id row found absent := by
    rw [same, absent] at found
    cases found

theorem ControlsMove.of_update {hooks : StopHooks σ} {db next : StopDb σ} {event : ControlEvent}
    {selected : ControlRow → Bool} {assign : ControlRow → ControlRow}
    {keeps : ∀ row, (assign row).operationId = row.operationId}
    (same : next.rest.controls = db.rest.controls.update selected assign keeps)
    (moves : ∀ row ∈ db.rest.controls.rows, selected row = true →
      RowMove hooks db event row (assign row)) : ControlsMove hooks db event next where
  moved id row found := by
    rw [same, Table.find_update, found, Option.map_some]
    refine ⟨_, rfl, ?_⟩
    split
    · next chosen => exact moves row (Table.mem_of_find found) chosen
    · exact .still
  fresh id row found absent := by
    rw [same, Table.find_update, absent] at found
    cases found

theorem ControlsMove.of_append {hooks : StopHooks σ} {db next : StopDb σ} {event : ControlEvent}
    {row : ControlRow} (rows : next.rest.controls.rows = db.rest.controls.rows ++ [row])
    (fresh : FreshControl hooks row) : ControlsMove hooks db event next where
  moved id old found := by
    refine ⟨old, ?_, .still⟩
    refine Table.find_some_iff.2 ⟨?_, Table.find_key found⟩
    rw [rows]
    exact List.mem_append_left _ (Table.mem_of_find found)
  fresh id new found absent := by
    rw [Table.find_append rows] at found
    split at found
    · cases found
      exact fresh
    · rw [absent] at found
      cases found

end CodexRemote.Verified.StopControl

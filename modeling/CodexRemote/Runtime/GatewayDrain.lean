import CodexRemote.Runtime.AdmissionGate
import CodexRemote.Store.Errors

/-! # The quiescence check of the live drain

The check reads the durable state and the resident app-server twice, in turn.  Both may
change between two reads, so the check is a machine that advances by one read.
-/

namespace CodexRemote.Runtime

open Store

/-- The target threads in the order of the set that holds them. -/
structure RestartReadinessSnapshot where
  targetThreadIds : List String
  blockers : List String
  observations : List String
deriving DecidableEq, Repr

structure ResidentLifecycleSnapshot where
  generation : Nat
  healthy : Bool
  quarantined : Bool
  restartPending : Bool
  processId : Option Nat
deriving DecidableEq, Repr

/-- The derived `Debug` text -/
def ResidentLifecycleSnapshot.debug (lifecycle : ResidentLifecycleSnapshot) : String :=
  let processId :=
    match lifecycle.processId with
    | none => "None"
    | some id => "Some(" ++ toString id ++ ")"
  "ResidentLifecycleSnapshot \x7b generation: " ++ toString lifecycle.generation ++
    ", healthy: " ++ toString lifecycle.healthy ++
    ", quarantined: " ++ toString lifecycle.quarantined ++
    ", restart_pending: " ++ toString lifecycle.restartPending ++
    ", process_id: " ++ processId ++ " \x7d"

structure AppServerError where
  reason : String
deriving DecidableEq, Repr

inductive LiveDrainError where
  | store (error : StoreError)
  | appServer (error : AppServerError)
deriving DecidableEq, Repr

inductive LiveDrainState where
  | ready
  | blocked (reason : String)
deriving DecidableEq, Repr

/-- What the server answers to the calls of one observation. -/
structure LiveDrainServer where
  lifecycle : ResidentLifecycleSnapshot
  activeTurn : String → Except AppServerError (Option String)
  hasUnsettledRequests : Except AppServerError Bool

/-- The active turns by thread, in the order of the threads. -/
structure LiveObservation where
  lifecycle : ResidentLifecycleSnapshot
  unsettled : Bool
  active : List (String × String)
deriving DecidableEq, Repr

def LiveObservation.blocker (live : LiveObservation) : Option String :=
  if !live.lifecycle.healthy || live.lifecycle.quarantined || live.lifecycle.restartPending ||
      live.lifecycle.processId.isNone then
    some ("resident app-server is not stably healthy: " ++ live.lifecycle.debug)
  else if live.unsettled then
    some "resident app-server has an unsettled approval or input request"
  else
    live.active.head?.map fun (thread, turn) =>
      "resident app-server thread " ++ thread ++ " still has active turn " ++ turn

def activeTurns (server : LiveDrainServer) :
    List String → Except AppServerError (List (String × String))
  | [] => .ok []
  | thread :: threads => do
      let turn ← server.activeTurn thread
      let rest ← activeTurns server threads
      pure (match turn with
        | none => rest
        | some turn => (thread, turn) :: rest)

def observe (server : LiveDrainServer) (durable : RestartReadinessSnapshot) :
    Except AppServerError LiveObservation := do
  let unsettled ← server.hasUnsettledRequests
  let active ← activeTurns server durable.targetThreadIds
  pure ⟨server.lifecycle, unsettled, active⟩

/-- Where `check_runtime_quiescence` stands: the read it does next, with what it
compares that read to. -/
inductive Inspection where
  | durableBefore
  | liveBefore (durable : RestartReadinessSnapshot)
  | durableAfter (durable : RestartReadinessSnapshot) (live : LiveObservation)
  | liveAfter (durable : RestartReadinessSnapshot) (live : LiveObservation)
deriving DecidableEq

inductive Sample where
  | durable (snapshot : Except StoreError RestartReadinessSnapshot)
  | live (server : LiveDrainServer)

/-- The next read, or the result of the check. -/
abbrev Inspected := Inspection ⊕ Except LiveDrainError LiveDrainState

def Inspection.advance : Inspection → Sample → Option Inspected
  | .durableBefore, .durable (.error error) => some (.inr (.error (.store error)))
  | .durableBefore, .durable (.ok durable) =>
    match durable.blockers.head? with
    | some reason => some (.inr (.ok (.blocked reason)))
    | none => some (.inl (.liveBefore durable))
  | .liveBefore durable, .live server =>
    match observe server durable with
    | .error error => some (.inr (.error (.appServer error)))
    | .ok live =>
      match live.blocker with
      | some reason => some (.inr (.ok (.blocked reason)))
      | none => some (.inl (.durableAfter durable live))
  | .durableAfter _ _, .durable (.error error) => some (.inr (.error (.store error)))
  | .durableAfter before live, .durable (.ok durable) =>
    if before ≠ durable then
      some (.inr (.ok (.blocked
        "Rust durable restart state changed during live drain inspection")))
    else some (.inl (.liveAfter durable live))
  | .liveAfter durable before, .live server =>
    match observe server durable with
    | .error error => some (.inr (.error (.appServer error)))
    | .ok live =>
      if before ≠ live then
        some (.inr (.ok (.blocked
          "resident app-server state changed during live drain inspection")))
      else some (.inr (.ok .ready))
  | _, _ => none

/-! ## The drain loop of the gateway

The loop waits for admission, inspects, closes the controls, waits and inspects again,
and reopens the controls whenever the second round does not succeed.  It advances by one
gate call or one read at a time; time is not modelled, so a wait may time out at any look.
-/

inductive GatewayLoopOutcome where
  | shutdown
  | drained (key : DrainFenceKey)
deriving DecidableEq

inductive DrainPhase where
  | admission
  | inspecting (inspection : Inspection)
  | closing
  | finalAdmission
  | finalInspecting (inspection : Inspection)
  | reopening (pause : Bool)
  | pausing
  | returned (outcome : GatewayLoopOutcome)
deriving DecidableEq

structure DrainLoop where
  key : DrainFenceKey
  phase : DrainPhase
  lastReason : String
deriving DecidableEq

/-- What ends one wait of the loop: its own progress, the stop marker or a Ctrl+C,
the end of its time, or a read that has finished. -/
inductive DrainSignal where
  | progress
  | shutdown
  | timedOut
  | sampled (sample : Sample)

/-- What the loop did at the gate or to its caller. -/
inductive DrainAct where
  | moved
  | admitted (key : DrainFenceKey)
  | called (call : GateCall) (reply : GateReply)
  | left (outcome : GatewayLoopOutcome)
deriving DecidableEq

namespace DrainLoop

def start (key : DrainFenceKey) : DrainLoop :=
  ⟨key, .admission, "resident app-server has not been inspected"⟩

def goto (loop : DrainLoop) (phase : DrainPhase) : DrainLoop := { loop with phase }

def leave (loop : DrainLoop) (outcome : GatewayLoopOutcome) : DrainAct × DrainLoop :=
  (.left outcome, loop.goto (.returned outcome))

/-- One look of `wait_for_admission` at the gate. -/
def look (loop : DrainLoop) (shared : SharedGate) (admitted failed : DrainPhase) :
    DrainAct × DrainLoop :=
  match shared.gate.waitDrained loop.key with
  | none => (.moved, loop)
  | some (.ok ()) => (.admitted loop.key, loop.goto admitted)
  | some (.error _) => (.moved, loop.goto failed)

/-- What the loop does with the result of the first inspection. -/
def inspected (loop : DrainLoop) : Except LiveDrainError LiveDrainState → DrainLoop
  | .error _ => loop.goto .pausing
  | .ok (.blocked reason) => { loop with phase := .pausing, lastReason := reason }
  | .ok .ready => loop.goto .closing

/-- What the loop does with the result of the inspection after the controls are closed. -/
def finallyInspected (loop : DrainLoop) :
    Except LiveDrainError LiveDrainState → DrainAct × DrainLoop
  | .error _ => (.moved, loop.goto (.reopening true))
  | .ok (.blocked reason) =>
    (.moved, { loop with phase := .reopening true, lastReason := reason })
  | .ok .ready => loop.leave (.drained loop.key)

/-- Every wait can be left for a shutdown; the two gate calls are synchronous. -/
def waits : DrainPhase → Bool
  | .closing | .reopening _ | .returned _ => false
  | _ => true

/-- The steps that take the lock of the gate: a look at it, and the two calls. -/
def locks (loop : DrainLoop) : DrainSignal → Bool
  | .progress =>
    match loop.phase with
    | .admission | .finalAdmission | .closing | .reopening _ => true
    | _ => false
  | _ => false

def advance (loop : DrainLoop) (shared : SharedGate) :
    DrainSignal → Option (DrainAct × DrainLoop × SharedGate)
  | .shutdown =>
    if waits loop.phase then
      let (act, loop) := loop.leave .shutdown
      some (act, loop, shared)
    else none
  | .timedOut =>
    match loop.phase with
    | .admission => some (.moved, loop, shared)
    | .finalAdmission => some (.moved, loop.goto (.reopening false), shared)
    | _ => none
  | .sampled sample =>
    match loop.phase with
    | .inspecting inspection =>
      (inspection.advance sample).map fun
        | .inl next => (.moved, loop.goto (.inspecting next), shared)
        | .inr result => (.moved, loop.inspected result, shared)
    | .finalInspecting inspection =>
      (inspection.advance sample).map fun
        | .inl next => (.moved, loop.goto (.finalInspecting next), shared)
        | .inr result =>
          let (act, loop) := loop.finallyInspected result
          (act, loop, shared)
    | _ => none
  | .progress =>
    match loop.phase with
    | .admission =>
      let (act, loop) := loop.look shared (.inspecting .durableBefore) .pausing
      some (act, loop, shared)
    | .finalAdmission =>
      let (act, loop) :=
        loop.look shared (.finalInspecting .durableBefore) (.reopening true)
      some (act, loop, shared)
    | .closing =>
      (shared.call (.closeControls loop.key)).map fun (reply, shared) =>
        let phase := if reply = .done then .finalAdmission else .pausing
        (.called (.closeControls loop.key) reply, loop.goto phase, shared)
    | .reopening pause =>
      (shared.call (.openControls loop.key)).map fun (reply, shared) =>
        let phase := if pause then .pausing else .admission
        (.called (.openControls loop.key) reply, loop.goto phase, shared)
    | .pausing => some (.moved, loop.goto .admission, shared)
    | _ => none

end DrainLoop

end CodexRemote.Runtime

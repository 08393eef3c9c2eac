import CodexRemote.Foundations.Counters

/-! # The resident app-server

One state, behind one lock, decides which client requests are admitted to, and how a client is
replaced by the next generation.  Every operation below runs under that lock.
-/

namespace CodexRemote.AppServer

open Foundations

inductive AppServerError where
  | closed
  | generationMismatch (expected actual : Nat)
  | generationQuarantined (generation : Nat)
  | replacementState (message : String)
  /-- the generation counter is at its end, where the program panics -/
  | generationOverflow
  /-- what the callback of an installation returned -/
  | installFailed (message : String)
deriving DecidableEq, Repr

/-- `ClientLifecycle`: what decides whether a client admits operations. -/
structure ClientLifecycle where
  isSealed : Bool
  inFlight : Nat
deriving DecidableEq, Repr

inductive ResidentCloseState where
  | opened
  | terminal
deriving DecidableEq, Repr

/-- A replacement that was started and not installed; clients are known by their identity. -/
structure ReplacementCleanup where
  client : String
  generation : Nat
deriving DecidableEq, Repr

structure ResidentAdmission where
  client : String
  generation : Nat
deriving DecidableEq, Repr

inductive RestartCandidate where
  | notPending
  | busy
  | sealed (client : String)
deriving DecidableEq, Repr

structure ResidentClosePlan where
  current : Option String
  replacement : Option ReplacementCleanup
deriving DecidableEq, Repr

/-- `ResidentStateInner`, with the restart signal and the lifecycles of all clients -/
structure ResidentState where
  client : Option String
  replacementCleanup : Option ReplacementCleanup
  generation : Nat
  quarantined : Bool
  restartPending : Bool
  accepting : Bool
  closeState : ResidentCloseState
  cleanupAuthorizedGeneration : Option Nat
  restartSignal : Option Nat
  lifecycles : String → ClientLifecycle

namespace ResidentState

def new (client : String) (lifecycles : String → ClientLifecycle) : ResidentState where
  client := some client
  replacementCleanup := none
  generation := 1
  quarantined := false
  restartPending := false
  accepting := true
  closeState := .opened
  cleanupAuthorizedGeneration := none
  restartSignal := none
  lifecycles := lifecycles

def setRestartPending (state : ResidentState) (pending : Bool) : ResidentState :=
  { state with
    restartPending := pending
    restartSignal := if pending then some state.generation else none }

def sealClient (state : ResidentState) (client : String) : ResidentState :=
  { state with
    lifecycles := Function.update state.lifecycles client
      { state.lifecycles client with isSealed := true } }

/-! ## Admissions -/

def admitWith (expectedGeneration : Option Nat) (rejectQuarantined : Bool) (state : ResidentState) :
    Except AppServerError ResidentAdmission × ResidentState :=
  match expectedGeneration.filter (· ≠ state.generation) with
  | some expected => (.error (.generationMismatch expected state.generation), state)
  | none =>
    if !state.accepting then (.error .closed, state)
    else if rejectQuarantined && state.quarantined then
      (.error (.generationQuarantined state.generation), state)
    else
      match state.client with
      | none => (.error .closed, state)
      | some client =>
        let lifecycle := state.lifecycles client
        if lifecycle.isSealed then (.error .closed, state)
        else
          (.ok ⟨client, state.generation⟩, { state with
            lifecycles := Function.update state.lifecycles client
              { lifecycle with inFlight := lifecycle.inFlight + 1 } })

def admitRequest (expectedGeneration : Option Nat) (state : ResidentState) :
    Except AppServerError ResidentAdmission × ResidentState :=
  state.admitWith expectedGeneration true

def admitResponse (expectedGeneration : Nat) (state : ResidentState) :
    Except AppServerError ResidentAdmission × ResidentState :=
  state.admitWith (some expectedGeneration) false

/-! ## Restarts -/

/-- The body of `mark_timeout` and of `mark_cancelled` -/
def quarantine (generation : Nat) (state : ResidentState) : ResidentState :=
  if state.generation = generation && state.accepting && state.client.isSome then
    { state with quarantined := true }.setRestartPending true
  else state

def markTimeout (generation : Nat) (state : ResidentState) : ResidentState :=
  state.quarantine generation

def markCancelled (generation : Nat) (state : ResidentState) : ResidentState :=
  state.quarantine generation

def requestRestart (state : ResidentState) : ResidentState :=
  if state.closeState = .opened then state.setRestartPending true else state

/-- A client without running turns and unsettled requests is quiet. -/
def restartCandidate (expectedGeneration : Option Nat) (quiet : Bool) (state : ResidentState) :
    Except AppServerError RestartCandidate × ResidentState :=
  if state.closeState = .terminal || expectedGeneration.any (· ≠ state.generation) ||
      !state.restartPending then (.ok .notPending, state)
  else
    match state.client with
    | none => (.error .closed, state)
    | some client =>
      -- `seal_if_quiescent`
      if (state.lifecycles client).inFlight ≠ 0 || !quiet then (.ok .busy, state)
      else
        (.ok (.sealed client), { state.sealClient client with
          accepting := false
          cleanupAuthorizedGeneration := some state.generation })

/-- The death of the current client -/
def markCurrentClosed (expected : String) (generation : Nat) (state : ResidentState) :
    ResidentState :=
  if state.closeState = .opened && state.generation = generation && state.client = some expected then
    { state with accepting := false }.setRestartPending true
  else state

/-! ## Replacements -/

def replacementGeneration (state : ResidentState) : Option Nat :=
  checkedSucc u64Max state.generation

def recordReplacement (client : String) (generation : Nat) (state : ResidentState) :
    Except AppServerError Unit × ResidentState :=
  if state.closeState ≠ .opened then (.error .closed, state)
  else
    match state.replacementGeneration with
    | none => (.error .generationOverflow, state)
    | some expected =>
      if generation ≠ expected then
        (.error (.replacementState s!"candidate generation {generation} does not follow {expected}"),
          state)
      else if state.replacementCleanup.isSome then
        (.error (.replacementState "another replacement still requires cleanup"), state)
      else (.ok (), { state with replacementCleanup := some ⟨client, generation⟩ })

def finishReplacementCleanup (expected : ReplacementCleanup) (state : ResidentState) :
    Except AppServerError Unit × ResidentState :=
  match state.replacementCleanup with
  | none => (.error (.replacementState "replacement cleanup debt is missing"), state)
  | some actual =>
    if actual ≠ expected then
      (.error (.replacementState "replacement cleanup debt changed identity"), state)
    else (.ok (), { state with replacementCleanup := none })

def replacementChanged : AppServerError :=
  .replacementState "replacement candidate identity or generation changed"

/-- The callback answers `install`, under the lock of the replacement's lifecycle. -/
def installReplacementWith (expected : String) (generation : Nat)
    (install : Except AppServerError Unit) (state : ResidentState) :
    Except AppServerError Unit × ResidentState :=
  if state.closeState ≠ .opened then (.error .closed, state)
  else
    match state.replacementCleanup with
    | none => (.error (.replacementState "replacement candidate is missing"), state)
    | some candidate =>
      match state.replacementGeneration with
      | none => (.error .generationOverflow, state)
      | some next =>
        if candidate.generation ≠ generation || generation ≠ next ||
            candidate.client ≠ expected then (.error replacementChanged, state)
        else if (state.lifecycles expected).isSealed then (.error .closed, state)
        else
          match install with
          | .error error => (.error error, state)
          | .ok () =>
            let installed := { state with
              replacementCleanup := none
              client := some candidate.client
              generation := generation
              cleanupAuthorizedGeneration := none
              quarantined := false }.setRestartPending false
            (.ok (), { installed with accepting := true })

/-! ## Closing -/

def prepareClose (state : ResidentState) : ResidentClosePlan × ResidentState :=
  let closing := { state with accepting := false, closeState := .terminal }.setRestartPending false
  let closing := state.client.elim closing closing.sealClient
  let closing := state.replacementCleanup.elim closing fun cleanup => closing.sealClient cleanup.client
  (⟨state.client, state.replacementCleanup⟩, closing)

def finishCurrentClose (expected : String) (state : ResidentState) :
    Except AppServerError Unit × ResidentState :=
  if state.closeState ≠ .terminal then
    (.error (.replacementState "resident close is no longer terminal"), state)
  else
    match state.client with
    | none => (.ok (), state)
    | some current =>
      if current ≠ expected then
        (.error (.replacementState "resident close target changed identity"), state)
      else (.ok (), { state with client := none })

end ResidentState

end CodexRemote.AppServer

import CodexRemote.Foundations.Counters

/-! # The admission gate

An in-process fence for the restart drain.  Sealed for a key, it admits control work
only, and only while controls are open; unsealed it admits everything.  Live permits
are counted, so that the drain can wait until none is left.
-/

namespace CodexRemote.Runtime

open Foundations

def validToken (value : String) : Bool :=
  !value.isEmpty && value.utf8ByteSize ≤ 128 &&
    value.toList.all fun c => c.isAlphanum || c == '-' || c == '_'

/-- The process id before the first bar and the start ticks after it, both digits. -/
def validProcessIdentity (value : String) : Bool :=
  match value.toList.dropWhile (· != '|') with
  | [] => false
  | _ :: ticks =>
    let pid := value.toList.takeWhile (· != '|')
    !pid.isEmpty && !ticks.isEmpty && pid.all Char.isDigit && ticks.all Char.isDigit

structure DrainFenceKey where
  runtimeId : String
  processIdentity : String
  nonce : String
  valid : validToken runtimeId && validProcessIdentity processIdentity && validToken nonce
deriving DecidableEq

inductive DrainGateError where
  | invalidKey
  | sealed
  | fenceMismatch
  | lockPoisoned
  | timeout (timeoutMs : Nat)
deriving DecidableEq, Repr

def DrainFenceKey.new (runtimeId processIdentity nonce : String) :
    Except DrainGateError DrainFenceKey :=
  if valid : validToken runtimeId && validProcessIdentity processIdentity && validToken nonce then
    .ok ⟨runtimeId, processIdentity, nonce, valid⟩
  else .error .invalidKey

structure GateState where
  active : Nat
  sealedFor : Option DrainFenceKey
  controlsOpen : Bool
deriving DecidableEq

namespace GateState

/-- `GateState::default` -/
def initial : GateState := ⟨0, none, false⟩

/-- The permit counted in, and whether the gate was sealed when it was. -/
def tryEnterKind (gate : GateState) (control : Bool) : Except DrainGateError (Bool × GateState) :=
  if gate.sealedFor.isSome && !(control && gate.controlsOpen) then .error .sealed
  else
    match checkedSucc u64Max gate.active with
    | none => .error .lockPoisoned
    | some active => .ok (gate.sealedFor.isSome, { gate with active })

/-- `AdmissionGate::seal` -/
def sealGate (gate : GateState) (key : DrainFenceKey) : Except DrainGateError GateState :=
  match gate.sealedFor with
  | none => .ok { gate with sealedFor := some key, controlsOpen := true }
  | some active => if active = key then .ok gate else .error .fenceMismatch

def closeControls (gate : GateState) (key : DrainFenceKey) : Except DrainGateError GateState :=
  if gate.sealedFor ≠ some key then .error .fenceMismatch
  else .ok { gate with controlsOpen := false }

def openControls (gate : GateState) (key : DrainFenceKey) : Except DrainGateError GateState :=
  if gate.sealedFor ≠ some key then .error .fenceMismatch
  else .ok { gate with controlsOpen := true }

def isDrainedFor (gate : GateState) (key : DrainFenceKey) : Bool :=
  gate.active == 0 && gate.sealedFor == some key

/-- One look of `wait_drained` under the lock; none sends the caller back to wait. -/
def waitDrained (gate : GateState) (key : DrainFenceKey) : Option (Except DrainGateError Unit) :=
  if gate.sealedFor ≠ some key then some (.error .fenceMismatch)
  else if gate.active = 0 then some (.ok ())
  else none

def release (gate : GateState) (key : DrainFenceKey) : Option GateState :=
  if gate.active ≠ 0 || gate.sealedFor ≠ some key then none
  else some { gate with sealedFor := none, controlsOpen := false }

/-- The check of `with_unsealed`, after which the action runs under the same lock. -/
def withUnsealed (gate : GateState) : Except DrainGateError Unit :=
  if gate.sealedFor.isSome then .error .sealed else .ok ()

def clonePermit (gate : GateState) : GateState :=
  { gate with active := saturatingSucc u64Max gate.active }

def dropPermit (gate : GateState) : GateState := { gate with active := gate.active - 1 }

end GateState

/-! ## One lock section -/

inductive GateCall where
  | tryEnter (control : Bool)
  | clone (permit : Nat)
  | drop (permit : Nat)
  | sealGate (key : DrainFenceKey)
  | closeControls (key : DrainFenceKey)
  | openControls (key : DrainFenceKey)
  | release (key : DrainFenceKey)
  | withUnsealed (permit : Nat)
deriving DecidableEq

def GateCall.key : GateCall → Option DrainFenceKey
  | sealGate key | closeControls key | openControls key | release key => some key
  | _ => none

inductive GateReply where
  | permit (name : Nat) (gateSealed : Bool)
  | done
  | released (ok : Bool)
  | refused (error : DrainGateError)
deriving DecidableEq

/-- The gate with what shares it: the handles and the live permits, each of which holds
one reference to the gate, and the permit whose action runs under the lock. -/
structure SharedGate where
  gate : GateState
  handles : Nat
  permits : List Nat
  issued : Nat
  committing : Option Nat
deriving DecidableEq

namespace SharedGate

def initial : SharedGate := ⟨.initial, 1, [], 0, none⟩

/-- `Arc::clone`, which aborts the process beyond `isize::MAX` references. -/
def issue (shared : SharedGate) (gate : GateState) : Option (Nat × SharedGate) :=
  if i64Max < shared.handles + shared.permits.length then none
  else some (shared.issued,
    { shared with gate, permits := shared.issued :: shared.permits, issued := shared.issued + 1 })

def settle (shared : SharedGate) : Except DrainGateError GateState → GateReply × SharedGate
  | .ok gate => (.done, { shared with gate })
  | .error error => (.refused error, shared)

/-- A call that gets the lock; none when the process aborts or when the caller does not
hold the permit it names. -/
def call (shared : SharedGate) : GateCall → Option (GateReply × SharedGate)
  | .tryEnter control =>
    match shared.gate.tryEnterKind control with
    | .error error => some (.refused error, shared)
    | .ok (gateSealed, gate) =>
      (shared.issue gate).map fun (name, next) => (.permit name gateSealed, next)
  | .clone permit =>
    if permit ∈ shared.permits then
      (shared.issue shared.gate.clonePermit).map fun (name, next) =>
        (.permit name shared.gate.sealedFor.isSome, next)
    else none
  | .drop permit =>
    if permit ∈ shared.permits then
      some (.done, { shared with
        gate := shared.gate.dropPermit, permits := shared.permits.erase permit })
    else none
  | .sealGate key => some (shared.settle (shared.gate.sealGate key))
  | .closeControls key => some (shared.settle (shared.gate.closeControls key))
  | .openControls key => some (shared.settle (shared.gate.openControls key))
  | .release key =>
    match shared.gate.release key with
    | none => some (.released false, shared)
    | some gate => some (.released true, { shared with gate })
  | .withUnsealed permit =>
    if permit ∈ shared.permits then
      match shared.gate.withUnsealed with
      | .error error => some (.refused error, shared)
      | .ok () => some (.done, { shared with committing := some permit })
    else none

end SharedGate

end CodexRemote.Runtime

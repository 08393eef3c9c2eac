import CodexRemote.Foundations.Counters
import CodexRemote.Store.IdleRelease

/-! # The target gate

Counted permits of ordinary mutations and exclusive permits of subscription maintenance.  The
parts of `admit` and `reserve` run under one lock, with the journal's transaction between them.
-/

namespace CodexRemote.AppServer

open Foundations
open Store.IdleRelease (Intent)

/-- An entry of the `mutations` map.  No target stands for every one. -/
structure MutationCount where
  target : Option String
  count : Nat
deriving DecidableEq, Repr

/-- The gate, after its journal is installed. -/
structure TargetGate where
  mutations : Table MutationCount.target
  exclusive : List String
deriving DecidableEq

def TargetGate.default : TargetGate := ⟨.empty, []⟩

namespace TargetGate

def admitted (gate : TargetGate) (target : Option String) : Bool :=
  (gate.mutations.find target).isSome

/-- `admit` refuses a target whose subscription is maintained. -/
def maintained (gate : TargetGate) : Option String → Bool
  | none => !gate.exclusive.isEmpty
  | some thread => gate.exclusive.contains thread

/-- An ordinary permit is counted. -/
def count (target : Option String) (gate : TargetGate) : TargetGate :=
  { gate with
    mutations := gate.mutations.put
      ⟨target, ((gate.mutations.find target).map (·.count)).getD 0 + 1⟩ }

/-- Whether an ordinary permit stands in the way of an exclusive one. -/
def mutating (gate : TargetGate) (thread : String) : Bool :=
  gate.admitted none || gate.admitted (some thread)

def insertExclusive (thread : String) (gate : TargetGate) : TargetGate :=
  { gate with exclusive := gate.exclusive.insert thread }

/-- The check of `reserve` before it asks the journal. -/
def reservable (gate : TargetGate) (token : Intent) : Bool :=
  !(gate.mutating token.threadId || gate.exclusive.contains token.threadId)

def releaseExclusive (thread : String) (gate : TargetGate) : TargetGate :=
  { gate with exclusive := gate.exclusive.filter fun held => held ≠ thread }

/-- The drop of an ordinary permit; none stands for a permit that was not counted. -/
def drop (target : Option String) (gate : TargetGate) : Option TargetGate :=
  (gate.mutations.find target).map fun entry =>
    { gate with
      mutations :=
        if entry.count - 1 = 0 then gate.mutations.remove target
        else gate.mutations.put ⟨target, entry.count - 1⟩ }

end TargetGate

/-! ## The latch of observation gaps -/

/-- The counter beside the lock.  It is odd while a gap is not cleared. -/
structure ObservationLatch where
  observationGap : Nat
  bounded : observationGap ≤ u64Max

namespace ObservationLatch

def default : ObservationLatch := ⟨0, Nat.zero_le _⟩

/-- A saturating sum: from one odd value to the next -/
def markGap (latch : ObservationLatch) : ObservationLatch :=
  ⟨min u64Max (latch.observationGap + (1 + latch.observationGap % 2)), Nat.min_le_left ..⟩

def holdUnattributedGap (_ : ObservationLatch) : ObservationLatch := ⟨u64Max, Nat.le_refl _⟩

def gapEpoch (latch : ObservationLatch) : Nat := latch.observationGap

def observationsVerified (latch : ObservationLatch) : Bool := latch.gapEpoch % 2 = 0

/-- An odd epoch is exchanged for the next even one. -/
def clearGap (latch : ObservationLatch) (expected : Nat) : Bool × ObservationLatch :=
  if top : expected = u64Max then (false, latch)
  else if expected % 2 = 0 then (latch.gapEpoch = expected, latch)
  else if same : latch.observationGap = expected then
    (true, ⟨expected + 1, Nat.lt_of_le_of_ne (same ▸ latch.bounded) top⟩)
  else (false, latch)

end ObservationLatch

/-! ## Reconciling the observed prefix -/

/-- A call of `reconcile_idle_observation_prefix` between two of its reads and writes -/
inductive ReconcileCall where
  | reading
  | asking (epoch : Nat)
  | certifying (epoch : Nat)
  | clearing (epoch : Nat)
  | returned (result : Except String Bool)

/-- One part of a call.  The scope is answered by the journal, if there is one, and the prefix by
the client of the generation, if that is admitted. -/
def ReconcileCall.advance (scopeVerified : Option (Except String Bool))
    (certified : Except String Bool) (latch : ObservationLatch) :
    ReconcileCall → ReconcileCall × ObservationLatch
  | .reading => (.asking latch.gapEpoch, latch)
  | .asking epoch =>
    match scopeVerified with
    | none => (.returned (.ok false), latch)
    | some (.error held) => (.returned (.error held), latch)
    | some (.ok false) => (.returned (.ok false), latch)
    | some (.ok true) => (.certifying epoch, latch)
  | .certifying epoch =>
    match certified with
    | .error refused => (.returned (.error refused), latch)
    | .ok false => (.returned (.ok false), latch)
    | .ok true => (.clearing epoch, latch)
  | .clearing epoch =>
    let (cleared, latch) := latch.clearGap epoch
    (.returned (.ok cleared), latch)
  | .returned result => (.returned result, latch)

end CodexRemote.AppServer

import CodexRemote.Foundations.Queues

/-! # The ready queues of the completion worker

Two bounded deques: state work, one lane per target, and HTTP deliveries, one lane
per channel.  Live events are the payload that must not be lost or reordered;
everything else is rediscoverable metadata.
-/

namespace CodexRemote.Runtime

open Foundations

def readyCap : Nat := 128
def targetCap : Nat := 16
def nativeSlots : Nat := 3

/-- `cdr_store::completion_work::Source` -/
inductive Source where
  | observed
  | queue
  | asyncOrphan
  | commentary
  | goal
  | startFailure
  | question
  | final
deriving DecidableEq, Repr

def Source.isState : Source → Bool
  | .observed | .queue | .asyncOrphan => true
  | _ => false

structure Entry where
  source : Source
  id : String
  target : String
  turn : String
  channel : Int
  bytes : Nat
  /-- stamp, ordinal and id of its position -/
  position : Rat × Int × String
deriving DecidableEq, Repr

def Entry.sameIdentity (entry other : Entry) : Bool :=
  entry.source == other.source && entry.id == other.id && entry.target == other.target &&
    entry.turn == other.turn

structure Envelope (ε : Type) where
  event : ε
  target : String

structure WriterRetryHint where
  target : String
deriving DecidableEq, Repr

inductive StateWork (ε : Type) where
  | live (envelope : Envelope ε)
  | durable (entry : Entry)
  | writerRetry (hint : WriterRetryHint)

namespace StateWork

variable {ε : Type}

def target : StateWork ε → String
  | live e => e.target
  | durable e => e.target
  | writerRetry hint => hint.target

def isLive : StateWork ε → Bool
  | live _ => true
  | _ => false

end StateWork

structure Ready (ε : Type) where
  state : List (StateWork ε)
  http : List Entry

namespace Ready

variable {ε σ τ : Type}

def empty : Ready ε := ⟨[], []⟩

def len (ready : Ready ε) : Nat := ready.state.length + ready.http.length

/-- Remove the first state work that is not a live event, if there is one. -/
def evictHint (ready : Ready ε) : Option (Ready ε) :=
  (ready.state.findIdx? (fun w => !w.isLive)).map fun index =>
    { ready with state := ready.state.eraseIdx index }

/-- `VecDeque::pop_back` on the HTTP queue. -/
def popHttp (ready : Ready ε) : Option (Ready ε) :=
  if ready.http.isEmpty then none else some { ready with http := ready.http.dropLast }

def live (ready : Ready ε) (event : Envelope ε) : Bool × Ready ε :=
  -- queued recovery cannot overtake a start or handoff already accepted here
  let ready := { ready with
    state := ready.state.filter fun w => w.isLive || w.target != event.target }
  if targetCap ≤ ready.state.countP (fun w => w.target == event.target) then (false, ready)
  else
    let room :=
      if readyCap ≤ ready.len then ready.evictHint.or ready.popHttp else some ready
    match room with
    | none => (false, ready)
    | some ready => (true, { ready with state := ready.state ++ [.live event] })

def durable (ready : Ready ε) (entry : Entry) (active : String → Bool) : Ready ε :=
  if readyCap ≤ ready.len then ready
  else if entry.source.isState then
    if active entry.target || ready.state.any (fun w => w.target == entry.target) then ready
    else { ready with state := ready.state ++ [.durable entry] }
  else if !ready.http.any (fun e => e.sameIdentity entry) then
    { ready with http := ready.http ++ [entry] }
  else ready

def writerRetry (ready : Ready ε) (hint : WriterRetryHint) (active : String → Bool) : Ready ε :=
  if ready.len < readyCap && !active hint.target &&
      !ready.state.any (fun work => work.target == hint.target) then
    { ready with state := ready.state ++ [.writerRetry hint] }
  else ready

def prioritize (ready : Ready ε) (entry : Entry) : Ready ε :=
  let ready := { ready with http := ready.http.filter fun prior => !prior.sameIdentity entry }
  let room := if readyCap ≤ ready.len then ready.popHttp.or ready.evictHint else some ready
  match room with
  | none => ready
  | some ready => { ready with http := entry :: ready.http }

/-- What the scan of `take_state_admitted` returns: the index it selected with the
permit and native flag, the indices of refused hints, and the caller's state. -/
structure Scan (σ τ : Type) where
  selected : Option (Nat × τ × Bool)
  deferred : List Nat
  caller : σ

/-- The `find_map` of `take_state_admitted` from `index` on.  `admits` is a stateful
callback, asked only about the first work of a target that is not active. -/
def scan (active : String → Bool) (native : Nat)
    (admits : StateWork ε → σ → Option (τ × Bool) × σ) (index : Nat) (heads : List String)
    (deferred : List Nat) : List (StateWork ε) → σ → Scan σ τ
  | [], caller => ⟨none, deferred, caller⟩
  | work :: rest, caller =>
    if heads.contains work.target then
      scan active native admits (index + 1) heads deferred rest caller
    else
      let heads := work.target :: heads
      if active work.target then
        scan active native admits (index + 1) heads deferred rest caller
      else
        match admits work caller with
        | (none, caller) =>
          let deferred := if work.isLive then deferred else deferred ++ [index]
          scan active native admits (index + 1) heads deferred rest caller
        | (some (permit, needsNative), caller) =>
          if !needsNative || native < nativeSlots then
            ⟨some (index, permit, needsNative), deferred, caller⟩
          else scan active native admits (index + 1) heads deferred rest caller

def takeStateAdmitted (ready : Ready ε) (active : String → Bool) (native : Nat)
    (admits : StateWork ε → σ → Option (τ × Bool) × σ) (caller : σ) :
    Option (StateWork ε × τ × Bool) × Ready ε × σ :=
  let found := scan active native admits 0 [] [] ready.state caller
  let chosen := found.selected.bind fun (index, permit, needsNative) =>
    ready.state[index]?.map fun work => (work, permit, needsNative)
  let state :=
    match found.selected with
    | some (index, _, _) => ready.state.eraseIdx index
    | none => ready.state
  (chosen, { ready with state := eraseEach found.deferred.reverse state }, found.caller)

def takeHttp (ready : Ready ε) (active : Int → Bool) : Option Entry × Ready ε :=
  match ready.http.findIdx? (fun e => !active e.channel) with
  | none => (none, ready)
  | some index => (ready.http[index]?, { ready with http := ready.http.eraseIdx index })

end Ready

end CodexRemote.Runtime

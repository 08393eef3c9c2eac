import CodexRemote.Foundations.Tables
import CodexRemote.Store.Json

/-! # Server requests

The requests of the app server that wait for an answer, from `ServerRequestState`.
-/

namespace CodexRemote.AppServer

open Foundations
open Store (Json)

inductive RequestId where
  | string (value : String)
  | integer (value : Int)
deriving DecidableEq, Repr

/-- The bytes of a UUID. -/
abbrev ServerRequestOccurrence := Vector UInt8 16

structure ServerRequest where
  id : RequestId
  occurrence : ServerRequestOccurrence
  method : String
  params : Json

structure ServerRequestKey where
  id : RequestId
  occurrence : ServerRequestOccurrence
deriving DecidableEq

def ServerRequestKey.forRequest (request : ServerRequest) : ServerRequestKey :=
  ⟨request.id, request.occurrence⟩

inductive ResponseStatus where
  | responding
  | indeterminate
deriving DecidableEq, Repr

structure ClaimedServerRequest where
  request : ServerRequest
  status : ResponseStatus

def ClaimedServerRequest.key (claimed : ClaimedServerRequest) : ServerRequestKey :=
  .forRequest claimed.request

inductive ServerRequestRecordError where
  | conflict (id : RequestId)
  | saturated (id : RequestId)
deriving DecidableEq

inductive ServerRequestRecordOutcome where
  | broadcast (request : ServerRequest)
  | duplicate
  | deferred

/-- The errors of a response. -/
inductive ResponseError where
  | serverRequestResponseInFlight (id : RequestId)
  | serverRequestResponseIndeterminate (id : RequestId)
  | staleServerRequest (id : RequestId)
deriving DecidableEq

structure ServerRequestState where
  order : List ServerRequestKey
  pending : Table ServerRequest.id
  claimed : Table ClaimedServerRequest.key
  deferred : Table ServerRequest.id

def ServerRequestState.default : ServerRequestState := ⟨[], .empty, .empty, .empty⟩

def maxUnsettledServerRequests : Nat := 500

/-- The method and the parameters are the same. -/
def ServerRequest.repeats (existing request : ServerRequest) : Bool :=
  existing.method = request.method && Json.same existing.params request.params

namespace ServerRequestState

def ensureCapacity (state : ServerRequestState) (id : RequestId) :
    Except ServerRequestRecordError Unit :=
  if maxUnsettledServerRequests ≤ state.order.length then .error (.saturated id) else .ok ()

/-- The claimed request of an id.  The map has at most one. -/
def claimedFor (state : ServerRequestState) (id : RequestId) : Option ClaimedServerRequest :=
  state.claimed.rows.find? fun claimed => claimed.request.id = id

def record (request : ServerRequest) (state : ServerRequestState) :
    Except ServerRequestRecordError ServerRequestRecordOutcome × ServerRequestState :=
  match state.pending.find request.id with
  | some existing =>
    (if existing.repeats request then .ok .duplicate else .error (.conflict request.id), state)
  | none =>
    match state.claimedFor request.id with
    | some claimed =>
      if claimed.request.repeats request then (.ok .duplicate, state)
      else
        match state.deferred.find request.id with
        | some existing =>
          (if existing.repeats request then .ok .deferred
            else .error (.conflict request.id), state)
        | none =>
          match state.ensureCapacity request.id with
          | .error error => (.error error, state)
          | .ok () =>
            (.ok .deferred, { state with
              order := state.order ++ [.forRequest request]
              deferred := state.deferred.put request })
    | none =>
      match state.ensureCapacity request.id with
      | .error error => (.error error, state)
      | .ok () =>
        (.ok (.broadcast request), { state with
          order := state.order ++ [.forRequest request]
          pending := state.pending.put request })

def responseCandidate (state : ServerRequestState) (id : RequestId)
    (occurrence : ServerRequestOccurrence) : Except ResponseError ServerRequest :=
  match state.claimed.find ⟨id, occurrence⟩ with
  | some claimed =>
    .error (match claimed.status with
      | .responding => .serverRequestResponseInFlight id
      | .indeterminate => .serverRequestResponseIndeterminate id)
  | none =>
    match state.pending.find id with
    | none => .error (.staleServerRequest id)
    | some request =>
      if request.occurrence ≠ occurrence then .error (.staleServerRequest id) else .ok request

def beginResponse (id : RequestId) (occurrence : ServerRequestOccurrence)
    (state : ServerRequestState) : Except ResponseError Unit × ServerRequestState :=
  match state.responseCandidate id occurrence with
  | .error error => (.error error, state)
  | .ok request =>
    (.ok (), { state with
      pending := state.pending.remove id
      claimed := state.claimed.put ⟨request, .responding⟩ })

def markIndeterminate (id : RequestId) (occurrence : ServerRequestOccurrence)
    (state : ServerRequestState) : ServerRequestState :=
  { state with
    claimed := state.claimed.update
      (fun claimed => claimed.key = ⟨id, occurrence⟩ ∧ claimed.status = .responding)
      (fun claimed => { claimed with status := .indeterminate }) (fun _ => rfl) }

/-- `resolve`, with the deferred request that takes the place of the resolved one. -/
def resolve (id : RequestId) (occurrence : ServerRequestOccurrence) (state : ServerRequestState) :
    Except ResponseError (Option ServerRequest) × ServerRequestState :=
  if (state.claimed.find ⟨id, occurrence⟩).isNone then (.error (.staleServerRequest id), state)
  else
    let promoted := state.deferred.find id
    (.ok promoted, {
      order := state.order.filter fun ordered => ordered ≠ ⟨id, occurrence⟩
      pending := promoted.elim state.pending state.pending.put
      claimed := state.claimed.remove ⟨id, occurrence⟩
      deferred := state.deferred.remove id })

end ServerRequestState

end CodexRemote.AppServer

import CodexRemote.Foundations.Tables
import CodexRemote.RemoteAgent.Protocol

/-! # The bridge broker

The maps of `BrokerState` and the sections that run under their lock.  The clock, new UUIDs
and the order in which a hash map is walked are arguments.
-/

namespace CodexRemote.McpServer

open Foundations
open RemoteAgent (DateTime GatewayCommand BridgeResult ProjectOperation CommandHeader)

namespace Broker

structure BridgeIdentity where
  deviceId : String
  connectionId : String
deriving DecidableEq, Repr

structure ProjectRegistration where
  projectScope : String
  bindingId : String
  threadId : String
  projectName : String
  expiresAt : DateTime
deriving DecidableEq, Repr

inductive SelectionTarget where
  | project
  | device (workingDirectory : String)
deriving DecidableEq, Repr

structure SessionRoute where
  session : String
  subject : String
  deviceId : String
  threadId : String
  computerSessionId : String
  generation : Nat
  expiresAt : DateTime
  target : SelectionTarget
deriving DecidableEq, Repr

structure DormantRoute where
  route : SessionRoute
  projectScope : String
  bindingId : String
  resumeUntil : DateTime
deriving DecidableEq, Repr

inductive BrokerError where
  | bridgeUnavailable
  | projectUnavailable
  | projectOwnedByAnotherDevice
  | activeSelectionMissing
  | principalMismatch
  | responseTimeout
  | cancelled
  | missingResult
  | wrongResultType
  | remoteOperation (message : String)
  | invalidRequest (message : String)
deriving DecidableEq, Repr

/-- A value of the `projects` map, whose key is its scope. -/
structure OwnedProject where
  owner : String
  project : ProjectRegistration
deriving DecidableEq, Repr

def OwnedProject.scope (entry : OwnedProject) : String := entry.project.projectScope

/-- An entry of the `generations` map.  It counts the selections of one thread: a `u64` of the
source, whose overflow after 2^64 of them is not modelled. -/
structure GenerationEntry where
  deviceId : String
  threadId : String
  generation : Nat
deriving DecidableEq, Repr

def GenerationEntry.key (entry : GenerationEntry) : String × String :=
  (entry.deviceId, entry.threadId)

/-- An entry of the `pending` map.  Its response channel is the one of the call that made
the request. -/
structure PendingRequest where
  requestId : String
  deviceId : String
  connectionId : String
deriving DecidableEq, Repr

/-- The key under which a route is kept dormant. -/
def DormantRoute.key (dormant : DormantRoute) : String × String :=
  (dormant.route.deviceId, dormant.route.threadId)

structure BrokerState where
  devices : Table BridgeIdentity.deviceId
  projects : Table OwnedProject.scope
  sessions : Table SessionRoute.session
  generations : Table GenerationEntry.key
  pending : Table PendingRequest.requestId
  dormant : Table DormantRoute.key
deriving DecidableEq

def BrokerState.empty : BrokerState := ⟨.empty, .empty, .empty, .empty, .empty, .empty⟩

def restartRouteGraceSeconds : DateTime := 120

/-! ## Connections -/

/-- The order in which a sweep meets the entries of the maps that it walks. -/
structure MapOrder (state : BrokerState) where
  routes : List SessionRoute
  projects : List OwnedProject
  routes_perm : routes.Perm state.sessions.rows
  projects_perm : projects.Perm state.projects.rows

/-- The order in which the entries were made. -/
def MapOrder.inserted (state : BrokerState) : MapOrder state := ⟨_, _, .refl _, .refl _⟩

/-- The project of a route among those that its device owns. -/
def projectOf (projects : List OwnedProject) (deviceId : String) (route : SessionRoute) :
    Option ProjectRegistration :=
  ((projects.filter fun entry => entry.owner = deviceId).map (·.project)).find? fun project =>
    project.threadId = route.threadId

/-- What `disconnect` keeps of a route. -/
def dormantOf (now : DateTime) (projects : List OwnedProject) (deviceId : String)
    (route : SessionRoute) : Option DormantRoute :=
  if route.target = .project ∧ now < route.expiresAt then
    (projectOf projects deviceId route).map fun project =>
      ⟨route, project.projectScope, project.bindingId,
        min route.expiresAt (now + restartRouteGraceSeconds)⟩
  else none

def BrokerState.disconnect (now : DateTime) (state : BrokerState) (order : MapOrder state)
    (deviceId connectionId : String) : BrokerState :=
  if (state.devices.find deviceId).any fun value => value.connectionId = connectionId then
    { state with
      devices := state.devices.remove deviceId
      -- a route that comes later in the walk replaces one of the same thread
      dormant := ((order.routes.filter fun route => route.deviceId = deviceId).filterMap
        (dormantOf now order.projects deviceId)).foldl Table.put state.dormant
      projects := state.projects.delete fun entry => entry.owner = deviceId
      sessions := state.sessions.delete fun route => route.deviceId = deviceId
      pending := state.pending.delete fun pending =>
        pending.deviceId = deviceId ∧ pending.connectionId = connectionId }
  else state

def attach (now : DateTime) (identity : BridgeIdentity) (state : BrokerState)
    (order : MapOrder state) : BrokerState :=
  let state :=
    match state.devices.find identity.deviceId with
    | some previous => state.disconnect now order identity.deviceId previous.connectionId
    | none => state
  { state with devices := state.devices.put identity }

def detach (now : DateTime) (identity : BridgeIdentity) (state : BrokerState)
    (order : MapOrder state) : BrokerState :=
  state.disconnect now order identity.deviceId identity.connectionId

def requireConnection (state : BrokerState) (identity : BridgeIdentity) : Except BrokerError Unit :=
  if (state.devices.find identity.deviceId).any fun value =>
      value.connectionId = identity.connectionId then .ok ()
  else .error .bridgeUnavailable

def BrokerState.retainSessions (now : DateTime) (state : BrokerState) : BrokerState :=
  { state with sessions := state.sessions.delete fun route => route.expiresAt ≤ now }

def BrokerState.retainDormant (now : DateTime) (state : BrokerState) : BrokerState :=
  { state with
    dormant := state.dormant.delete fun value =>
      value.resumeUntil ≤ now ∨ value.route.expiresAt ≤ now }

/-- The first part of `upsert`: what has expired is dropped. -/
def BrokerState.retainCurrent (now : DateTime) (state : BrokerState) : BrokerState :=
  { (state.retainSessions now).retainDormant now with
    projects := state.projects.delete fun entry => entry.project.expiresAt ≤ now }

/-- The registration is the current one of its scope, but for its expiry. -/
def BrokerState.renews (state : BrokerState) (deviceId : String) (project : ProjectRegistration) :
    Bool :=
  (state.projects.find project.projectScope).any fun entry =>
    entry.owner = deviceId ∧ entry.project.bindingId = project.bindingId ∧
      entry.project.threadId = project.threadId ∧ entry.project.projectName = project.projectName

/-- The branch of `upsert` for a registration that stands. -/
def BrokerState.renew (state : BrokerState) (deviceId : String) (project : ProjectRegistration) :
    BrokerState :=
  { state with
    projects := state.projects.put ⟨deviceId, project⟩
    sessions := state.sessions.update
      (fun route => route.deviceId = deviceId ∧ route.threadId = project.threadId)
      (fun route => { route with expiresAt := max route.expiresAt project.expiresAt })
      (fun _ => rfl)
    dormant := state.dormant.update (fun value => value.key = (deviceId, project.threadId))
      (fun value => { value with
        route := { value.route with expiresAt := max value.route.expiresAt project.expiresAt } })
      (fun _ => rfl) }

/-- The branch of `upsert` for a new registration.  Routes are dropped by the new thread only. -/
def BrokerState.register (state : BrokerState) (deviceId : String) (project : ProjectRegistration) :
    BrokerState :=
  { state with
    projects := (state.projects.delete fun entry =>
      ¬(entry.owner ≠ deviceId ∨ entry.project.threadId ≠ project.threadId ∨
        entry.scope = project.projectScope)).put ⟨deviceId, project⟩
    sessions := state.sessions.delete fun route =>
      ¬(route.deviceId ≠ deviceId ∨ route.threadId ≠ project.threadId)
    dormant := state.dormant.delete fun value =>
      value.key = (deviceId, project.threadId) ∧
        (value.projectScope ≠ project.projectScope ∨ value.bindingId ≠ project.bindingId) }

def upsert (now : DateTime) (identity : BridgeIdentity) (project : ProjectRegistration)
    (state : BrokerState) : Except BrokerError Unit × BrokerState :=
  match requireConnection state identity with
  | .error error => (.error error, state)
  | .ok () =>
    let state := state.retainCurrent now
    if project.expiresAt ≤ now then (.error .projectUnavailable, state)
    else if (state.projects.find project.projectScope).any fun entry =>
        entry.owner ≠ identity.deviceId then (.error .projectOwnedByAnotherDevice, state)
    else if state.dormant.contains fun value =>
        value.projectScope = project.projectScope ∧ value.route.deviceId ≠ identity.deviceId then
      (.error .projectOwnedByAnotherDevice, state)
    else if state.renews identity.deviceId project then
      (.ok (), state.renew identity.deviceId project)
    else (.ok (), state.register identity.deviceId project)

def resultRequestId : BridgeResult → String
  | .output requestId _ => requestId
  | .projectSessionResult requestId => requestId
  | .operationError requestId _ _ => requestId

/-- `complete`, with the pending request whose caller the result is sent to. -/
def complete (identity : BridgeIdentity) (result : BridgeResult) (state : BrokerState) :
    Option PendingRequest × BrokerState :=
  match requireConnection state identity with
  | .error _ => (none, state)
  | .ok () =>
    match (state.pending.find (resultRequestId result)).filter fun pending =>
        pending.deviceId = identity.deviceId ∧ pending.connectionId = identity.connectionId with
    | none => (none, state)
    | some pending =>
      (some pending, { state with pending := state.pending.remove (resultRequestId result) })

/-! ## Routes -/

def BrokerState.generation (state : BrokerState) (deviceId threadId : String) : Nat :=
  ((state.generations.find (deviceId, threadId)).map (·.generation)).getD 0

/-- A new route takes its generation and its place in the map. -/
def BrokerState.enroute (state : BrokerState) (route : SessionRoute) : BrokerState :=
  { state with
    generations := state.generations.put ⟨route.deviceId, route.threadId, route.generation⟩
    sessions := state.sessions.put route }

/-- The dormant route that a registration resumes. -/
def BrokerState.resumable (state : BrokerState) (now : DateTime) (identity : BridgeIdentity)
    (project : ProjectRegistration) : Option DormantRoute :=
  (state.dormant.find (identity.deviceId, project.threadId)).filter fun dormant =>
    ¬(dormant.projectScope ≠ project.projectScope ∨ dormant.bindingId ≠ project.bindingId ∨
      dormant.resumeUntil ≤ now)

def resumedRoute (state : BrokerState) (computerSessionId : String) (identity : BridgeIdentity)
    (project : ProjectRegistration) (dormant : DormantRoute) : SessionRoute where
  session := dormant.route.session
  subject := dormant.route.subject
  deviceId := identity.deviceId
  threadId := project.threadId
  computerSessionId := computerSessionId
  generation := max (state.generation identity.deviceId project.threadId) dormant.route.generation + 1
  expiresAt := project.expiresAt
  target := .project

/-- The state section of `resume_project`: the dormant route it takes and the new one. -/
def resumeProject (now : DateTime) (computerSessionId : String) (identity : BridgeIdentity)
    (project : ProjectRegistration) (state : BrokerState) :
    Except BrokerError (Option (DormantRoute × SessionRoute)) × BrokerState :=
  match requireConnection state identity with
  | .error error => (.error error, state)
  | .ok () =>
    let state := state.retainDormant now
    if (state.projects.find project.projectScope).any fun entry =>
        entry.owner = identity.deviceId ∧ entry.project = project then
      let taken := { state with
        dormant := state.dormant.remove (identity.deviceId, project.threadId) }
      match state.resumable now identity project with
      | none => (.ok none, taken)
      | some dormant =>
        let route := resumedRoute state computerSessionId identity project dormant
        (.ok (some (dormant, route)), taken.enroute route)
    else (.ok none, state)

/-- A chat's session belongs to one principal. -/
def BrokerState.foreignSession (state : BrokerState) (session subject : String) : Bool :=
  (state.sessions.find session).any fun existing => existing.subject ≠ subject

def prepareProjectRoute (now : DateTime) (computerSessionId session subject scope : String)
    (state : BrokerState) : Except BrokerError (ProjectRegistration × SessionRoute) × BrokerState :=
  match (state.projects.find scope).filter fun entry => now < entry.project.expiresAt with
  | none => (.error .projectUnavailable, state)
  | some entry =>
    if (state.devices.find entry.owner).isNone then (.error .bridgeUnavailable, state)
    else if state.foreignSession session subject then (.error .principalMismatch, state)
    else
      let route : SessionRoute :=
        ⟨session, subject, entry.owner, entry.project.threadId, computerSessionId,
          state.generation entry.owner entry.project.threadId + 1, entry.project.expiresAt,
          .project⟩
      (.ok (entry.project, route), state.enroute route)

def deviceThreadId : String := "codex-device-control"
def deviceRouteTtlSeconds : DateTime := 1800

def prepareDeviceRoute (now : DateTime) (computerSessionId session subject deviceId : String)
    (workingDirectory : String) (state : BrokerState) :
    Except BrokerError SessionRoute × BrokerState :=
  if (state.devices.find deviceId).isNone then (.error .bridgeUnavailable, state)
  else if state.foreignSession session subject then (.error .principalMismatch, state)
  else
    let route : SessionRoute :=
      ⟨session, subject, deviceId, deviceThreadId, computerSessionId,
        state.generation deviceId deviceThreadId + 1, now + deviceRouteTtlSeconds,
        .device workingDirectory⟩
    (.ok route, state.enroute route)

def activeRoute (now : DateTime) (session subject : String) (state : BrokerState) :
    Except BrokerError SessionRoute × BrokerState :=
  let state := state.retainSessions now
  match state.sessions.find session with
  | none => (.error .activeSelectionMissing, state)
  | some route =>
    if route.subject ≠ subject then (.error .principalMismatch, state)
    else if (state.devices.find route.deviceId).isNone then (.error .bridgeUnavailable, state)
    else (.ok route, state)

def validateDirectory (value : String) : Except BrokerError Unit :=
  if value.isEmpty ∨ value.utf8ByteSize > 1000 then
    .error (.invalidRequest "working_directory must contain 1 to 1000 characters")
  else .ok ()

/-! ## Dispatch -/

/-- The route is still the one of its session. -/
def BrokerState.isCurrent (state : BrokerState) (route : SessionRoute) : Bool :=
  (state.sessions.find route.session).any fun value =>
    value.computerSessionId = route.computerSessionId

/-- The first section of `dispatch_on_route_cancellable`: the connection that the command is to
be sent on. -/
def enqueuePending (route : SessionRoute) (requestId : String) (state : BrokerState) :
    Except BrokerError BridgeIdentity × BrokerState :=
  match (state.sessions.find route.session).filter fun value =>
      value.computerSessionId = route.computerSessionId with
  | none => (.error .activeSelectionMissing, state)
  | some current =>
    match state.devices.find current.deviceId with
    | none => (.error .bridgeUnavailable, state)
    | some connection =>
      (.ok connection, { state with
        pending := state.pending.put ⟨requestId, route.deviceId, connection.connectionId⟩ })

def removePending (requestId : String) (state : BrokerState) : BrokerState :=
  { state with pending := state.pending.remove requestId }

def removeRouteIfCurrent (route : SessionRoute) (state : BrokerState) : BrokerState :=
  if state.isCurrent route then { state with sessions := state.sessions.remove route.session }
  else state

def requireSessionResult : BridgeResult → Except BrokerError Unit
  | .projectSessionResult _ => .ok ()
  | .operationError _ _ message => .error (.remoteOperation message)
  | .output _ _ => .error .wrongResultType

/-- The command that activates a route. -/
def activation (requestId : String) (deadlineAt : DateTime) (route : SessionRoute) :
    GatewayCommand :=
  match route.target with
  | .project =>
    .projectSession ⟨requestId, route.threadId, deadlineAt⟩ route.computerSessionId
      route.generation
  | .device workingDirectory =>
    .deviceSession ⟨requestId, route.threadId, deadlineAt⟩ route.computerSessionId
      route.generation workingDirectory route.expiresAt

/-- The operations on an active route. -/
inductive RouteOperation where
  | projectInfo
  | listFiles (pattern : String) (limit : Nat)
  | readFile (path : String) (startLine maxLines : Nat)
  | writeFile (path content : String) (expectedSha256 : Option String)
  | projectOperation (operation : ProjectOperation)
deriving DecidableEq, Repr

def RouteOperation.command (requestId : String) (deadlineAt : DateTime) (route : SessionRoute) :
    RouteOperation → GatewayCommand
  | .projectInfo =>
    .projectInfo ⟨requestId, route.threadId, deadlineAt⟩ (some route.computerSessionId)
  | .listFiles pattern limit =>
    .listFiles ⟨requestId, route.threadId, deadlineAt⟩ (some route.computerSessionId) pattern limit
  | .readFile path startLine maxLines =>
    .readFile ⟨requestId, route.threadId, deadlineAt⟩ (some route.computerSessionId) path startLine
      maxLines
  | .writeFile path content expectedSha256 =>
    .writeFile ⟨requestId, route.threadId, deadlineAt⟩ (some route.computerSessionId) path content
      expectedSha256
  | .projectOperation operation =>
    .projectOperation ⟨requestId, route.threadId, deadlineAt⟩ (some route.computerSessionId)
      operation

end Broker

end CodexRemote.McpServer

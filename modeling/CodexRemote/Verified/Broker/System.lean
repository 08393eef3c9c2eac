import CodexRemote.Foundations.Runs
import CodexRemote.McpServer.Broker

/-! # The broker with its calls in flight

Sections under the state's lock interleave freely.  A selection holds the selection lock
from its first section to its last one; a call may also stop for good between two sections.
-/

namespace CodexRemote.Verified.Broker

open Foundations McpServer.Broker
open RemoteAgent (DateTime GatewayCommand BridgeResult)

/-- Where a dispatch stands. -/
inductive Stage where
  | dispatching
  | sending (connection : BridgeIdentity)
  | awaiting (connection : BridgeIdentity)
  /-- its pending entry is still to be removed -/
  | withdrawing (error : BrokerError)
deriving DecidableEq

structure InFlight where
  route : SessionRoute
  command : GatewayCommand
  stage : Stage
deriving DecidableEq

/-- The calls that take the selection lock. -/
inductive SelectionCall where
  | resumeProject (identity : BridgeIdentity) (project : ProjectRegistration)
  | selectProject (session subject scope : String)
  | selectDevice (session subject deviceId workingDirectory : String)
  | setWorkingDirectory (session subject workingDirectory : String)
deriving DecidableEq

/-- What the holder of the selection lock does next. -/
inductive Selecting where
  | preparing (call : SelectionCall)
  | activating (call : SelectionCall) (flight : InFlight)
  | closing (call : SelectionCall) (route : SessionRoute)
      (result : Except BrokerError BridgeResult)

/-- The maps, the holder of the selection lock, the other dispatches and the responses. -/
structure BridgeBroker where
  state : BrokerState
  selection : Option Selecting
  calls : List InFlight
  /-- the results that were sent to the callers of their requests -/
  answers : List BridgeResult

def BridgeBroker.empty : BridgeBroker := ⟨.empty, none, [], []⟩

inductive BrokerEvent where
  | attached (now : DateTime) (identity : BridgeIdentity) (routes : List SessionRoute)
      (projects : List OwnedProject)
  | detached (now : DateTime) (identity : BridgeIdentity) (routes : List SessionRoute)
      (projects : List OwnedProject)
  | registered (now : DateTime) (identity : BridgeIdentity) (project : ProjectRegistration)
      (result : Except BrokerError Unit)
  | completed (identity : BridgeIdentity) (result : BridgeResult) (caller : Option PendingRequest)
  | began (call : SelectionCall)
  | left (call : SelectionCall)
  | redirected (route : SessionRoute)
  | resumed (now : DateTime) (project : ProjectRegistration) (dormant : DormantRoute)
      (route : SessionRoute) (requestId : String)
  | selected (now : DateTime) (project : ProjectRegistration) (route : SessionRoute)
      (requestId : String)
  | selectedDevice (now : DateTime) (route : SessionRoute) (requestId : String)
  | routed (now : DateTime) (route : SessionRoute) (operation : RouteOperation)
      (requestId : String)
  | unrouted (now : DateTime)
  | queued (requestId : String) (route : SessionRoute) (connection : BridgeIdentity)
  | sent (command : GatewayCommand) (connection : BridgeIdentity)
  | withdrawn (requestId : String) (error : BrokerError)
  | returned (requestId : String) (outcome : Except BrokerError BridgeResult)
  | closed (call : SelectionCall) (route : SessionRoute)
  | abandoned

/-- One step of a dispatch, to its next stage or to what it returns. -/
inductive FlightStep (answers : List BridgeResult) :
    BrokerState → InFlight → BrokerEvent → BrokerState →
      InFlight ⊕ Except BrokerError BridgeResult → Prop where
  | queue {state next : BrokerState} {route : SessionRoute} {command : GatewayCommand}
      {connection : BridgeIdentity}
      (ran : enqueuePending route command.requestId state = (.ok connection, next)) :
      FlightStep answers state ⟨route, command, .dispatching⟩
        (.queued command.requestId route connection) next
        (.inl ⟨route, command, .sending connection⟩)
  | refuse {state next : BrokerState} {route : SessionRoute} {command : GatewayCommand}
      {error : BrokerError}
      (ran : enqueuePending route command.requestId state = (.error error, next)) :
      FlightStep answers state ⟨route, command, .dispatching⟩
        (.returned command.requestId (.error error)) next (.inr (.error error))
  | send {state : BrokerState} {route : SessionRoute} {command : GatewayCommand}
      {connection : BridgeIdentity} :
      FlightStep answers state ⟨route, command, .sending connection⟩ (.sent command connection)
        state (.inl ⟨route, command, .awaiting connection⟩)
  /-- The channel is closed, or has no room within the timeout. -/
  | unsent {state : BrokerState} {route : SessionRoute} {command : GatewayCommand}
      {connection : BridgeIdentity} :
      FlightStep answers state ⟨route, command, .sending connection⟩
        (.withdrawn command.requestId .bridgeUnavailable) state
        (.inl ⟨route, command, .withdrawing .bridgeUnavailable⟩)
  | cancelUnsent {state : BrokerState} {route : SessionRoute} {command : GatewayCommand}
      {connection : BridgeIdentity} :
      FlightStep answers state ⟨route, command, .sending connection⟩
        (.withdrawn command.requestId .cancelled) state
        (.inl ⟨route, command, .withdrawing .cancelled⟩)
  | answer {state : BrokerState} {route : SessionRoute} {command : GatewayCommand}
      {connection : BridgeIdentity} {result : BridgeResult} (there : result ∈ answers)
      (own : resultRequestId result = command.requestId) :
      FlightStep answers state ⟨route, command, .awaiting connection⟩
        (.returned command.requestId (.ok result)) state (.inr (.ok result))
  /-- The sender of the response is gone and has sent nothing. -/
  | missing {state : BrokerState} {route : SessionRoute} {command : GatewayCommand}
      {connection : BridgeIdentity} (dropped : state.pending.find command.requestId = none)
      (unanswered : ∀ result ∈ answers, resultRequestId result ≠ command.requestId) :
      FlightStep answers state ⟨route, command, .awaiting connection⟩
        (.returned command.requestId (.error .missingResult)) state (.inr (.error .missingResult))
  | cancel {state : BrokerState} {route : SessionRoute} {command : GatewayCommand}
      {connection : BridgeIdentity} :
      FlightStep answers state ⟨route, command, .awaiting connection⟩
        (.withdrawn command.requestId .cancelled) state
        (.inl ⟨route, command, .withdrawing .cancelled⟩)
  | timeout {state : BrokerState} {route : SessionRoute} {command : GatewayCommand}
      {connection : BridgeIdentity} :
      FlightStep answers state ⟨route, command, .awaiting connection⟩
        (.withdrawn command.requestId .responseTimeout) state
        (.inl ⟨route, command, .withdrawing .responseTimeout⟩)
  | withdraw {state : BrokerState} {route : SessionRoute} {command : GatewayCommand}
      {error : BrokerError} :
      FlightStep answers state ⟨route, command, .withdrawing error⟩
        (.returned command.requestId (.error error)) (removePending command.requestId state)
        (.inr (.error error))

/-- The checks of a selection before it takes the lock. -/
def SelectionCall.valid : SelectionCall → Prop
  | .selectDevice _ _ _ workingDirectory | .setWorkingDirectory _ _ workingDirectory =>
    validateDirectory workingDirectory = .ok ()
  | _ => True

/-- The section of a selection that ends it without a route. -/
inductive Unprepared (now : DateTime) (computerSessionId : String) (state : BrokerState) :
    SelectionCall → BrokerState → Prop where
  | resume {identity : BridgeIdentity} {project : ProjectRegistration}
      {result : Except BrokerError (Option (DormantRoute × SessionRoute))} {next : BrokerState}
      (ran : resumeProject now computerSessionId identity project state = (result, next))
      (none : result.toOption.join = none) :
      Unprepared now computerSessionId state (.resumeProject identity project) next
  | project {session subject scope : String} {error : BrokerError} {next : BrokerState}
      (ran : prepareProjectRoute now computerSessionId session subject scope state =
        (.error error, next)) :
      Unprepared now computerSessionId state (.selectProject session subject scope) next
  | device {session subject deviceId workingDirectory : String} {error : BrokerError}
      {next : BrokerState}
      (ran : prepareDeviceRoute now computerSessionId session subject deviceId workingDirectory
        state = (.error error, next)) :
      Unprepared now computerSessionId state
        (.selectDevice session subject deviceId workingDirectory) next
  | directory {session subject workingDirectory : String}
      {result : Except BrokerError SessionRoute} {next : BrokerState}
      (ran : activeRoute now session subject state = (result, next))
      (unfit : ∀ route, result = .ok route → route.target = .project) :
      Unprepared now computerSessionId state
        (.setWorkingDirectory session subject workingDirectory) next

def sessionStarted : Except BrokerError BridgeResult → Bool
  | .ok (.projectSessionResult _) => true
  | _ => false

/-- Whether a selection takes its route back. -/
def SelectionCall.failed (result : Except BrokerError BridgeResult) : SelectionCall → Bool
  | .resumeProject _ _ | .selectProject _ _ _ => !sessionStarted result
  | .selectDevice _ _ _ _ | .setWorkingDirectory _ _ _ => !result.toOption.isSome

def SelectionCall.close (route : SessionRoute) (result : Except BrokerError BridgeResult)
    (state : BrokerState) (call : SelectionCall) : BrokerState :=
  if call.failed result then removeRouteIfCurrent route state else state

inductive BrokerStep : BridgeBroker → BrokerEvent → BridgeBroker → Prop where
  | attached {broker : BridgeBroker} {now : DateTime} {identity : BridgeIdentity}
      (order : MapOrder broker.state) :
      BrokerStep broker (.attached now identity order.routes order.projects)
        { broker with state := attach now identity broker.state order }
  | detached {broker : BridgeBroker} {now : DateTime} {identity : BridgeIdentity}
      (order : MapOrder broker.state) :
      BrokerStep broker (.detached now identity order.routes order.projects)
        { broker with state := detach now identity broker.state order }
  | registered {broker : BridgeBroker} {now : DateTime} {identity : BridgeIdentity}
      {project : ProjectRegistration} {result : Except BrokerError Unit} {next : BrokerState}
      (ran : upsert now identity project broker.state = (result, next)) :
      BrokerStep broker (.registered now identity project result) { broker with state := next }
  | completed {broker : BridgeBroker} {identity : BridgeIdentity} {result : BridgeResult}
      {caller : Option PendingRequest} {next : BrokerState}
      (ran : complete identity result broker.state = (caller, next)) :
      BrokerStep broker (.completed identity result caller)
        { broker with
          state := next
          answers := (caller.map fun _ => result).toList ++ broker.answers }
  | began {broker : BridgeBroker} {call : SelectionCall} (free : broker.selection = none)
      (valid : call.valid) :
      BrokerStep broker (.began call) { broker with selection := some (.preparing call) }
  | left {broker : BridgeBroker} {now : DateTime} {computerSessionId : String} {call : SelectionCall}
      {next : BrokerState} (held : broker.selection = some (.preparing call))
      (ran : Unprepared now computerSessionId broker.state call next) :
      BrokerStep broker (.left call) { broker with state := next, selection := none }
  | redirected {broker : BridgeBroker} {now : DateTime} {session subject workingDirectory : String}
      {route : SessionRoute} {next : BrokerState}
      (held : broker.selection =
        some (.preparing (.setWorkingDirectory session subject workingDirectory)))
      (ran : activeRoute now session subject broker.state = (.ok route, next))
      (device : route.target ≠ .project) :
      BrokerStep broker (.redirected route)
        { broker with
          state := next
          selection := some (.preparing
            (.selectDevice session subject route.deviceId workingDirectory)) }
  | resumed {broker : BridgeBroker} {now deadlineAt : DateTime} {computerSessionId requestId : String}
      {identity : BridgeIdentity} {project : ProjectRegistration} {dormant : DormantRoute}
      {route : SessionRoute} {next : BrokerState}
      (held : broker.selection = some (.preparing (.resumeProject identity project)))
      (ran : resumeProject now computerSessionId identity project broker.state =
        (.ok (some (dormant, route)), next)) :
      BrokerStep broker (.resumed now project dormant route requestId)
        { broker with
          state := next
          selection := some (.activating (.resumeProject identity project)
            ⟨route, activation requestId deadlineAt route, .dispatching⟩) }
  | selected {broker : BridgeBroker} {now deadlineAt : DateTime} {computerSessionId requestId : String}
      {session subject scope : String} {project : ProjectRegistration} {route : SessionRoute}
      {next : BrokerState}
      (held : broker.selection = some (.preparing (.selectProject session subject scope)))
      (ran : prepareProjectRoute now computerSessionId session subject scope broker.state =
        (.ok (project, route), next)) :
      BrokerStep broker (.selected now project route requestId)
        { broker with
          state := next
          selection := some (.activating (.selectProject session subject scope)
            ⟨route, activation requestId deadlineAt route, .dispatching⟩) }
  | selectedDevice {broker : BridgeBroker} {now deadlineAt : DateTime}
      {computerSessionId requestId : String}
      {session subject deviceId workingDirectory : String} {route : SessionRoute}
      {next : BrokerState}
      (held : broker.selection =
        some (.preparing (.selectDevice session subject deviceId workingDirectory)))
      (ran : prepareDeviceRoute now computerSessionId session subject deviceId workingDirectory
        broker.state = (.ok route, next)) :
      BrokerStep broker (.selectedDevice now route requestId)
        { broker with
          state := next
          selection := some (.activating (.selectDevice session subject deviceId workingDirectory)
            ⟨route, activation requestId deadlineAt route, .dispatching⟩) }
  /-- A call on the active route begins. -/
  | routed {broker : BridgeBroker} {now deadlineAt : DateTime} {session subject requestId : String}
      {operation : RouteOperation} {route : SessionRoute} {next : BrokerState}
      (ran : activeRoute now session subject broker.state = (.ok route, next)) :
      BrokerStep broker (.routed now route operation requestId)
        { broker with
          state := next
          calls := ⟨route, operation.command requestId deadlineAt route, .dispatching⟩ ::
            broker.calls }
  | unrouted {broker : BridgeBroker} {now : DateTime} {session subject : String} {error : BrokerError}
      {next : BrokerState}
      (ran : activeRoute now session subject broker.state = (.error error, next)) :
      BrokerStep broker (.unrouted now) { broker with state := next }
  | selectionFlew {broker : BridgeBroker} {call : SelectionCall} {flight after : InFlight}
      {event : BrokerEvent} {next : BrokerState}
      (held : broker.selection = some (.activating call flight))
      (flew : FlightStep broker.answers broker.state flight event next (.inl after)) :
      BrokerStep broker event
        { broker with state := next, selection := some (.activating call after) }
  | selectionReturned {broker : BridgeBroker} {call : SelectionCall} {flight : InFlight}
      {event : BrokerEvent} {next : BrokerState} {outcome : Except BrokerError BridgeResult}
      (held : broker.selection = some (.activating call flight))
      (flew : FlightStep broker.answers broker.state flight event next (.inr outcome)) :
      BrokerStep broker event
        { broker with
          state := next, selection := some (.closing call flight.route outcome) }
  | callFlew {broker : BridgeBroker} {front back : List InFlight} {flight after : InFlight}
      {event : BrokerEvent} {next : BrokerState} (listed : broker.calls = front ++ flight :: back)
      (flew : FlightStep broker.answers broker.state flight event next (.inl after)) :
      BrokerStep broker event
        { broker with state := next, calls := front ++ after :: back }
  | callReturned {broker : BridgeBroker} {front back : List InFlight} {flight : InFlight}
      {event : BrokerEvent} {next : BrokerState} {outcome : Except BrokerError BridgeResult}
      (listed : broker.calls = front ++ flight :: back)
      (flew : FlightStep broker.answers broker.state flight event next (.inr outcome)) :
      BrokerStep broker event { broker with state := next, calls := front ++ back }
  | closed {broker : BridgeBroker} {call : SelectionCall} {route : SessionRoute}
      {result : Except BrokerError BridgeResult}
      (held : broker.selection = some (.closing call route result)) :
      BrokerStep broker (.closed call route)
        { broker with state := call.close route result broker.state, selection := none }
  /-- The future of a call is dropped, with the lock that it holds. -/
  | selectionAbandoned {broker : BridgeBroker} :
      BrokerStep broker .abandoned { broker with selection := none }
  | callAbandoned {broker : BridgeBroker} {front back : List InFlight} {flight : InFlight}
      (listed : broker.calls = front ++ flight :: back) :
      BrokerStep broker .abandoned { broker with calls := front ++ back }

abbrev BrokerRun (broker : BridgeBroker) (events : List BrokerEvent) (next : BridgeBroker) : Prop :=
  Run BrokerStep broker events next

/-! ## What a run records -/

/-- The request id that an event brings. -/
def BrokerEvent.requested? : BrokerEvent → Option String
  | .resumed _ _ _ _ requestId => some requestId
  | .selected _ _ _ requestId => some requestId
  | .selectedDevice _ _ requestId => some requestId
  | .routed _ _ _ requestId => some requestId
  | _ => none

/-- The connection id that an event brings. -/
def BrokerEvent.connected? : BrokerEvent → Option String
  | .attached _ identity _ _ => some identity.connectionId
  | _ => none

/-- The route that an event makes. -/
def BrokerEvent.made? : BrokerEvent → Option SessionRoute
  | .resumed _ _ _ route _ => some route
  | .selected _ _ route _ => some route
  | .selectedDevice _ route _ => some route
  | _ => none

def BrokerEvent.returned? : BrokerEvent → Option String
  | .returned requestId _ => some requestId
  | _ => none

end CodexRemote.Verified.Broker

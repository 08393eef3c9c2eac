import CodexRemote.Verified.Broker.Generations

/-! # Requests and their results

A request is known by its id from the call that makes it to the result that the call
returns.  What the steps do to the dispatches in flight and to the pending requests is said
once; the correlation of results is an invariant of it.
-/

namespace CodexRemote.Verified.Broker

open Foundations McpServer.Broker
open RemoteAgent (DateTime GatewayCommand BridgeResult)

def InFlight.id (flight : InFlight) : String := flight.command.requestId

def Selecting.flight? : Selecting → Option InFlight
  | .activating _ flight => some flight
  | _ => none

def BridgeBroker.flights (broker : BridgeBroker) : List InFlight :=
  (broker.selection.bind (·.flight?)).toList ++ broker.calls

/-- Events that neither make a request nor move one. -/
def BrokerEvent.quiet : BrokerEvent → Bool
  | .resumed .. | .selected .. | .selectedDevice .. | .routed .. | .queued .. | .sent ..
  | .returned .. | .completed .. => false
  | _ => true

/-- What a step does to the dispatches in flight and their requests. -/
inductive Wire (broker : BridgeBroker) (event : BrokerEvent) (next : BridgeBroker) : Prop where
  | quiet (silent : event.quiet = true) (flights : next.flights.Sublist broker.flights)
      (pending : ∀ row ∈ next.state.pending.rows, row ∈ broker.state.pending.rows)
      (answers : next.answers = broker.answers)
      (devices : ∀ row ∈ next.state.devices.rows, row ∈ broker.state.devices.rows ∨
        ∃ now routes projects, event = .attached now row routes projects)
  | asked (flight : InFlight) (made : event.requested? = some flight.id)
      (start : flight.stage = .dispatching) (flights : next.flights.Perm (flight :: broker.flights))
      (pending : next.state.pending = broker.state.pending)
      (answers : next.answers = broker.answers)
      (devices : next.state.devices = broker.state.devices)
  | flew (front back : List InFlight) (flight after : InFlight)
      (listed : broker.flights = front ++ flight :: back)
      (step : FlightStep broker.answers broker.state flight event next.state (.inl after))
      (flights : next.flights = front ++ after :: back) (answers : next.answers = broker.answers)
  | landed (front back : List InFlight) (flight : InFlight)
      (outcome : Except BrokerError BridgeResult)
      (listed : broker.flights = front ++ flight :: back)
      (step : FlightStep broker.answers broker.state flight event next.state (.inr outcome))
      (flights : next.flights = front ++ back) (answers : next.answers = broker.answers)
  | completed (identity : BridgeIdentity) (result : BridgeResult) (caller : Option PendingRequest)
      (named : event = .completed identity result caller)
      (ran : complete identity result broker.state = (caller, next.state))
      (flights : next.flights = broker.flights)
      (answers : next.answers = (caller.map fun _ => result).toList ++ broker.answers)

/-! ## The sections and the pending requests -/

variable {identity : BridgeIdentity} {now : DateTime} {computerSessionId : String}
  {broker : BridgeBroker} {flight : InFlight} {back : List InFlight} {result : BridgeResult}

section

variable {state next : BrokerState}

theorem disconnect_pending {now : DateTime} {order : MapOrder state} {deviceId connectionId : String} :
    (∀ row ∈ (state.disconnect now order deviceId connectionId).pending.rows,
      row ∈ state.pending.rows) ∧
    ∀ row ∈ (state.disconnect now order deviceId connectionId).devices.rows,
      row ∈ state.devices.rows := by
  simp only [BrokerState.disconnect]
  split
  · exact ⟨fun _ present => List.mem_of_mem_filter present,
      fun _ present => (Table.mem_remove.1 present).1⟩
  · exact ⟨fun _ present => present, fun _ present => present⟩

theorem attach_pending {now : DateTime} {identity : BridgeIdentity} {order : MapOrder state} :
    (∀ row ∈ (attach now identity state order).pending.rows, row ∈ state.pending.rows) ∧
    ∀ row ∈ (attach now identity state order).devices.rows,
      row ∈ state.devices.rows ∨ row = identity := by
  simp only [attach]
  cases state.devices.find identity.deviceId with
  | none =>
    exact ⟨fun _ present => present, fun _ present => (Table.mem_put.1 present).imp (·.1) id⟩
  | some previous =>
    obtain ⟨pending, devices⟩ := @disconnect_pending state now order identity.deviceId
      previous.connectionId
    exact ⟨pending, fun row present =>
      (Table.mem_put.1 present).imp (fun left => devices row left.1) id⟩

theorem upsert_pending {project : ProjectRegistration}
    {result : Except BrokerError Unit} (ran : upsert now identity project state = (result, next)) :
    next.pending = state.pending ∧ next.devices = state.devices := by
  simp only [upsert] at ran
  split at ran
  · cases ran
    exact ⟨rfl, rfl⟩
  · split_ifs at ran <;> cases ran <;> exact ⟨rfl, rfl⟩

theorem resumeProject_pending {project : ProjectRegistration}
    {result : Except BrokerError (Option (DormantRoute × SessionRoute))}
    (ran : resumeProject now computerSessionId identity project state = (result, next)) :
    next.pending = state.pending ∧ next.devices = state.devices := by
  simp only [resumeProject] at ran
  split at ran
  · cases ran
    exact ⟨rfl, rfl⟩
  · split_ifs at ran
    · split at ran <;> cases ran <;> exact ⟨rfl, rfl⟩
    · cases ran
      exact ⟨rfl, rfl⟩

theorem prepareProjectRoute_pending {session subject scope : String}
    {result : Except BrokerError (ProjectRegistration × SessionRoute)}
    (ran : prepareProjectRoute now computerSessionId session subject scope state =
      (result, next)) : next.pending = state.pending ∧ next.devices = state.devices := by
  simp only [prepareProjectRoute] at ran
  split at ran
  · cases ran
    exact ⟨rfl, rfl⟩
  · split_ifs at ran <;> cases ran <;> exact ⟨rfl, rfl⟩

theorem prepareDeviceRoute_pending {session subject deviceId workingDirectory : String}
    {result : Except BrokerError SessionRoute}
    (ran : prepareDeviceRoute now computerSessionId session subject deviceId workingDirectory
      state = (result, next)) : next.pending = state.pending ∧ next.devices = state.devices := by
  simp only [prepareDeviceRoute] at ran
  split_ifs at ran <;> cases ran <;> exact ⟨rfl, rfl⟩

theorem activeRoute_pending {session subject : String} {result : Except BrokerError SessionRoute}
    (ran : activeRoute now session subject state = (result, next)) :
    next.pending = state.pending ∧ next.devices = state.devices := by
  simp only [activeRoute] at ran
  split at ran
  · cases ran
    exact ⟨rfl, rfl⟩
  · split_ifs at ran <;> cases ran <;> exact ⟨rfl, rfl⟩

theorem unprepared_pending {call : SelectionCall}
    (ran : Unprepared now computerSessionId state call next) :
    next.pending = state.pending ∧ next.devices = state.devices := by
  cases ran with
  | resume ran none => exact resumeProject_pending ran
  | project ran => exact prepareProjectRoute_pending ran
  | device ran => exact prepareDeviceRoute_pending ran
  | directory ran unfit => exact activeRoute_pending ran

theorem close_pending {call : SelectionCall} {route : SessionRoute}
    {result : Except BrokerError BridgeResult} :
    (call.close route result state).pending = state.pending ∧
      (call.close route result state).devices = state.devices := by
  simp only [SelectionCall.close, removeRouteIfCurrent]
  split_ifs <;> exact ⟨rfl, rfl⟩

end

theorem wire_still {next : BridgeBroker} {event : BrokerEvent} (silent : event.quiet = true)
    (flights : next.flights.Sublist broker.flights)
    (same : next.state.pending = broker.state.pending ∧ next.state.devices = broker.state.devices)
    (answers : next.answers = broker.answers) : Wire broker event next :=
  .quiet silent flights (fun _ present => same.1 ▸ present) answers
    (fun _ present => Or.inl (same.2 ▸ present))

theorem step_wire {next : BridgeBroker} {event : BrokerEvent}
    (step : BrokerStep broker event next) : Wire broker event next := by
  cases step with
  | attached order =>
    obtain ⟨pending, devices⟩ := @attach_pending broker.state _ _ order
    refine .quiet rfl (.refl _) pending rfl fun row present => (devices row present).imp id ?_
    rintro rfl
    exact ⟨_, _, _, rfl⟩
  | detached order =>
    obtain ⟨pending, devices⟩ := @disconnect_pending broker.state _ order _ _
    exact .quiet rfl (.refl _) pending rfl fun row present => Or.inl (devices row present)
  | registered ran => exact wire_still rfl (.refl _) (upsert_pending ran) rfl
  | completed ran => exact .completed _ _ _ rfl ran rfl rfl
  | began free valid =>
    refine wire_still rfl ?_ ⟨rfl, rfl⟩ rfl
    simp [BridgeBroker.flights, Selecting.flight?, free]
  | left held ran =>
    refine wire_still rfl ?_ (unprepared_pending ran) rfl
    simp [BridgeBroker.flights, Selecting.flight?, held]
  | redirected held ran device =>
    refine wire_still rfl ?_ (activeRoute_pending ran) rfl
    simp [BridgeBroker.flights, Selecting.flight?, held]
  | @resumed _ deadlineAt _ requestId _ _ _ route _ held ran =>
    obtain ⟨pending, devices⟩ := resumeProject_pending ran
    refine .asked ⟨route, activation requestId deadlineAt route, .dispatching⟩ ?_ rfl ?_ pending
      rfl devices
    · simp only [BrokerEvent.requested?, InFlight.id, activation]
      cases route.target <;> rfl
    · simp [BridgeBroker.flights, Selecting.flight?, held]
  | @selected _ deadlineAt _ requestId _ _ _ _ route _ held ran =>
    obtain ⟨pending, devices⟩ := prepareProjectRoute_pending ran
    refine .asked ⟨route, activation requestId deadlineAt route, .dispatching⟩ ?_ rfl ?_ pending
      rfl devices
    · simp only [BrokerEvent.requested?, InFlight.id, activation]
      cases route.target <;> rfl
    · simp [BridgeBroker.flights, Selecting.flight?, held]
  | @selectedDevice _ deadlineAt _ requestId _ _ _ _ route _ held ran =>
    obtain ⟨pending, devices⟩ := prepareDeviceRoute_pending ran
    refine .asked ⟨route, activation requestId deadlineAt route, .dispatching⟩ ?_ rfl ?_ pending
      rfl devices
    · simp only [BrokerEvent.requested?, InFlight.id, activation]
      cases route.target <;> rfl
    · simp [BridgeBroker.flights, Selecting.flight?, held]
  | @routed _ deadlineAt _ _ requestId operation route _ ran =>
    obtain ⟨pending, devices⟩ := activeRoute_pending ran
    refine .asked ⟨route, operation.command requestId deadlineAt route, .dispatching⟩ ?_ rfl ?_
      pending rfl devices
    · simp only [BrokerEvent.requested?, InFlight.id]
      cases operation <;> rfl
    · exact List.perm_middle
  | unrouted ran => exact wire_still rfl (.refl _) (activeRoute_pending ran) rfl
  | selectionFlew held flew =>
    refine .flew [] broker.calls _ _ ?_ flew ?_ rfl <;>
      simp [BridgeBroker.flights, Selecting.flight?, held]
  | selectionReturned held flew =>
    refine .landed [] broker.calls _ _ ?_ flew ?_ rfl <;>
      simp [BridgeBroker.flights, Selecting.flight?, held]
  | @callFlew front back _ _ _ _ listed flew =>
    refine .flew ((broker.selection.bind (·.flight?)).toList ++ front) back _ _ ?_ flew ?_ rfl <;>
      simp [BridgeBroker.flights, listed]
  | @callReturned front back _ _ _ _ listed flew =>
    refine .landed ((broker.selection.bind (·.flight?)).toList ++ front) back _ _ ?_ flew ?_
      rfl <;> simp [BridgeBroker.flights, listed]
  | closed held =>
    refine wire_still rfl ?_ close_pending rfl
    simp [BridgeBroker.flights, Selecting.flight?, held]
  | selectionAbandoned =>
    refine wire_still rfl ?_ ⟨rfl, rfl⟩ rfl
    simp [BridgeBroker.flights]
  | callAbandoned listed =>
    refine wire_still rfl ?_ ⟨rfl, rfl⟩ rfl
    simp only [BridgeBroker.flights, listed]
    exact (List.Sublist.append_left (List.sublist_cons_self ..) _).append_left _

/-! ## What a run knows of a request -/

def requested (past : List BrokerEvent) : List String := past.filterMap (·.requested?)

def returned (past : List BrokerEvent) : List String := past.filterMap (·.returned?)

/-- The request whose caller was sent a result. -/
def BrokerEvent.handed? : BrokerEvent → Option String
  | .completed _ result (some _) => some (resultRequestId result)
  | _ => none

def handed (past : List BrokerEvent) : List String := past.filterMap (·.handed?)

def Queued (past : List BrokerEvent) (id : String) (connection : BridgeIdentity) : Prop :=
  ∃ route, .queued id route connection ∈ past

def Sent (past : List BrokerEvent) (id : String) (connection : BridgeIdentity) : Prop :=
  ∃ command, command.requestId = id ∧ .sent command connection ∈ past

def Attached (past : List BrokerEvent) (identity : BridgeIdentity) : Prop :=
  ∃ now routes projects, .attached now identity routes projects ∈ past

/-- Request ids are distinct, and so are the ids of connections. -/
structure Fresh (events : List BrokerEvent) : Prop where
  requests : (requested events).Nodup
  connections : (events.filterMap (·.connected?)).Nodup

section

variable {past : List BrokerEvent} {event : BrokerEvent} {id : String}
  {connection : BridgeIdentity}

theorem requested_snoc :
    requested (past ++ [event]) = requested past ++ event.requested?.toList :=
  filterMap_snoc _ _ _

theorem returned_snoc : returned (past ++ [event]) = returned past ++ event.returned?.toList :=
  filterMap_snoc _ _ _

theorem handed_snoc : handed (past ++ [event]) = handed past ++ event.handed?.toList :=
  filterMap_snoc _ _ _

theorem queued_snoc : Queued (past ++ [event]) id connection ↔
    Queued past id connection ∨ ∃ route, event = .queued id route connection := by
  simp only [Queued, List.mem_append, List.mem_singleton, exists_or]
  exact or_congr_right ⟨fun ⟨route, same⟩ => ⟨route, same.symm⟩,
    fun ⟨route, same⟩ => ⟨route, same.symm⟩⟩

theorem Queued.grow (queued : Queued past id connection) :
    Queued (past ++ [event]) id connection := queued_snoc.2 (Or.inl queued)

theorem Sent.grow (sent : Sent past id connection) : Sent (past ++ [event]) id connection := by
  obtain ⟨command, own, member⟩ := sent
  exact ⟨command, own, List.mem_append_left _ member⟩

theorem Attached.grow (attached : Attached past connection) :
    Attached (past ++ [event]) connection := by
  obtain ⟨now, routes, projects, member⟩ := attached
  exact ⟨now, routes, projects, List.mem_append_left _ member⟩

theorem Fresh.front {back : List BrokerEvent} (fresh : Fresh (past ++ back)) : Fresh past := by
  obtain ⟨requests, connections⟩ := fresh
  simp only [requested, List.filterMap_append] at requests connections
  exact ⟨(List.nodup_append.1 requests).1, (List.nodup_append.1 connections).1⟩

/-- A connection id tells connections apart. -/
theorem Fresh.same {other : BridgeIdentity} (fresh : Fresh past)
    (one : Attached past connection) (two : Attached past other)
    (ids : connection.connectionId = other.connectionId) : connection = other := by
  obtain ⟨_, _, _, one⟩ := one
  obtain ⟨_, _, _, two⟩ := two
  cases eq_of_filterMap_nodup fresh.connections one two rfl (congrArg some ids.symm)
  rfl

end

/-! ## The invariant -/

def StageKnown (past : List BrokerEvent) (id : String) : Stage → Prop
  | .dispatching => ∀ connection, ¬Queued past id connection
  | .sending connection => Queued past id connection
  | .awaiting connection => Queued past id connection ∧ Sent past id connection
  | .withdrawing _ => True

structure FlightKnown (past : List BrokerEvent) (flight : InFlight) : Prop where
  asked : flight.id ∈ requested past
  unreturned : flight.id ∉ returned past
  stage : StageKnown past flight.id flight.stage

structure RowKnown (past : List BrokerEvent) (row : PendingRequest) : Prop where
  unreturned : row.requestId ∉ returned past
  unhanded : row.requestId ∉ handed past
  queued : ∃ connection, Queued past row.requestId connection ∧
    connection.connectionId = row.connectionId

structure History (past : List BrokerEvent) : Prop where
  one : ∀ id connection other, Queued past id connection → Queued past id other →
    connection = other
  queuedKnown : ∀ id connection, Queued past id connection →
    id ∈ requested past ∧ Attached past connection
  returnedKnown : ∀ id ∈ returned past, id ∈ requested past
  handedKnown : ∀ id ∈ handed past, ∃ connection, Queued past id connection
  returnedOnce : (returned past).Nodup
  handedOnce : (handed past).Nodup

structure Correlated (past : List BrokerEvent) (broker : BridgeBroker) : Prop where
  history : History past
  ids : (broker.flights.map (·.id)).Nodup
  flights : ∀ flight ∈ broker.flights, FlightKnown past flight
  rows : ∀ row ∈ broker.state.pending.rows, RowKnown past row
  answers : ∀ result ∈ broker.answers, ∃ identity caller,
    .completed identity result (some caller) ∈ past ∧
      Queued past (resultRequestId result) identity
  devices : ∀ row ∈ broker.state.devices.rows, Attached past row

section

variable {past : List BrokerEvent} {event : BrokerEvent} {broker next : BridgeBroker}

theorem StageKnown.grow {id : String} {stage : Stage} (known : StageKnown past id stage)
    (apart : ∀ route connection, event ≠ .queued id route connection) :
    StageKnown (past ++ [event]) id stage := by
  cases stage with
  | dispatching =>
    intro connection queued
    obtain queued | ⟨route, same⟩ := queued_snoc.1 queued
    · exact known connection queued
    · exact apart route connection same
  | sending connection => exact Queued.grow known
  | awaiting connection => exact ⟨known.1.grow, known.2.grow⟩
  | withdrawing error => trivial

/-- An event about other requests leaves what is known of a dispatch. -/
theorem FlightKnown.grow (known : FlightKnown past flight)
    (apart : ∀ route connection, event ≠ .queued flight.id route connection)
    (unreturned : event.returned? ≠ some flight.id) : FlightKnown (past ++ [event]) flight := by
  refine ⟨?_, ?_, known.stage.grow apart⟩
  · rw [requested_snoc]
    exact List.mem_append_left _ known.asked
  · rw [returned_snoc, List.mem_append, Option.mem_toList, not_or]
    exact ⟨known.unreturned, unreturned⟩

theorem RowKnown.grow {row : PendingRequest} (known : RowKnown past row)
    (unreturned : event.returned? ≠ some row.requestId)
    (unhanded : event.handed? ≠ some row.requestId) : RowKnown (past ++ [event]) row := by
  obtain ⟨connection, queued, same⟩ := known.queued
  refine ⟨?_, ?_, connection, queued.grow, same⟩
  · rw [returned_snoc, List.mem_append, Option.mem_toList, not_or]
    exact ⟨known.unreturned, unreturned⟩
  · rw [handed_snoc, List.mem_append, Option.mem_toList, not_or]
    exact ⟨known.unhanded, unhanded⟩

theorem History.grow (history : History past)
    (unqueued : ∀ id route connection, event ≠ .queued id route connection)
    (returns : ∀ id, event.returned? = some id → id ∈ requested past ∧ id ∉ returned past)
    (hands : ∀ id, event.handed? = some id → (∃ connection, Queued past id connection) ∧
      id ∉ handed past) : History (past ++ [event]) := by
  have queued : ∀ id connection, Queued (past ++ [event]) id connection →
      Queued past id connection := by
    intro id connection queued
    obtain queued | ⟨route, same⟩ := queued_snoc.1 queued
    · exact queued
    · exact absurd same (unqueued id route connection)
  constructor
  · intro id connection other first second
    exact history.one id connection other (queued id connection first) (queued id other second)
  · intro id connection known
    obtain ⟨asked, attached⟩ := history.queuedKnown id connection (queued id connection known)
    rw [requested_snoc]
    exact ⟨List.mem_append_left _ asked, attached.grow⟩
  · intro id member
    rw [returned_snoc, List.mem_append, Option.mem_toList] at member
    rw [requested_snoc]
    exact List.mem_append_left _ (member.elim (history.returnedKnown id) fun new => (returns id new).1)
  · intro id member
    rw [handed_snoc, List.mem_append, Option.mem_toList] at member
    obtain ⟨connection, known⟩ := member.elim (history.handedKnown id) fun new => (hands id new).1
    exact ⟨connection, known.grow⟩
  · rw [returned_snoc]
    cases new : event.returned? with
    | none => simpa using history.returnedOnce
    | some id =>
      rw [Option.toList_some, List.nodup_append]
      refine ⟨history.returnedOnce, List.nodup_singleton _, ?_⟩
      intro a member b single
      rw [List.mem_singleton] at single
      exact fun same => (returns id new).2 (single ▸ same ▸ member)
  · rw [handed_snoc]
    cases new : event.handed? with
    | none => simpa using history.handedOnce
    | some id =>
      rw [Option.toList_some, List.nodup_append]
      refine ⟨history.handedOnce, List.nodup_singleton _, ?_⟩
      intro a member b single
      rw [List.mem_singleton] at single
      exact fun same => (hands id new).2 (single ▸ same ▸ member)

theorem answers_grow (known : ∀ result ∈ broker.answers, ∃ identity caller,
      .completed identity result (some caller) ∈ past ∧
        Queued past (resultRequestId result) identity) :
    ∀ result ∈ broker.answers, ∃ identity caller,
      .completed identity result (some caller) ∈ past ++ [event] ∧
        Queued (past ++ [event]) (resultRequestId result) identity := by
  intro result member
  obtain ⟨identity, caller, completed, queued⟩ := known result member
  exact ⟨identity, caller, List.mem_append_left _ completed, queued.grow⟩

theorem devices_grow (known : ∀ row ∈ broker.state.devices.rows, Attached past row) :
    ∀ row ∈ broker.state.devices.rows, Attached (past ++ [event]) row :=
  fun row present => (known row present).grow

/-- Quiet events bring, move and answer no request. -/
theorem quiet_silent (silent : event.quiet = true) :
    event.returned? = none ∧ event.handed? = none ∧
      ∀ id route connection, event ≠ .queued id route connection := by
  cases event <;> first | (cases silent; done) | exact ⟨rfl, rfl, nofun⟩

theorem Correlated.quiet (known : Correlated past broker) (silent : event.quiet = true)
    (flights : next.flights.Sublist broker.flights)
    (pending : ∀ row ∈ next.state.pending.rows, row ∈ broker.state.pending.rows)
    (answers : next.answers = broker.answers)
    (devices : ∀ row ∈ next.state.devices.rows, row ∈ broker.state.devices.rows ∨
      ∃ now routes projects, event = .attached now row routes projects) :
    Correlated (past ++ [event]) next := by
  obtain ⟨unreturned, unhanded, unqueued⟩ := quiet_silent silent
  constructor
  · refine known.history.grow unqueued ?_ ?_
    · simp [unreturned]
    · simp [unhanded]
  · exact (flights.map _).nodup known.ids
  · intro flight member
    exact (known.flights flight (flights.subset member)).grow (unqueued _) (by simp [unreturned])
  · intro row member
    exact (known.rows row (pending row member)).grow (by simp [unreturned]) (by simp [unhanded])
  · rw [answers]
    exact answers_grow known.answers
  · intro row member
    obtain before | ⟨now, routes, projects, rfl⟩ := devices row member
    · exact (known.devices row before).grow
    · exact ⟨now, routes, projects, List.mem_append_right _ (List.mem_singleton_self _)⟩

theorem Correlated.asked (known : Correlated past broker) (fresh : Fresh (past ++ [event]))
    (flight : InFlight) (made : event.requested? = some flight.id)
    (start : flight.stage = .dispatching) (flights : next.flights.Perm (flight :: broker.flights))
    (pending : next.state.pending = broker.state.pending) (answers : next.answers = broker.answers)
    (devices : next.state.devices = broker.state.devices) : Correlated (past ++ [event]) next := by
  have silent : event.returned? = none ∧ event.handed? = none ∧
      ∀ id route connection, event ≠ .queued id route connection := by
    cases event <;> first | (cases made; done) | exact ⟨rfl, rfl, nofun⟩
  obtain ⟨unreturned, unhanded, unqueued⟩ := silent
  have new : flight.id ∉ requested past := by
    have distinct := fresh.requests
    rw [requested_snoc, made, Option.toList_some, List.nodup_append] at distinct
    intro old
    exact distinct.2.2 _ old _ (List.mem_singleton_self _) rfl
  have history := known.history.grow unqueued (by simp [unreturned]) (by simp [unhanded])
  constructor
  · exact history
  · refine ((flights.map InFlight.id).nodup_iff).2 ?_
    rw [List.map_cons, List.nodup_cons]
    refine ⟨?_, known.ids⟩
    intro member
    obtain ⟨other, listed, same⟩ := List.mem_map.1 member
    exact new (same ▸ (known.flights other listed).asked)
  · intro other member
    obtain rfl | before := List.mem_cons.1 (flights.mem_iff.1 member)
    · refine ⟨?_, ?_, ?_⟩
      · rw [requested_snoc, made]
        exact List.mem_append_right _ (List.mem_singleton_self _)
      · rw [returned_snoc, unreturned]
        simp only [Option.toList_none, List.append_nil]
        exact fun old => new (known.history.returnedKnown _ old)
      · rw [start]
        intro connection queued
        obtain old | ⟨route, same⟩ := queued_snoc.1 queued
        · exact new (known.history.queuedKnown _ _ old).1
        · exact unqueued _ route connection same
    · exact (known.flights other before).grow (unqueued _) (by simp [unreturned])
  · rw [pending]
    intro row member
    exact (known.rows row member).grow (by simp [unreturned]) (by simp [unhanded])
  · rw [answers]
    exact answers_grow known.answers
  · rw [devices]
    exact devices_grow known.devices

/-- The other dispatches have other ids. -/
theorem others_apart {front : List InFlight}
    (listed : broker.flights = front ++ flight :: back) (known : Correlated past broker) :
    ∀ other ∈ front ++ back, other ∈ broker.flights ∧ other.id ≠ flight.id := by
  have ids := known.ids
  rw [listed, List.map_append, List.map_cons, List.nodup_middle, List.nodup_cons,
    ← List.map_append] at ids
  intro other member
  refine ⟨?_, fun same => ids.1 (List.mem_map.2 ⟨other, member, same⟩)⟩
  rw [listed]
  obtain left | right := List.mem_append.1 member
  · exact List.mem_append_left _ left
  · exact List.mem_append_right _ (List.mem_cons_of_mem _ right)

/-- A dispatch that moves to its next stage. -/
theorem Correlated.moved (known : Correlated past broker) {front back : List InFlight}
    {flight after : InFlight} (listed : broker.flights = front ++ flight :: back)
    (flights : next.flights = front ++ after :: back) (same : after.id = flight.id)
    (history : History (past ++ [event]))
    (unreturned : event.returned? = none) (unhanded : event.handed? = none)
    (own : ∀ id route connection, event = .queued id route connection → id = flight.id)
    (stage : StageKnown (past ++ [event]) flight.id after.stage)
    (rows : ∀ row ∈ next.state.pending.rows, row ∈ broker.state.pending.rows ∨
      RowKnown (past ++ [event]) row)
    (answers : next.answers = broker.answers)
    (devices : next.state.devices = broker.state.devices) : Correlated (past ++ [event]) next := by
  have member : flight ∈ broker.flights := by
    rw [listed]
    exact List.mem_append_right _ (List.mem_cons_self ..)
  constructor
  · exact history
  · have ids := known.ids
    rw [listed, List.map_append, List.map_cons] at ids
    rw [flights, List.map_append, List.map_cons, same]
    exact ids
  · intro other there
    rw [flights] at there
    obtain rfl | rest := List.mem_cons.1 (List.perm_middle.mem_iff.1 there)
    · have before := known.flights flight member
      refine ⟨?_, ?_, by rw [same]; exact stage⟩
      · rw [same, requested_snoc]
        exact List.mem_append_left _ before.asked
      · rw [same, returned_snoc, unreturned]
        simpa using before.unreturned
    · obtain ⟨old, apart⟩ := others_apart listed known other rest
      exact (known.flights other old).grow
        (fun route connection queued => apart (own _ _ _ queued)) (by simp [unreturned])
  · intro row there
    obtain before | new := rows row there
    · exact (known.rows row before).grow (by simp [unreturned]) (by simp [unhanded])
    · exact new
  · rw [answers]
    exact answers_grow known.answers
  · rw [devices]
    exact devices_grow known.devices

theorem Correlated.flew (known : Correlated past broker) {front : List InFlight}
    {after : InFlight} (listed : broker.flights = front ++ flight :: back)
    (step : FlightStep broker.answers broker.state flight event next.state (.inl after))
    (flights : next.flights = front ++ after :: back) (answers : next.answers = broker.answers) :
    Correlated (past ++ [event]) next := by
  have member : flight ∈ broker.flights := by
    rw [listed]
    exact List.mem_append_right _ (List.mem_cons_self ..)
  have before := known.flights flight member
  generalize reached : next.state = state at step
  cases step with
  | @queue _ route command connection ran =>
    obtain ⟨⟨current, _, _, connected⟩, rfl⟩ := enqueuePending_ok ran
    have new : Queued (past ++ [.queued command.requestId route connection]) command.requestId
        connection := queued_snoc.2 (Or.inr ⟨route, rfl⟩)
    have attached := known.devices connection (Table.mem_of_find connected)
    have unqueued : ∀ other, ¬Queued past command.requestId other := before.stage
    have returns : returned (past ++ [.queued command.requestId route connection]) =
        returned past := returned_snoc.trans (List.append_nil _)
    have hands : handed (past ++ [.queued command.requestId route connection]) =
        handed past := handed_snoc.trans (List.append_nil _)
    refine known.moved listed flights rfl ?_ rfl rfl ?_ new ?_ answers (by rw [reached])
    · have old := known.history
      constructor
      · intro id first second one two
        obtain one | ⟨_, one⟩ := queued_snoc.1 one
        · obtain two | ⟨_, two⟩ := queued_snoc.1 two
          · exact old.one id first second one two
          · cases two
            exact absurd one (unqueued _)
        · cases one
          obtain two | ⟨_, two⟩ := queued_snoc.1 two
          · exact absurd two (unqueued _)
          · cases two
            rfl
      · intro id other queued
        rw [requested_snoc]
        obtain queued | ⟨_, queued⟩ := queued_snoc.1 queued
        · obtain ⟨asked, there⟩ := old.queuedKnown id other queued
          exact ⟨List.mem_append_left _ asked, there.grow⟩
        · cases queued
          exact ⟨List.mem_append_left _ before.asked, attached.grow⟩
      · intro id there
        rw [returns] at there
        rw [requested_snoc]
        exact List.mem_append_left _ (old.returnedKnown id there)
      · intro id there
        rw [hands] at there
        obtain ⟨other, queued⟩ := old.handedKnown id there
        exact ⟨other, queued.grow⟩
      · rw [returns]
        exact old.returnedOnce
      · rw [hands]
        exact old.handedOnce
    · rintro id route_ connection_ same
      cases same
      rfl
    · rw [reached]
      intro row there
      obtain ⟨there, _⟩ | rfl := Table.mem_put.1 there
      · exact Or.inl there
      · refine Or.inr ⟨?_, ?_, connection, new, rfl⟩
        · rw [returns]
          exact before.unreturned
        · rw [hands]
          intro there
          obtain ⟨other, queued⟩ := known.history.handedKnown command.requestId there
          exact unqueued other queued
  | @send route command connection =>
    have queued : Queued past command.requestId connection := before.stage
    refine known.moved listed flights rfl ?_ rfl rfl nofun
      ⟨queued.grow, command, rfl, List.mem_append_right _ (List.mem_singleton_self _)⟩ ?_ answers
      (by rw [reached])
    · exact known.history.grow nofun nofun nofun
    · rw [reached]
      exact fun row there => Or.inl there
  | unsent =>
    refine known.moved listed flights rfl (known.history.grow nofun nofun nofun) rfl rfl nofun
      trivial ?_ answers (by rw [reached])
    rw [reached]
    exact fun row there => Or.inl there
  | cancelUnsent =>
    refine known.moved listed flights rfl (known.history.grow nofun nofun nofun) rfl rfl nofun
      trivial ?_ answers (by rw [reached])
    rw [reached]
    exact fun row there => Or.inl there
  | cancel =>
    refine known.moved listed flights rfl (known.history.grow nofun nofun nofun) rfl rfl nofun
      trivial ?_ answers (by rw [reached])
    rw [reached]
    exact fun row there => Or.inl there
  | timeout =>
    refine known.moved listed flights rfl (known.history.grow nofun nofun nofun) rfl rfl nofun
      trivial ?_ answers (by rw [reached])
    rw [reached]
    exact fun row there => Or.inl there

/-- A dispatch that returns is gone with its pending request. -/
theorem Correlated.gone (known : Correlated past broker) {front : List InFlight}
    {outcome : Except BrokerError BridgeResult}
    (listed : broker.flights = front ++ flight :: back) (flights : next.flights = front ++ back)
    (rows : ∀ row ∈ next.state.pending.rows,
      row ∈ broker.state.pending.rows ∧ row.requestId ≠ flight.id)
    (answers : next.answers = broker.answers)
    (devices : next.state.devices = broker.state.devices) :
    Correlated (past ++ [.returned flight.id outcome]) next := by
  have member : flight ∈ broker.flights := by
    rw [listed]
    exact List.mem_append_right _ (List.mem_cons_self ..)
  have before := known.flights flight member
  constructor
  · refine known.history.grow nofun ?_ nofun
    intro id same
    cases same
    exact ⟨before.asked, before.unreturned⟩
  · have ids := known.ids
    rw [listed, List.map_append, List.map_cons, List.nodup_middle, List.nodup_cons,
      ← List.map_append] at ids
    rw [flights]
    exact ids.2
  · intro other there
    rw [flights] at there
    obtain ⟨old, apart⟩ := others_apart listed known other there
    refine (known.flights other old).grow nofun ?_
    simpa [BrokerEvent.returned?] using apart.symm
  · intro row there
    obtain ⟨old, apart⟩ := rows row there
    refine (known.rows row old).grow ?_ nofun
    simpa [BrokerEvent.returned?] using apart.symm
  · rw [answers]
    exact answers_grow known.answers
  · rw [devices]
    exact devices_grow known.devices

theorem handed_of_answer (known : Correlated past broker)
    (there : result ∈ broker.answers) : resultRequestId result ∈ handed past := by
  obtain ⟨identity, caller, completed, _⟩ := known.answers result there
  exact List.mem_filterMap.2 ⟨_, completed, rfl⟩

theorem Correlated.landed (known : Correlated past broker) {front : List InFlight}
    {outcome : Except BrokerError BridgeResult} (listed : broker.flights = front ++ flight :: back)
    (step : FlightStep broker.answers broker.state flight event next.state (.inr outcome))
    (flights : next.flights = front ++ back) (answers : next.answers = broker.answers) :
    Correlated (past ++ [event]) next := by
  have member : flight ∈ broker.flights := by
    rw [listed]
    exact List.mem_append_right _ (List.mem_cons_self ..)
  have before := known.flights flight member
  generalize reached : next.state = state at step
  cases step with
  | refuse ran =>
    cases enqueuePending_error ran
    refine known.gone listed flights ?_ answers (by rw [reached])
    rw [reached]
    intro row there
    obtain ⟨connection, queued, _⟩ := (known.rows row there).queued
    refine ⟨there, fun same => ?_⟩
    rw [same] at queued
    exact before.stage connection queued
  | answer there own =>
    refine known.gone listed flights ?_ answers (by rw [reached])
    rw [reached]
    intro row present
    refine ⟨present, fun same => (known.rows row present).unhanded ?_⟩
    rw [same]
    have sent := handed_of_answer known there
    rw [own] at sent
    exact sent
  | missing dropped unanswered =>
    refine known.gone listed flights ?_ answers (by rw [reached])
    rw [reached]
    exact fun row present => ⟨present, Table.find_none_iff.1 dropped row present⟩
  | withdraw =>
    refine known.gone listed flights ?_ answers (by rw [reached]; rfl)
    rw [reached]
    exact fun row present => Table.mem_remove.1 present

/-- The pending request that a result completes, and the connection it came on. -/
theorem complete_some {state after : BrokerState}
    {caller : PendingRequest} (ran : complete identity result state = (some caller, after)) :
    identity ∈ state.devices.rows ∧ caller ∈ state.pending.rows ∧
      caller.requestId = resultRequestId result ∧ caller.deviceId = identity.deviceId ∧
      caller.connectionId = identity.connectionId ∧
      after = { state with pending := state.pending.remove (resultRequestId result) } := by
  simp only [complete] at ran
  cases connected : requireConnection state identity with
  | error error => simp [connected] at ran
  | ok _ =>
    have there : identity ∈ state.devices.rows := by
      simp only [requireConnection, ite_eq_left_iff, reduceCtorEq, imp_false, not_not,
        Option.any_eq_true, decide_eq_true_eq] at connected
      obtain ⟨value, found, same⟩ := connected
      have key := Table.find_key found
      have equal : value = identity := by
        cases value
        cases identity
        simp_all
      exact equal ▸ Table.mem_of_find found
    simp only [connected] at ran
    split at ran
    · cases ran
    · next pending found =>
      cases ran
      obtain ⟨found, own⟩ := Option.filter_eq_some_iff.1 found
      simp only [decide_eq_true_eq] at own
      exact ⟨there, Table.mem_of_find found, Table.find_key found, own.1, own.2, rfl⟩

theorem complete_none {state after : BrokerState}
    (ran : complete identity result state = (none, after)) : after = state := by
  simp only [complete] at ran
  split at ran
  · cases ran
    rfl
  · split at ran
    · cases ran
      rfl
    · cases ran

theorem Correlated.completed (known : Correlated past broker) (fresh : Fresh past)
    {caller : Option PendingRequest}
    (ran : complete identity result broker.state = (caller, next.state))
    (flights : next.flights = broker.flights)
    (answers : next.answers = (caller.map fun _ => result).toList ++ broker.answers) :
    Correlated (past ++ [.completed identity result caller]) next := by
  have flightsKnown : ∀ flight ∈ next.flights,
      FlightKnown (past ++ [.completed identity result caller]) flight := by
    rw [flights]
    exact fun flight there => (known.flights flight there).grow nofun nofun
  cases caller with
  | none =>
    have same := complete_none ran
    refine ⟨known.history.grow nofun nofun nofun, flights ▸ known.ids, flightsKnown, ?_, ?_, ?_⟩
    · rw [same]
      exact fun row there => (known.rows row there).grow nofun nofun
    · rw [answers]
      exact answers_grow known.answers
    · rw [same]
      exact devices_grow known.devices
  | some caller =>
    obtain ⟨there, pending, id, device, connection, same⟩ := complete_some ran
    have row := known.rows caller pending
    obtain ⟨target, queued, conn⟩ := row.queued
    -- the connection id of the pending request is the completing one's
    have sender : target = identity := fresh.same (known.history.queuedKnown _ _ queued).2
      (known.devices identity there) (conn.trans connection)
    subst sender
    rw [id] at queued
    refine ⟨?_, flights ▸ known.ids, flightsKnown, ?_, ?_, ?_⟩
    · refine known.history.grow nofun nofun ?_
      intro handedId named
      cases named
      exact ⟨⟨target, queued⟩, id ▸ row.unhanded⟩
    · rw [same]
      intro other left
      obtain ⟨old, apart⟩ := Table.mem_remove.1 left
      refine (known.rows other old).grow nofun ?_
      simpa [BrokerEvent.handed?] using apart.symm
    · rw [answers]
      intro answer sent
      obtain rfl | old := List.mem_cons.1 sent
      · exact ⟨target, caller, List.mem_append_right _ (List.mem_singleton_self _), queued.grow⟩
      · exact answers_grow known.answers answer old
    · rw [same]
      exact devices_grow known.devices

theorem Correlated.step (known : Correlated past broker) (fresh : Fresh (past ++ [event]))
    (step : BrokerStep broker event next) : Correlated (past ++ [event]) next := by
  cases step_wire step with
  | quiet silent flights pending answers devices =>
    exact known.quiet silent flights pending answers devices
  | asked flight made start flights pending answers devices =>
    exact known.asked fresh flight made start flights pending answers devices
  | flew front back flight after listed flew flights answers =>
    exact known.flew listed flew flights answers
  | landed front back flight outcome listed landed flights answers =>
    exact known.landed listed landed flights answers
  | completed identity result caller named ran flights answers =>
    subst named
    exact known.completed fresh.front ran flights answers

end

theorem empty_correlated : Correlated [] .empty := by
  have unqueued : ∀ id connection, ¬Queued [] id connection := by
    rintro id connection ⟨route, member⟩
    cases member
  refine ⟨⟨?_, ?_, ?_, ?_, List.nodup_nil, List.nodup_nil⟩, List.nodup_nil, ?_, ?_, ?_, ?_⟩
  · exact fun id connection _ queued => absurd queued (unqueued id connection)
  · exact fun id connection queued => absurd queued (unqueued id connection)
  · intro id member
    cases member
  · intro id member
    cases member
  · intro flight member
    cases member
  · intro row member
    cases member
  · intro result member
    cases member
  · intro row member
    cases member

theorem run_correlated {events : List BrokerEvent}
    (run : BrokerRun .empty events broker) (fresh : Fresh events) : Correlated events broker := by
  refine run.records (fun past broker => Fresh past → Correlated past broker) ?_
    (fun _ => empty_correlated) fresh
  intro past before event after _ step known fresh
  exact (known fresh.front).step fresh step

/-- A dispatch that returns a result was waiting for it. -/
theorem returned_flight {next : BridgeBroker} {id : String}
    (step : BrokerStep broker (.returned id (.ok result)) next) :
    ∃ flight ∈ broker.flights, ∃ connection, flight.id = id ∧
      flight.stage = .awaiting connection ∧ result ∈ broker.answers ∧
      resultRequestId result = id := by
  cases step_wire step with
  | quiet silent => cases silent
  | asked flight made => cases made
  | flew front back flight after listed flew =>
    generalize next.state = state at flew
    cases flew
  | landed front back flight outcome listed landed =>
    have member : flight ∈ broker.flights := by
      rw [listed]
      exact List.mem_append_right _ (List.mem_cons_self ..)
    generalize next.state = state at landed
    cases landed with
    | answer there own => exact ⟨_, member, _, rfl, rfl, there, own⟩
  | completed identity result caller named => cases named

/-- The result of a request came over the connection that its command was sent on. -/
theorem result_correlated {past back : List BrokerEvent} {id : String}
    (run : BrokerRun .empty (past ++ .returned id (.ok result) :: back) broker)
    (fresh : Fresh (past ++ .returned id (.ok result) :: back)) :
    ∃ connection caller, Sent past id connection ∧
      .completed connection result (some caller) ∈ past ∧ resultRequestId result = id := by
  obtain ⟨before, after, front, step, _⟩ := run.split_at
  have known := run_correlated front fresh.front
  obtain ⟨flight, member, connection, same, stage, there, own⟩ := returned_flight step
  have waiting := (known.flights flight member).stage
  rw [stage] at waiting
  obtain ⟨queued, sent⟩ := waiting
  obtain ⟨identity, caller, completed, also⟩ := known.answers result there
  rw [same] at queued sent
  rw [own] at also
  cases known.history.one id connection identity queued also
  exact ⟨connection, caller, sent, completed, own⟩

theorem returned_gone {events : List BrokerEvent} {id : String}
    (known : Correlated events broker) (over_ : id ∈ returned events) :
    broker.state.pending.find id = none := by
  rw [Table.find_none_iff]
  intro row there same
  exact (known.rows row there).unreturned (same ▸ over_)

/-- A result goes to the caller that sent the request of its id over the connection it came on;
no request returns twice or is sent two results; a request that has returned has no pending
entry; and activation commands for one device and thread are sent in the order of their
generations. -/
theorem broker_correlates {events : List BrokerEvent} {broker : BridgeBroker}
    (run : BrokerRun .empty events broker) (fresh : Fresh events) :
    (∀ past id result back, events = past ++ .returned id (.ok result) :: back →
      ∃ connection caller, Sent past id connection ∧
        .completed connection result (some caller) ∈ past ∧ resultRequestId result = id) ∧
    (returned events).Nodup ∧ (handed events).Nodup ∧
    (∀ id ∈ returned events, broker.state.pending.find id = none) ∧
    Increasing (activations events) := by
  have known := run_correlated run fresh
  refine ⟨?_, known.history.returnedOnce, known.history.handedOnce,
    fun id over_ => returned_gone known over_, (run_generated run).increasing⟩
  intro past id result back split
  subst split
  exact result_correlated run fresh

/-! ## A selection, answered over its connection -/

def exampleIdentity : BridgeIdentity := ⟨"device", "connection"⟩

def exampleProject : ProjectRegistration := ⟨"scope", "binding", "thread", "Sample", 500⟩

def exampleRoute : SessionRoute :=
  ⟨"chat", "subject", "device", "thread", "computer-1", 1, 500, .project⟩

def exampleEvents : List BrokerEvent :=
  [.attached 100 exampleIdentity [] [],
    .registered 101 exampleIdentity exampleProject (.ok ()),
    .began (.selectProject "chat" "subject" "scope"),
    .selected 102 exampleProject exampleRoute "request-1",
    .queued "request-1" exampleRoute exampleIdentity,
    .sent (activation "request-1" 200 exampleRoute) exampleIdentity,
    .completed exampleIdentity (.projectSessionResult "request-1")
      (some ⟨"request-1", "device", "connection"⟩),
    .returned "request-1" (.ok (.projectSessionResult "request-1"))]

theorem exampleEvents_run : ∃ broker, BrokerRun .empty exampleEvents broker :=
  ⟨_, .cons (.attached (.inserted _)) (.cons (.registered rfl) (.cons (.began rfl trivial)
    (.cons (.selected rfl rfl) (.cons (.selectionFlew rfl (.queue rfl))
      (.cons (.selectionFlew rfl .send) (.cons (.completed rfl)
        (.cons (.selectionReturned rfl (.answer (List.mem_cons_self ..) rfl)) (.nil _))))))))⟩

theorem exampleEvents_fresh : Fresh exampleEvents := ⟨by decide, by decide⟩

/-- The run answers its request, over the connection that it was sent on. -/
theorem exampleEvents_correlated : ∃ broker, BrokerRun .empty exampleEvents broker ∧
    ∃ connection caller, Sent exampleEvents.dropLast "request-1" connection ∧
      .completed connection (.projectSessionResult "request-1") (some caller) ∈
        exampleEvents.dropLast := by
  obtain ⟨broker, run⟩ := exampleEvents_run
  obtain ⟨connection, caller, sent, completed, _⟩ :=
    (broker_correlates run exampleEvents_fresh).1 exampleEvents.dropLast "request-1"
      (.projectSessionResult "request-1") [] rfl
  exact ⟨broker, run, connection, caller, sent, completed⟩

end CodexRemote.Verified.Broker

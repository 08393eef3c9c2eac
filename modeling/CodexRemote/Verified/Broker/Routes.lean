import CodexRemote.Verified.Broker.System

/-! # What the steps do to routes

Routes are made by the three sections that also take a generation.  Every other step
removes routes, or moves the expiry of those it leaves.
-/

namespace CodexRemote.Verified.Broker

open Foundations McpServer.Broker
open RemoteAgent (DateTime GatewayCommand BridgeResult)

/-- The route is as it was, but for its expiry. -/
def Extends (row old : SessionRoute) : Prop := row = { old with expiresAt := row.expiresAt }

theorem extends_self (row : SessionRoute) : Extends row row := rfl

theorem Extends.trans {row middle old : SessionRoute} (first : Extends row middle)
    (second : Extends middle old) : Extends row old := by
  unfold Extends at first second ⊢
  rw [first, second]

theorem Extends.same {row old : SessionRoute} (extends_ : Extends row old) :
    row.session = old.session ∧ row.deviceId = old.deviceId ∧ row.threadId = old.threadId ∧
      row.computerSessionId = old.computerSessionId ∧ row.generation = old.generation := by
  unfold Extends at extends_
  rw [extends_]
  exact ⟨rfl, rfl, rfl, rfl, rfl⟩

/-- No route, dormant or not, is new. -/
structure NoNewRoutes (state next : BrokerState) : Prop where
  sessions : ∀ row ∈ next.sessions.rows, ∃ old ∈ state.sessions.rows, Extends row old
  dormant : ∀ value ∈ next.dormant.rows, ∃ old ∈ state.dormant.rows,
    Extends value.route old.route ∧ value.projectScope = old.projectScope ∧
      value.bindingId = old.bindingId ∧ value.resumeUntil = old.resumeUntil
  generations : next.generations = state.generations

/-- Only routes went away. -/
structure Dropped (state next : BrokerState) : Prop where
  sessions : ∀ row ∈ next.sessions.rows, row ∈ state.sessions.rows
  dormant : ∀ value ∈ next.dormant.rows, value ∈ state.dormant.rows
  generations : next.generations = state.generations
  projects : next.projects = state.projects

theorem dropped_same {state next : BrokerState} (sessions : next.sessions = state.sessions)
    (dormant : next.dormant = state.dormant) (generations : next.generations = state.generations)
    (projects : next.projects = state.projects) : Dropped state next :=
  ⟨fun _ there => sessions ▸ there, fun _ there => dormant ▸ there, generations, projects⟩

theorem Dropped.noNewRoutes {state next : BrokerState} (dropped : Dropped state next) :
    NoNewRoutes state next :=
  ⟨fun row there => ⟨row, dropped.sessions row there, extends_self row⟩,
    fun value there => ⟨value, dropped.dormant value there, extends_self _, rfl, rfl, rfl⟩,
    dropped.generations⟩

theorem NoNewRoutes.trans {state middle next : BrokerState} (first : NoNewRoutes state middle)
    (second : NoNewRoutes middle next) : NoNewRoutes state next := by
  refine ⟨?_, ?_, second.generations.trans first.generations⟩
  · intro row there
    obtain ⟨mid, between, extends₁⟩ := second.sessions row there
    obtain ⟨old, before, extends₂⟩ := first.sessions mid between
    exact ⟨old, before, extends₁.trans extends₂⟩
  · intro value there
    obtain ⟨mid, between, extends₁, scope₁, binding₁, until₁⟩ := second.dormant value there
    obtain ⟨old, before, extends₂, scope₂, binding₂, until₂⟩ := first.dormant mid between
    exact ⟨old, before, extends₁.trans extends₂, scope₁.trans scope₂, binding₁.trans binding₂,
      until₁.trans until₂⟩

/-- What a step does to the maps of routes and projects. -/
inductive RouteMove (state : BrokerState) : BrokerEvent → BrokerState → Prop where
  | attached {now : DateTime} {identity : BridgeIdentity} (order : MapOrder state) :
      RouteMove state (.attached now identity order.routes order.projects)
        (attach now identity state order)
  | detached {now : DateTime} {identity : BridgeIdentity} (order : MapOrder state) :
      RouteMove state (.detached now identity order.routes order.projects)
        (detach now identity state order)
  | registered {now : DateTime} {identity : BridgeIdentity} {project : ProjectRegistration}
      {result : Except BrokerError Unit} {next : BrokerState}
      (ran : upsert now identity project state = (result, next)) :
      RouteMove state (.registered now identity project result) next
  | resumed {now : DateTime} {computerSessionId requestId : String} {identity : BridgeIdentity}
      {project : ProjectRegistration} {dormant : DormantRoute} {route : SessionRoute}
      {next : BrokerState}
      (ran : resumeProject now computerSessionId identity project state =
        (.ok (some (dormant, route)), next)) :
      RouteMove state (.resumed now project dormant route requestId) next
  | selected {now : DateTime} {computerSessionId requestId session subject scope : String}
      {project : ProjectRegistration} {route : SessionRoute} {next : BrokerState}
      (ran : prepareProjectRoute now computerSessionId session subject scope state =
        (.ok (project, route), next)) :
      RouteMove state (.selected now project route requestId) next
  | selectedDevice {now : DateTime}
      {computerSessionId requestId session subject deviceId workingDirectory : String}
      {route : SessionRoute} {next : BrokerState}
      (ran : prepareDeviceRoute now computerSessionId session subject deviceId workingDirectory
        state = (.ok route, next)) :
      RouteMove state (.selectedDevice now route requestId) next
  | dropped {event : BrokerEvent} {next : BrokerState} (plain : event.made? = none)
      (unregistered : ∀ now identity project result,
        event ≠ .registered now identity project result)
      (connected : ∀ now identity routes projects,
        event ≠ .attached now identity routes projects ∧
          event ≠ .detached now identity routes projects)
      (dropped : Dropped state next) : RouteMove state event next

/-! ## Sections that make no route -/

variable {now : DateTime} {computerSessionId : String} {identity : BridgeIdentity}
  {project : ProjectRegistration} {route : SessionRoute}

section

variable {state next : BrokerState}

theorem activeRoute_dropped {session subject : String} {result : Except BrokerError SessionRoute}
    (ran : activeRoute now session subject state = (result, next)) : Dropped state next := by
  have same : next = state.retainSessions now := by
    simp only [activeRoute] at ran
    split at ran
    · cases ran
      rfl
    · split_ifs at ran <;> cases ran <;> rfl
  subst same
  exact ⟨fun _ there => List.mem_of_mem_filter there, fun _ there => there, rfl, rfl⟩

theorem resumeProject_none {result : Except BrokerError (Option (DormantRoute × SessionRoute))}
    (ran : resumeProject now computerSessionId identity project state = (result, next))
    (none : result.toOption.join = none) : Dropped state next := by
  simp only [resumeProject] at ran
  split at ran
  · cases ran
    exact dropped_same rfl rfl rfl rfl
  · split_ifs at ran
    · split at ran
      · cases ran
        exact ⟨fun _ there => there,
          fun _ there => List.mem_of_mem_filter (Table.mem_remove.1 there).1, rfl, rfl⟩
      · cases ran
        cases none
    · cases ran
      exact ⟨fun _ there => there, fun _ there => List.mem_of_mem_filter there, rfl, rfl⟩

theorem unprepared_dropped {call : SelectionCall}
    (ran : Unprepared now computerSessionId state call next) : Dropped state next := by
  cases ran with
  | resume ran none => exact resumeProject_none ran none
  | project ran =>
    simp only [prepareProjectRoute] at ran
    split at ran
    · cases ran
      exact dropped_same rfl rfl rfl rfl
    · split_ifs at ran <;> cases ran <;> exact dropped_same rfl rfl rfl rfl
  | device ran =>
    simp only [prepareDeviceRoute] at ran
    split_ifs at ran <;> cases ran <;> exact dropped_same rfl rfl rfl rfl
  | directory ran unfit => exact activeRoute_dropped ran

theorem close_dropped {call : SelectionCall} {result : Except BrokerError BridgeResult} :
    Dropped state (call.close route result state) := by
  simp only [SelectionCall.close, removeRouteIfCurrent]
  split_ifs
  · exact ⟨fun _ there => (Table.mem_remove.1 there).1, fun _ there => there, rfl, rfl⟩
  · exact dropped_same rfl rfl rfl rfl
  · exact dropped_same rfl rfl rfl rfl

theorem complete_dropped {result : BridgeResult}
    {caller : Option PendingRequest} (ran : complete identity result state = (caller, next)) :
    Dropped state next := by
  simp only [complete] at ran
  split at ran
  · cases ran
    exact dropped_same rfl rfl rfl rfl
  · split at ran <;> cases ran <;> exact dropped_same rfl rfl rfl rfl

theorem enqueuePending_ok {requestId : String} {connection : BridgeIdentity}
    (ran : enqueuePending route requestId state = (.ok connection, next)) :
    (∃ current, state.sessions.find route.session = some current ∧
      current.computerSessionId = route.computerSessionId ∧
      state.devices.find current.deviceId = some connection) ∧
    next = { state with
      pending := state.pending.put ⟨requestId, route.deviceId, connection.connectionId⟩ } := by
  simp only [enqueuePending] at ran
  split at ran
  · cases ran
  · next current found =>
    obtain ⟨found, own⟩ := Option.filter_eq_some_iff.1 found
    split at ran
    · cases ran
    · next connected =>
      cases ran
      exact ⟨⟨current, found, by simpa using own, connected⟩, rfl⟩

theorem enqueuePending_error {requestId : String} {error : BrokerError}
    (ran : enqueuePending route requestId state = (.error error, next)) : next = state := by
  simp only [enqueuePending] at ran
  split at ran
  · cases ran
    rfl
  · split at ran
    · cases ran
      rfl
    · cases ran

theorem flight_dropped {answers : List BridgeResult} {flight : InFlight} {event : BrokerEvent}
    {after : InFlight ⊕ Except BrokerError BridgeResult}
    (flew : FlightStep answers state flight event next after) :
    Dropped state next ∧ event.made? = none ∧
      (∀ now identity project result, event ≠ .registered now identity project result) ∧
      ∀ now identity routes projects, event ≠ .attached now identity routes projects ∧
        event ≠ .detached now identity routes projects := by
  have same : next.sessions = state.sessions ∧ next.dormant = state.dormant ∧
      next.generations = state.generations ∧ next.projects = state.projects := by
    cases flew with
    | queue ran =>
      obtain ⟨_, rfl⟩ := enqueuePending_ok ran
      exact ⟨rfl, rfl, rfl, rfl⟩
    | refuse ran =>
      cases enqueuePending_error ran
      exact ⟨rfl, rfl, rfl, rfl⟩
    | _ => exact ⟨rfl, rfl, rfl, rfl⟩
  refine ⟨dropped_same same.1 same.2.1 same.2.2.1 same.2.2.2, ?_⟩
  cases flew <;> exact ⟨rfl, (fun _ _ _ _ => BrokerEvent.noConfusion),
    fun _ _ _ _ => ⟨BrokerEvent.noConfusion, BrokerEvent.noConfusion⟩⟩

theorem step_routes {broker after : BridgeBroker} {event : BrokerEvent}
    (step : BrokerStep broker event after) : RouteMove broker.state event after.state := by
  cases step with
  | attached order => exact .attached order
  | detached order => exact .detached order
  | registered ran => exact .registered ran
  | resumed held ran => exact .resumed ran
  | selected held ran => exact .selected ran
  | selectedDevice held ran => exact .selectedDevice ran
  | completed ran =>
    exact .dropped rfl (fun _ _ _ _ => BrokerEvent.noConfusion)
      (fun _ _ _ _ => ⟨BrokerEvent.noConfusion, BrokerEvent.noConfusion⟩) (complete_dropped ran)
  | left held ran =>
    exact .dropped rfl (fun _ _ _ _ => BrokerEvent.noConfusion)
      (fun _ _ _ _ => ⟨BrokerEvent.noConfusion, BrokerEvent.noConfusion⟩) (unprepared_dropped ran)
  | redirected held ran device =>
    exact .dropped rfl (fun _ _ _ _ => BrokerEvent.noConfusion)
      (fun _ _ _ _ => ⟨BrokerEvent.noConfusion, BrokerEvent.noConfusion⟩) (activeRoute_dropped ran)
  | routed ran =>
    exact .dropped rfl (fun _ _ _ _ => BrokerEvent.noConfusion)
      (fun _ _ _ _ => ⟨BrokerEvent.noConfusion, BrokerEvent.noConfusion⟩) (activeRoute_dropped ran)
  | unrouted ran =>
    exact .dropped rfl (fun _ _ _ _ => BrokerEvent.noConfusion)
      (fun _ _ _ _ => ⟨BrokerEvent.noConfusion, BrokerEvent.noConfusion⟩) (activeRoute_dropped ran)
  | closed held =>
    exact .dropped rfl (fun _ _ _ _ => BrokerEvent.noConfusion)
      (fun _ _ _ _ => ⟨BrokerEvent.noConfusion, BrokerEvent.noConfusion⟩) close_dropped
  | began free valid | selectionAbandoned | callAbandoned listed =>
    exact .dropped rfl (fun _ _ _ _ => BrokerEvent.noConfusion)
      (fun _ _ _ _ => ⟨BrokerEvent.noConfusion, BrokerEvent.noConfusion⟩) (dropped_same rfl rfl rfl rfl)
  | selectionFlew held flew | selectionReturned held flew | callFlew listed flew
  | callReturned listed flew =>
    obtain ⟨dropped, made, unregistered, connected⟩ := flight_dropped flew
    exact .dropped made unregistered connected dropped

/-! ## Sections that change registrations -/

theorem retainCurrent_noNew : NoNewRoutes state (state.retainCurrent now) :=
  ⟨fun row there => ⟨row, List.mem_of_mem_filter there, extends_self row⟩,
    fun value there => ⟨value, List.mem_of_mem_filter there, extends_self _, rfl, rfl, rfl⟩, rfl⟩

theorem renew_noNew {deviceId : String} {project : ProjectRegistration} :
    NoNewRoutes state (state.renew deviceId project) := by
  refine ⟨?_, ?_, rfl⟩
  · intro row there
    obtain ⟨old, before, rfl⟩ := List.mem_map.1 there
    refine ⟨old, before, ?_⟩
    split <;> rfl
  · intro value there
    obtain ⟨old, before, rfl⟩ := List.mem_map.1 there
    refine ⟨old, before, ?_⟩
    split <;> exact ⟨rfl, rfl, rfl, rfl⟩

theorem register_noNew {deviceId : String} :
    NoNewRoutes state (state.register deviceId project) :=
  ⟨fun row there => ⟨row, List.mem_of_mem_filter there, extends_self row⟩,
    fun value there => ⟨value, List.mem_of_mem_filter there, extends_self _, rfl, rfl, rfl⟩, rfl⟩

theorem noNew_same : NoNewRoutes state state := (dropped_same rfl rfl rfl rfl).noNewRoutes

theorem upsert_noNew
    {result : Except BrokerError Unit} (ran : upsert now identity project state = (result, next)) :
    NoNewRoutes state next := by
  simp only [upsert] at ran
  split at ran
  · cases ran
    exact noNew_same
  · split_ifs at ran <;> cases ran
    · exact retainCurrent_noNew
    · exact retainCurrent_noNew
    · exact retainCurrent_noNew
    · exact retainCurrent_noNew.trans renew_noNew
    · exact retainCurrent_noNew.trans register_noNew

/-- A disconnect leaves the sessions of other devices. -/
theorem disconnect_sessions {now : DateTime} {order : MapOrder state}
    {deviceId connectionId : String} :
    (∀ row ∈ (state.disconnect now order deviceId connectionId).sessions.rows,
      row ∈ state.sessions.rows) ∧
      (state.disconnect now order deviceId connectionId).generations = state.generations := by
  simp only [BrokerState.disconnect]
  split
  · exact ⟨fun _ there => List.mem_of_mem_filter there, rfl⟩
  · exact ⟨fun _ there => there, rfl⟩

theorem attach_sessions {now : DateTime} {identity : BridgeIdentity} {order : MapOrder state} :
    (∀ row ∈ (attach now identity state order).sessions.rows, row ∈ state.sessions.rows) ∧
      (attach now identity state order).generations = state.generations := by
  simp only [attach]
  cases state.devices.find identity.deviceId with
  | none => exact ⟨fun _ there => there, rfl⟩
  | some previous => exact disconnect_sessions

/-! ## Sections that make a route -/

theorem resumeProject_some {dormant : DormantRoute}
    (ran : resumeProject now computerSessionId identity project state =
      (.ok (some (dormant, route)), next)) :
    (∃ entry ∈ state.projects.rows, entry.owner = identity.deviceId ∧ entry.project = project) ∧
    dormant ∈ state.dormant.rows ∧
    dormant.key = (identity.deviceId, project.threadId) ∧
    dormant.projectScope = project.projectScope ∧ dormant.bindingId = project.bindingId ∧
    now < dormant.resumeUntil ∧ now < dormant.route.expiresAt ∧
    route = resumedRoute state computerSessionId identity project dormant ∧
    next = { state.retainDormant now with
      dormant := (state.retainDormant now).dormant.remove (identity.deviceId, project.threadId)
      generations := state.generations.put ⟨route.deviceId, route.threadId, route.generation⟩
      sessions := state.sessions.put route } := by
  simp only [resumeProject] at ran
  split at ran
  · cases ran
  · split_ifs at ran with current
    · split at ran
      · cases ran
      · next found =>
        cases ran
        simp only [BrokerState.resumable, Option.filter_eq_some_iff, decide_eq_true_eq,
          not_or, not_not, ne_eq] at found
        obtain ⟨found, scope, binding, live⟩ := found
        have there := Table.mem_of_find found
        simp only [BrokerState.retainDormant, Table.delete, List.mem_filter, Bool.not_eq_true',
          decide_eq_false_iff_not, not_or, Rat.not_le] at there
        obtain ⟨entry, registered, owner, same⟩ := by
          simpa [Option.any_eq_true] using current
        exact ⟨⟨entry, Table.mem_of_find registered, owner, same⟩, there.1, Table.find_key found,
          scope, binding, there.2.1, there.2.2, rfl, rfl⟩
    · cases ran

theorem prepareProjectRoute_some {session subject scope : String}
    (ran : prepareProjectRoute now computerSessionId session subject scope state =
      (.ok (project, route), next)) :
    ∃ entry ∈ state.projects.rows, entry.project = project ∧
      now < project.expiresAt ∧
      route = ⟨session, subject, entry.owner, project.threadId, computerSessionId,
        state.generation entry.owner project.threadId + 1, project.expiresAt, .project⟩ ∧
      next = state.enroute route := by
  simp only [prepareProjectRoute] at ran
  split at ran
  · cases ran
  · next entry found =>
    obtain ⟨found, live⟩ := Option.filter_eq_some_iff.1 found
    split_ifs at ran
    · cases ran
    · cases ran
    · cases ran
      exact ⟨entry, Table.mem_of_find found, rfl, by simpa using live, rfl, rfl⟩

theorem prepareDeviceRoute_ok {session subject deviceId workingDirectory : String}
    (ran : prepareDeviceRoute now computerSessionId session subject deviceId workingDirectory
      state = (.ok route, next)) :
    route = ⟨session, subject, deviceId, deviceThreadId, computerSessionId,
        state.generation deviceId deviceThreadId + 1, now + deviceRouteTtlSeconds,
        .device workingDirectory⟩ ∧ next = state.enroute route := by
  simp only [prepareDeviceRoute] at ran
  split_ifs at ran <;> cases ran
  exact ⟨rfl, rfl⟩

end

end CodexRemote.Verified.Broker

import CodexRemote.Verified.Broker.Reconnect

/-! # The registrations behind the routes

A session route does not say through which registration it was made; the history of the run
does.  It agrees with the registration that stands for the route's device and thread.
-/

namespace CodexRemote.Verified.Broker

open Foundations McpServer.Broker
open RemoteAgent (DateTime GatewayCommand BridgeResult)

/-- The registration through which an event makes a route. -/
def BrokerEvent.through? : BrokerEvent → Option (ProjectRegistration × SessionRoute)
  | .resumed _ project _ route _ => some (project, route)
  | .selected _ project route _ => some (project, route)
  | _ => none

/-- The route was made through the registration. -/
def Through (past : List BrokerEvent) (project : ProjectRegistration) (route : SessionRoute) : Prop :=
  ∃ event ∈ past, event.through? = some (project, route)

/-- The computer session that an event makes a route for. -/
def BrokerEvent.computerSession? (event : BrokerEvent) : Option String :=
  event.made?.map (·.computerSessionId)

/-- Each route has a computer session of its own. -/
def FreshRoutes (events : List BrokerEvent) : Prop :=
  (events.filterMap BrokerEvent.computerSession?).Nodup

variable {project : ProjectRegistration} {route : SessionRoute} {identity : BridgeIdentity}
  {now : DateTime}

section

variable {past : List BrokerEvent} {state next : BrokerState} {event : BrokerEvent}

theorem through_made
    (through : event.through? = some (project, route)) : event.made? = some route := by
  cases event with
  | resumed | selected =>
    cases through
    rfl
  | _ => cases through

theorem Through.split (through : Through (past ++ [event]) project route) :
    Through past project route ∨ event.through? = some (project, route) := by
  obtain ⟨other, there, own⟩ := through
  obtain before | here := List.mem_append.1 there
  · exact Or.inl ⟨other, before, own⟩
  · cases List.mem_singleton.1 here
    exact Or.inr own

theorem FreshRoutes.front {back : List BrokerEvent} (fresh : FreshRoutes (past ++ back)) :
    FreshRoutes past := by
  rw [FreshRoutes, List.filterMap_append] at fresh
  exact (List.nodup_append.1 fresh).1

/-- Routes of one computer session are one route. -/
theorem FreshRoutes.same {other : BrokerEvent} {second : SessionRoute}
    (fresh : FreshRoutes past) (there : event ∈ past) (here : other ∈ past)
    (made : event.made? = some route) (again : other.made? = some second)
    (session : route.computerSessionId = second.computerSessionId) : route = second := by
  have one : event = other := eq_of_filterMap_nodup fresh there here
    (by rw [BrokerEvent.computerSession?, made, Option.map_some])
    (by rw [BrokerEvent.computerSession?, again, Option.map_some, session])
  subst one
  exact Option.some.inj (made.symm.trans again)

theorem FreshRoutes.new {other : BrokerEvent} {back : List BrokerEvent} {second : SessionRoute}
    (fresh : FreshRoutes (past ++ event :: back)) (there : other ∈ past)
    (made : event.made? = some route) (again : other.made? = some second) :
    second.computerSessionId ≠ route.computerSessionId := by
  rw [FreshRoutes, List.filterMap_append, List.filterMap_cons, BrokerEvent.computerSession?, made]
    at fresh
  refine (List.nodup_append.1 fresh).2.2 _ ?_ _ (List.mem_cons_self ..)
  exact List.mem_filterMap.2 ⟨other, there, by rw [BrokerEvent.computerSession?, again]; rfl⟩

/-- What the history says about the routes that are kept. -/
structure Registered (past : List BrokerEvent) (state : BrokerState) : Prop where
  /-- a device has one project for a thread -/
  single : ∀ entry ∈ state.projects.rows, ∀ other ∈ state.projects.rows,
    entry.owner = other.owner → entry.project.threadId = other.project.threadId → entry = other
  thread : ∀ project route, Through past project route → route.threadId = project.threadId
  made : ∀ row, row ∈ state.sessions.rows ∨ row ∈ state.dormant.rows.map (·.route) →
    ∃ event ∈ past, ∃ route, event.made? = some route ∧ Extends row route
  sessions : ∀ row ∈ state.sessions.rows, ∀ project route, Through past project route →
    row.computerSessionId = route.computerSessionId → ∀ entry ∈ state.projects.rows,
      entry.owner = row.deviceId → entry.project.threadId = row.threadId →
        entry.project.projectScope = project.projectScope ∧
          entry.project.bindingId = project.bindingId
  dormant : ∀ value ∈ state.dormant.rows, ∀ project route, Through past project route →
    value.route.computerSessionId = route.computerSessionId →
      value.projectScope = project.projectScope ∧ value.bindingId = project.bindingId
  current : ∀ value ∈ state.dormant.rows, ∀ entry ∈ state.projects.rows,
    entry.owner = value.route.deviceId → entry.project.threadId = value.route.threadId →
      entry.project.projectScope = value.projectScope ∧ entry.project.bindingId = value.bindingId

/-- What is left of the maps when no registration is added and no route is made. -/
structure Lessened (state next : BrokerState) : Prop where
  projects : ∀ entry ∈ next.projects.rows, entry ∈ state.projects.rows
  sessions : ∀ row ∈ next.sessions.rows, row ∈ state.sessions.rows
  dormant : ∀ value ∈ next.dormant.rows, value ∈ state.dormant.rows ∨
    (value.route ∈ state.sessions.rows ∧
      (∃ entry ∈ state.projects.rows, entry.owner = value.route.deviceId ∧
        entry.project.threadId = value.route.threadId ∧
        value.projectScope = entry.project.projectScope ∧
        value.bindingId = entry.project.bindingId) ∧
      ∀ entry ∈ next.projects.rows, entry.owner ≠ value.route.deviceId)

theorem Registered.lessened (known : Registered past state) (less : Lessened state next) :
    Registered past next := by
  refine ⟨?_, known.thread, ?_, ?_, ?_, ?_⟩
  · exact fun entry there other here =>
      known.single entry (less.projects entry there) other (less.projects other here)
  · rintro row (there | there)
    · exact known.made row (Or.inl (less.sessions row there))
    · obtain ⟨value, kept, rfl⟩ := List.mem_map.1 there
      obtain before | ⟨session, _⟩ := less.dormant value kept
      · exact known.made _ (Or.inr (List.mem_map.2 ⟨value, before, rfl⟩))
      · exact known.made _ (Or.inl session)
  · exact fun row there project route through own entry registered =>
      known.sessions row (less.sessions row there) project route through own entry
        (less.projects entry registered)
  · intro value there project route through own
    obtain before | ⟨session, ⟨entry, registered, owner, thread, scope, binding⟩, _⟩ :=
      less.dormant value there
    · exact known.dormant value before project route through own
    · obtain ⟨sameScope, sameBinding⟩ :=
        known.sessions _ session project route through own entry registered owner thread
      exact ⟨scope.trans sameScope, binding.trans sameBinding⟩
  · intro value there entry registered owner thread
    obtain before | ⟨_, _, others⟩ := less.dormant value there
    · exact known.current value before entry (less.projects entry registered) owner thread
    · exact absurd owner (others entry registered)

/-- An event that makes no route tells nothing new about them. -/
theorem Registered.plain (known : Registered past state) (plain : event.made? = none) :
    Registered (past ++ [event]) state := by
  have old : ∀ project route, Through (past ++ [event]) project route →
      Through past project route := by
    intro project route through
    obtain before | here := through.split
    · exact before
    · rw [through_made here] at plain
      cases plain
  refine ⟨known.single, fun project route through => known.thread project route (old _ _ through),
    ?_, ?_, ?_, known.current⟩
  · intro row there
    obtain ⟨other, before, rest⟩ := known.made row there
    exact ⟨other, List.mem_append_left _ before, rest⟩
  · exact fun row there project route through => known.sessions row there project route
      (old _ _ through)
  · exact fun value there project route through => known.dormant value there project route
      (old _ _ through)

/-! ## Sections that lessen the maps -/

theorem Dropped.lessened (dropped : Dropped state next) : Lessened state next :=
  ⟨fun _ there => dropped.projects ▸ there, dropped.sessions,
    fun value there => Or.inl (dropped.dormant value there)⟩

theorem retainCurrent_lessened {now : DateTime} : Lessened state (state.retainCurrent now) :=
  ⟨fun _ there => List.mem_of_mem_filter there, fun _ there => List.mem_of_mem_filter there,
    fun _ there => Or.inl (List.mem_of_mem_filter there)⟩

theorem disconnect_lessened {now : DateTime} {order : MapOrder state}
    {deviceId connectionId : String} :
    Lessened state (state.disconnect now order deviceId connectionId) := by
  by_cases current : (state.devices.find deviceId).any fun value =>
      value.connectionId = connectionId
  · refine ⟨?_, disconnect_sessions.1, ?_⟩
    · intro entry there
      simp only [BrokerState.disconnect, if_pos current] at there
      exact List.mem_of_mem_filter there
    · intro value there
      obtain before | ⟨session, device, kept, _⟩ := disconnect_dormant there
      · exact Or.inl before
      · obtain ⟨_, _, entry, listed, owner, thread, scope, binding⟩ := dormantOf_some kept
        refine Or.inr ⟨session, ⟨entry, order.projects_perm.mem_iff.1 listed,
          owner.trans device.symm, thread, scope, binding⟩, ?_⟩
        -- the sweep takes the device's projects along
        intro other left
        simp only [BrokerState.disconnect, if_pos current, Table.delete, List.mem_filter,
          Bool.not_eq_true', decide_eq_false_iff_not] at left
        exact device ▸ left.2
  · have same : state.disconnect now order deviceId connectionId = state := by
      simp only [BrokerState.disconnect, if_neg current]
    rw [same]
    exact (dropped_same rfl rfl rfl rfl).lessened

theorem attach_lessened {order : MapOrder state} :
    Lessened state (attach now identity state order) := by
  simp only [attach]
  cases state.devices.find identity.deviceId with
  | none => exact ⟨fun _ there => there, fun _ there => there, fun _ there => Or.inl there⟩
  | some previous =>
    have less := @disconnect_lessened state now order identity.deviceId previous.connectionId
    exact ⟨less.projects, less.sessions, less.dormant⟩

/-! ## Registering -/

/-- A registration that is accepted. -/
theorem upsert_ok (ran : upsert now identity project state = (.ok (), next)) :
    ((state.retainCurrent now).renews identity.deviceId project ∧
      next = (state.retainCurrent now).renew identity.deviceId project) ∨
    next = (state.retainCurrent now).register identity.deviceId project := by
  simp only [upsert] at ran
  split at ran
  · cases ran
  · split_ifs at ran with _ _ _ renews <;> cases ran
    · exact Or.inl ⟨renews, rfl⟩
    · exact Or.inr rfl

theorem upsert_error
    {error : BrokerError} (ran : upsert now identity project state = (.error error, next)) :
    Lessened state next := by
  simp only [upsert] at ran
  split at ran
  · cases ran
    exact (dropped_same rfl rfl rfl rfl).lessened
  · split_ifs at ran <;> cases ran <;> exact retainCurrent_lessened

/-- The registration that a renewal stands on. -/
theorem renews_some {deviceId : String} (renews : state.renews deviceId project) :
    ∃ entry ∈ state.projects.rows, entry.owner = deviceId ∧
      entry.project.projectScope = project.projectScope ∧
      entry.project.bindingId = project.bindingId ∧
      entry.project.threadId = project.threadId := by
  obtain ⟨entry, found, own⟩ := (Option.any_eq_true ..).1 renews
  obtain ⟨owner, binding, thread, _⟩ := of_decide_eq_true own
  have scope : entry.scope = project.projectScope := Table.find_key found
  exact ⟨entry, Table.mem_of_find found, owner, scope, binding, thread⟩

theorem Registered.renew {deviceId : String} {project : ProjectRegistration}
    (known : Registered past state) (renews : state.renews deviceId project) :
    Registered past (state.renew deviceId project) := by
  obtain ⟨old, registered, oldOwner, oldScope, oldBinding, oldThread⟩ := renews_some renews
  -- the new entry stands where the old one stood
  have stands : ∀ entry ∈ (state.renew deviceId project).projects.rows,
      ∃ former ∈ state.projects.rows, former.owner = entry.owner ∧
        former.project.projectScope = entry.project.projectScope ∧
        former.project.bindingId = entry.project.bindingId ∧
        former.project.threadId = entry.project.threadId := by
    intro entry there
    obtain ⟨before, _⟩ | rfl := Table.mem_put.1 there
    · exact ⟨entry, before, rfl, rfl, rfl, rfl⟩
    · exact ⟨old, registered, oldOwner, oldScope, oldBinding, oldThread⟩
  obtain ⟨sessions, dormant, _⟩ := @renew_noNew state deviceId project
  refine ⟨?_, known.thread, ?_, ?_, ?_, ?_⟩
  · intro entry there other here owner thread
    obtain ⟨former, before, owner₁, scope₁, _, thread₁⟩ := stands entry there
    obtain ⟨latter, also, owner₂, scope₂, _, thread₂⟩ := stands other here
    cases known.single former before latter also
      (owner₁.trans (owner.trans owner₂.symm)) (thread₁.trans (thread.trans thread₂.symm))
    have scope : entry.scope = other.scope := scope₁.symm.trans scope₂
    exact Table.eq_of_key there here scope
  · rintro row (there | there)
    · obtain ⟨before, kept, extends_⟩ := sessions row there
      obtain ⟨event, made, route, own, rest⟩ := known.made before (Or.inl kept)
      exact ⟨event, made, route, own, extends_.trans rest⟩
    · obtain ⟨value, kept, rfl⟩ := List.mem_map.1 there
      obtain ⟨before, there, extends_, _⟩ := dormant value kept
      obtain ⟨event, made, route, own, rest⟩ :=
        known.made before.route (Or.inr (List.mem_map.2 ⟨before, there, rfl⟩))
      exact ⟨event, made, route, own, extends_.trans rest⟩
  · intro row there made route through own entry here owner thread
    obtain ⟨before, kept, extends_⟩ := sessions row there
    obtain ⟨_, device₁, thread₁, session₁, _⟩ := extends_.same
    obtain ⟨former, standing, owner₂, scope₂, binding₂, thread₂⟩ := stands entry here
    obtain ⟨scope, binding⟩ := known.sessions before kept made route through
      (session₁.symm.trans own) former standing (owner₂.trans (owner.trans device₁))
      (thread₂.trans (thread.trans thread₁))
    exact ⟨scope₂.symm.trans scope, binding₂.symm.trans binding⟩
  · intro value there made route through own
    obtain ⟨before, kept, extends_, scope₁, binding₁, _⟩ := dormant value there
    obtain ⟨_, _, _, session₁, _⟩ := extends_.same
    obtain ⟨scope, binding⟩ :=
      known.dormant before kept made route through (session₁.symm.trans own)
    exact ⟨scope₁.trans scope, binding₁.trans binding⟩
  · intro value there entry here owner thread
    obtain ⟨before, kept, extends_, scope₁, binding₁, _⟩ := dormant value there
    obtain ⟨_, device₁, thread₁, _⟩ := extends_.same
    obtain ⟨former, standing, owner₂, scope₂, binding₂, thread₂⟩ := stands entry here
    obtain ⟨scope, binding⟩ := known.current before kept former standing
      (owner₂.trans (owner.trans device₁)) (thread₂.trans (thread.trans thread₁))
    exact ⟨scope₂.symm.trans (scope.trans scope₁.symm),
      binding₂.symm.trans (binding.trans binding₁.symm)⟩

/-- What a new registration leaves of the maps. -/
theorem register_kept {deviceId : String} {project : ProjectRegistration} :
    (∀ entry ∈ (state.register deviceId project).projects.rows, entry = ⟨deviceId, project⟩ ∨
      (entry ∈ state.projects.rows ∧ (entry.owner ≠ deviceId ∨
        entry.project.threadId ≠ project.threadId))) ∧
    (∀ row, row ∈ (state.register deviceId project).sessions.rows ↔
      row ∈ state.sessions.rows ∧ (row.deviceId ≠ deviceId ∨ row.threadId ≠ project.threadId)) ∧
    ∀ value, value ∈ (state.register deviceId project).dormant.rows ↔
      value ∈ state.dormant.rows ∧ (value.key = (deviceId, project.threadId) →
        value.projectScope = project.projectScope ∧ value.bindingId = project.bindingId) := by
  refine ⟨?_, ?_, ?_⟩
  · intro entry there
    obtain ⟨before, elsewhere⟩ | new := Table.mem_put.1 there
    · right
      simp only [Table.delete, List.mem_filter, Bool.not_eq_true', decide_eq_false_iff_not,
        not_not] at before
      obtain ⟨before, owner | thread | scope⟩ := before
      · exact ⟨before, Or.inl owner⟩
      · exact ⟨before, Or.inr thread⟩
      · exact absurd scope elsewhere
    · exact Or.inl new
  · intro row
    simp [BrokerState.register, Table.delete, or_iff_not_imp_left]
  · intro value
    simp only [BrokerState.register, Table.delete, List.mem_filter, Bool.not_eq_true',
      decide_eq_false_iff_not, not_and, not_or, not_not, ne_eq]

theorem Registered.register {deviceId : String}
    (known : Registered past state) : Registered past (state.register deviceId project) := by
  obtain ⟨entries, sessions, dormant⟩ := @register_kept state deviceId project
  refine ⟨?_, known.thread, ?_, ?_, ?_, ?_⟩
  · intro entry there other here owner thread
    obtain rfl | ⟨before, apart⟩ := entries entry there
    · obtain rfl | ⟨_, apart⟩ := entries other here
      · rfl
      · exact absurd thread.symm (apart.resolve_left (not_not.2 owner.symm))
    · obtain rfl | ⟨also, _⟩ := entries other here
      · exact absurd thread (apart.resolve_left (not_not.2 owner))
      · exact known.single entry before other also owner thread
  · rintro row (there | there)
    · exact known.made row (Or.inl ((sessions row).1 there).1)
    · obtain ⟨value, kept, rfl⟩ := List.mem_map.1 there
      exact known.made _ (Or.inr (List.mem_map.2 ⟨value, ((dormant value).1 kept).1, rfl⟩))
  · intro row there made route through own entry here owner thread
    obtain ⟨kept, apart⟩ := (sessions row).1 there
    obtain rfl | ⟨before, _⟩ := entries entry here
    · exact absurd thread.symm (apart.resolve_left (not_not.2 owner.symm))
    · exact known.sessions row kept made route through own entry before owner thread
  · exact fun value there => known.dormant value ((dormant value).1 there).1
  · intro value there entry here owner thread
    obtain ⟨kept, matching⟩ := (dormant value).1 there
    obtain rfl | ⟨before, _⟩ := entries entry here
    · obtain ⟨scope, binding⟩ := matching (Prod.ext owner.symm thread.symm)
      exact ⟨scope.symm, binding.symm⟩
    · exact known.current value kept entry before owner thread

theorem Registered.upserted {result : Except BrokerError Unit}
    (known : Registered past state) (ran : upsert now identity project state = (result, next)) :
    Registered past next := by
  cases result with
  | error error => exact known.lessened (upsert_error ran)
  | ok =>
    have current := known.lessened (@retainCurrent_lessened state now)
    obtain ⟨renews, rfl⟩ | rfl := upsert_ok ran
    · exact current.renew renews
    · exact current.register

/-! ## Making a route -/

theorem Registered.enroute (known : Registered past state)
    (fresh : FreshRoutes (past ++ [event])) (made : event.made? = some route)
    (own : ∀ project second, event.through? = some (project, second) →
      second = route ∧ route.threadId = project.threadId ∧
        ∃ entry ∈ state.projects.rows, entry.project = project ∧ entry.owner = route.deviceId)
    (sessions : next.sessions = state.sessions.put route) (projects : next.projects = state.projects)
    (dormant : ∀ value ∈ next.dormant.rows, value ∈ state.dormant.rows) :
    Registered (past ++ [event]) next := by
  -- what was kept before is of another computer session
  have other : ∀ row, row ∈ state.sessions.rows ∨ row ∈ state.dormant.rows.map (·.route) →
      row.computerSessionId ≠ route.computerSessionId := by
    intro row kept
    obtain ⟨before, there, old, again, extends_⟩ := known.made row kept
    obtain ⟨_, _, _, session, _⟩ := extends_.same
    exact session ▸ fresh.new there made again
  have old : ∀ project second, Through (past ++ [event]) project second →
      second.computerSessionId ≠ route.computerSessionId → Through past project second := by
    intro project second through apart
    obtain before | here := through.split
    · exact before
    · exact absurd (congrArg _ (own project second here).1) apart
  have keptDormant : ∀ value ∈ next.dormant.rows, value.route ∈ state.dormant.rows.map (·.route) :=
    fun value there => List.mem_map.2 ⟨value, dormant value there, rfl⟩
  refine ⟨projects ▸ known.single, ?_, ?_, ?_, ?_, ?_⟩
  · intro project second through
    obtain before | here := through.split
    · exact known.thread project second before
    · obtain ⟨rfl, thread, _⟩ := own project second here
      exact thread
  · rw [sessions]
    rintro row (there | there)
    · obtain ⟨before, _⟩ | rfl := Table.mem_put.1 there
      · obtain ⟨former, past, rest⟩ := known.made row (Or.inl before)
        exact ⟨former, List.mem_append_left _ past, rest⟩
      · exact ⟨event, List.mem_append_right _ (List.mem_singleton_self _), _, made, extends_self _⟩
    · obtain ⟨value, kept, rfl⟩ := List.mem_map.1 there
      obtain ⟨former, past, rest⟩ := known.made _ (Or.inr (keptDormant value kept))
      exact ⟨former, List.mem_append_left _ past, rest⟩
  · rw [sessions, projects]
    intro row there project second through same entry registered owner thread
    obtain ⟨before, _⟩ | rfl := Table.mem_put.1 there
    · have through := old project second through (same ▸ other row (Or.inl before))
      exact known.sessions row before project second through same entry registered owner thread
    · obtain before | here := through.split
      · obtain ⟨former, past, told⟩ := before
        exact absurd same.symm (fresh.new past made (through_made told))
      · obtain ⟨_, sameThread, standing, stands, rfl, ofDevice⟩ := own project second here
        cases known.single entry registered standing stands (owner.trans ofDevice.symm)
          (thread.trans sameThread)
        exact ⟨rfl, rfl⟩
  · intro value there project second through same
    have through := old project second through (same ▸ other _ (Or.inr (keptDormant value there)))
    exact known.dormant value (dormant value there) project second through same
  · rw [projects]
    exact fun value there => known.current value (dormant value there)

theorem Registered.step (known : Registered past state) (move : RouteMove state event next)
    (fresh : FreshRoutes (past ++ [event])) : Registered (past ++ [event]) next := by
  cases move with
  | attached order => exact (known.lessened attach_lessened).plain rfl
  | detached order => exact (known.lessened disconnect_lessened).plain rfl
  | registered ran => exact (known.upserted ran).plain rfl
  | dropped plain _ _ dropped => exact (known.lessened dropped.lessened).plain plain
  | resumed ran =>
    obtain ⟨⟨entry, registered, owner, same⟩, _, _, _, _, _, _, rfl, rfl⟩ :=
      resumeProject_some ran
    refine known.enroute fresh rfl ?_ rfl rfl ?_
    · intro project second told
      cases told
      exact ⟨rfl, rfl, entry, registered, same, owner⟩
    · exact fun value there => List.mem_of_mem_filter (Table.mem_remove.1 there).1
  | selected ran =>
    obtain ⟨entry, registered, same, _, rfl, rfl⟩ := prepareProjectRoute_some ran
    refine known.enroute fresh rfl ?_ rfl rfl fun _ there => there
    intro project second told
    cases told
    exact ⟨rfl, rfl, entry, registered, same, rfl⟩
  | selectedDevice ran =>
    obtain ⟨rfl, rfl⟩ := prepareDeviceRoute_ok ran
    refine known.enroute fresh rfl ?_ rfl rfl fun _ there => there
    intro project second told
    cases told

end

theorem empty_registered : Registered [] .empty := by
  refine ⟨?_, ?_, ?_, ?_, ?_, ?_⟩
  · intro entry there
    cases there
  · rintro project route ⟨event, there, _⟩
    cases there
  · rintro row (there | there) <;> cases there
  · intro row there
    cases there
  · intro value there
    cases there
  · intro value there
    cases there

theorem run_registered {events : List BrokerEvent} {broker : BridgeBroker}
    (run : BrokerRun .empty events broker) (fresh : FreshRoutes events) :
    Registered events broker.state := by
  refine run.records (fun past broker => FreshRoutes past → Registered past broker.state) ?_
    (fun _ => empty_registered) fresh
  intro past _ event _ _ step known fresh
  exact (known fresh.front).step (step_routes step) fresh

end CodexRemote.Verified.Broker

import CodexRemote.Verified.Broker.NewestSession
import CodexRemote.Verified.Broker.Registrations

/-! # Registering a scope again

An accepted registration drops the routes of its own thread.  A route that was made through the
same scope for another thread stays, active or dormant.
-/

namespace CodexRemote.Verified.Broker

open Foundations McpServer.Broker
open RemoteAgent (DateTime GatewayCommand BridgeResult)

/-- The computer session belongs to a route that was made through an earlier registration of the
scope, with another thread or binding. -/
def Superseded (past : List BrokerEvent) (deviceId : String) (project : ProjectRegistration)
    (computerSessionId : String) : Prop :=
  ∃ earlier route, Through past earlier route ∧ route.deviceId = deviceId ∧
    route.computerSessionId = computerSessionId ∧
    earlier.projectScope = project.projectScope ∧
    (earlier.threadId ≠ project.threadId ∨ earlier.bindingId ≠ project.bindingId)

/-- No route of the computer session is kept, active or dormant. -/
def Gone (computerSessionId : String) (state : BrokerState) : Prop :=
  (∀ row ∈ state.sessions.rows, row.computerSessionId ≠ computerSessionId) ∧
    ∀ value ∈ state.dormant.rows, value.route.computerSessionId ≠ computerSessionId

/-- The unexpired routes that were made through the scope are those of the new thread. -/
def Confined (past : List BrokerEvent) (now : DateTime) (deviceId : String)
    (project : ProjectRegistration) (state : BrokerState) : Prop :=
  ∀ earlier route, Through past earlier route → route.deviceId = deviceId →
    earlier.projectScope = project.projectScope → earlier.threadId ≠ project.threadId →
      (∀ row ∈ state.sessions.rows, row.computerSessionId = route.computerSessionId →
        row.expiresAt ≤ now) ∧
      ∀ value ∈ state.dormant.rows, value.route.computerSessionId = route.computerSessionId →
        value.resumeUntil ≤ now ∨ value.route.expiresAt ≤ now

variable {project : ProjectRegistration} {route : SessionRoute} {identity : BridgeIdentity}
  {now : DateTime}

section

variable {past : List BrokerEvent} {state next : BrokerState} {event : BrokerEvent}

/-- A kept route of the computer session is the one that was made. -/
theorem Registered.keptRoute {row : SessionRoute}
    (known : Registered past state) (fresh : FreshRoutes past) (through : Through past project route)
    (kept : row ∈ state.sessions.rows ∨ row ∈ state.dormant.rows.map (·.route))
    (session : row.computerSessionId = route.computerSessionId) :
    row.deviceId = route.deviceId ∧ row.threadId = project.threadId := by
  obtain ⟨event, there, made, own, extends_⟩ := known.made row kept
  obtain ⟨other, here, told⟩ := through
  obtain ⟨_, device, thread, same, _⟩ := extends_.same
  cases fresh.same there here own (through_made told) (same.symm.trans session)
  exact ⟨device, thread.trans (known.thread project _ ⟨other, here, told⟩)⟩

theorem mem_retainCurrent {now : DateTime} :
    (∀ row, row ∈ (state.retainCurrent now).sessions.rows ↔
      row ∈ state.sessions.rows ∧ ¬row.expiresAt ≤ now) ∧
    ∀ value, value ∈ (state.retainCurrent now).dormant.rows ↔
      value ∈ state.dormant.rows ∧ ¬(value.resumeUntil ≤ now ∨ value.route.expiresAt ≤ now) := by
  constructor
  · intro row
    simp only [BrokerState.retainCurrent, BrokerState.retainDormant, BrokerState.retainSessions,
      Table.delete, List.mem_filter, Bool.not_eq_true', decide_eq_false_iff_not]
  · intro value
    simp only [BrokerState.retainCurrent, BrokerState.retainDormant, BrokerState.retainSessions,
      Table.delete, List.mem_filter, Bool.not_eq_true', decide_eq_false_iff_not]

/-- Routes of another thread than the registered one stay as they are. -/
theorem upsert_others (ran : upsert now identity project state = (.ok (), next)) :
    (∀ row ∈ (state.retainCurrent now).sessions.rows, row.threadId ≠ project.threadId →
      row ∈ next.sessions.rows) ∧
    ∀ value ∈ (state.retainCurrent now).dormant.rows, value.route.threadId ≠ project.threadId →
      value ∈ next.dormant.rows := by
  obtain ⟨_, rfl⟩ | rfl := upsert_ok ran
  · constructor
    · intro row there other
      refine List.mem_map.2 ⟨row, there, if_neg ?_⟩
      simp [other]
    · intro value there other
      refine List.mem_map.2 ⟨value, there, if_neg ?_⟩
      simp [DormantRoute.key, other]
  · obtain ⟨_, sessions, dormant⟩ :=
      @register_kept (state.retainCurrent now) identity.deviceId project
    constructor
    · exact fun row there other => (sessions row).2 ⟨there, Or.inr other⟩
    · intro value there other
      refine (dormant value).2 ⟨there, fun key => absurd (Prod.mk.inj key).2 other⟩

/-- What an accepted registration leaves was there before, unexpired. -/
theorem upsert_kept (ran : upsert now identity project state = (.ok (), next)) :
    NoNewRoutes (state.retainCurrent now) next := by
  obtain ⟨_, rfl⟩ | rfl := upsert_ok ran
  · exact renew_noNew
  · exact register_noNew

/-- Of the thread that is registered, only the routes of its binding stay. -/
theorem Registered.other_binding_gone
    {earlier : ProjectRegistration} (known : Registered past state)
    (fresh : FreshRoutes past) (ran : upsert now identity project state = (.ok (), next))
    (through : Through past earlier route) (device : route.deviceId = identity.deviceId)
    (thread : earlier.threadId = project.threadId) (binding : earlier.bindingId ≠ project.bindingId) :
    Gone route.computerSessionId next := by
  have current := known.lessened (@retainCurrent_lessened state now)
  obtain ⟨renews, rfl⟩ | rfl := upsert_ok ran
  · -- the standing registration has the route's binding and the new one
    obtain ⟨entry, standing, owner, _, sameBinding, sameThread⟩ := renews_some renews
    obtain ⟨sessions, dormant, _⟩ :=
      @renew_noNew (state.retainCurrent now) identity.deviceId project
    constructor
    · intro row there session
      obtain ⟨old, before, extends_⟩ := sessions row there
      obtain ⟨_, _, _, same, _⟩ := extends_.same
      obtain ⟨ownDevice, ownThread⟩ :=
        current.keptRoute fresh through (Or.inl before) (same.symm.trans session)
      obtain ⟨_, own⟩ := current.sessions old before earlier route through
        (same.symm.trans session) entry standing (owner.trans (device.symm.trans ownDevice.symm))
        (sameThread.trans (thread.symm.trans ownThread.symm))
      exact binding (own.symm.trans sameBinding)
    · intro value there session
      obtain ⟨old, before, extends_, _⟩ := dormant value there
      obtain ⟨_, _, _, same, _⟩ := extends_.same
      obtain ⟨ownDevice, ownThread⟩ := current.keptRoute fresh through
        (Or.inr (List.mem_map.2 ⟨old, before, rfl⟩)) (same.symm.trans session)
      obtain ⟨_, own⟩ := current.current old before entry standing
        (owner.trans (device.symm.trans ownDevice.symm))
        (sameThread.trans (thread.symm.trans ownThread.symm))
      obtain ⟨_, made⟩ :=
        current.dormant old before earlier route through (same.symm.trans session)
      exact binding (made.symm.trans (own.symm.trans sameBinding))
  · obtain ⟨_, sessions, dormant⟩ :=
      @register_kept (state.retainCurrent now) identity.deviceId project
    constructor
    · intro row there session
      obtain ⟨before, apart⟩ := (sessions row).1 there
      obtain ⟨ownDevice, ownThread⟩ := current.keptRoute fresh through (Or.inl before) session
      exact apart.elim (fun other => other (ownDevice.trans device))
        fun other => other (ownThread.trans thread)
    · intro value there session
      obtain ⟨before, matching⟩ := (dormant value).1 there
      obtain ⟨ownDevice, ownThread⟩ := current.keptRoute fresh through
        (Or.inr (List.mem_map.2 ⟨value, before, rfl⟩)) session
      obtain ⟨_, own⟩ := matching (Prod.ext (ownDevice.trans device) (ownThread.trans thread))
      obtain ⟨_, made⟩ := current.dormant value before earlier route through session
      exact binding (made.symm.trans own)

/-- An accepted registration ends the routes that it supersedes just when all unexpired ones of
its scope are of its thread. -/
theorem Registered.superseded_gone (known : Registered past state) (fresh : FreshRoutes past)
    (ran : upsert now identity project state = (.ok (), next)) :
    (∀ computerSessionId, Superseded past identity.deviceId project computerSessionId →
      Gone computerSessionId next) ↔ Confined past now identity.deviceId project state := by
  obtain ⟨retained, dormantRetained⟩ := @mem_retainCurrent state now
  obtain ⟨others, dormantOthers⟩ := upsert_others ran
  constructor
  · intro gone earlier route through device scope thread
    have none := gone _ ⟨earlier, route, through, device, rfl, scope, Or.inl thread⟩
    constructor
    · intro row there session
      by_contra live
      obtain ⟨_, own⟩ := known.keptRoute fresh through (Or.inl there) session
      exact none.1 row (others row ((retained row).2 ⟨there, live⟩) (own ▸ thread)) session
    · intro value there session
      by_contra live
      obtain ⟨_, own⟩ := known.keptRoute fresh through
        (Or.inr (List.mem_map.2 ⟨value, there, rfl⟩)) session
      exact none.2 value
        (dormantOthers value ((dormantRetained value).2 ⟨there, live⟩) (own ▸ thread)) session
  · rintro confined _ ⟨earlier, route, through, device, rfl, scope, differs⟩
    by_cases thread : earlier.threadId = project.threadId
    · exact known.other_binding_gone fresh ran through device thread
        (differs.resolve_left (not_not.2 thread))
    · obtain ⟨expired, dormantExpired⟩ := confined earlier route through device scope thread
      have kept := upsert_kept ran
      constructor
      · intro row there session
        obtain ⟨old, before, extends_⟩ := kept.sessions row there
        obtain ⟨_, _, _, same, _⟩ := extends_.same
        obtain ⟨there, live⟩ := (retained old).1 before
        exact live (expired old there (same.symm.trans session))
      · intro value there session
        obtain ⟨old, before, extends_, _⟩ := kept.dormant value there
        obtain ⟨_, _, _, same, _⟩ := extends_.same
        obtain ⟨there, live⟩ := (dormantRetained old).1 before
        exact live (dormantExpired old there (same.symm.trans session))

/-! ## What is gone stays gone -/

/-- The computer session of the route that an event dispatches on or resumes. -/
def BrokerEvent.used? : BrokerEvent → Option String
  | .queued _ route _ => some route.computerSessionId
  | .resumed _ _ dormant _ _ => some dormant.route.computerSessionId
  | _ => none

variable {computerSessionId : String}

theorem Gone.lessened (gone : Gone computerSessionId state) (less : Lessened state next) :
    Gone computerSessionId next := by
  refine ⟨fun row there => gone.1 row (less.sessions row there), ?_⟩
  intro value there
  obtain before | ⟨session, _⟩ := less.dormant value there
  · exact gone.2 value before
  · exact gone.1 _ session

theorem Gone.noNew (gone : Gone computerSessionId state) (same : NoNewRoutes state next) :
    Gone computerSessionId next := by
  constructor
  · intro row there
    obtain ⟨old, before, extends_⟩ := same.sessions row there
    exact extends_.same.2.2.2.1 ▸ gone.1 old before
  · intro value there
    obtain ⟨old, before, extends_, _⟩ := same.dormant value there
    exact extends_.same.2.2.2.1 ▸ gone.2 old before

theorem Gone.enroute (gone : Gone computerSessionId state)
    (made : event.made? = some route) (apart : event.computerSession? ≠ some computerSessionId)
    (sessions : next.sessions = state.sessions.put route)
    (dormant : ∀ value ∈ next.dormant.rows, value ∈ state.dormant.rows) :
    Gone computerSessionId next := by
  refine ⟨?_, fun value there => gone.2 value (dormant value there)⟩
  rw [sessions]
  intro row there
  obtain ⟨before, _⟩ | rfl := Table.mem_put.1 there
  · exact gone.1 row before
  · intro same
    rw [BrokerEvent.computerSession?, made, Option.map_some, same] at apart
    exact apart rfl

theorem Gone.step (gone : Gone computerSessionId state) (move : RouteMove state event next)
    (apart : event.computerSession? ≠ some computerSessionId) : Gone computerSessionId next := by
  cases move with
  | attached order => exact gone.lessened attach_lessened
  | detached order => exact gone.lessened disconnect_lessened
  | registered ran => exact gone.noNew (upsert_noNew ran)
  | dropped _ _ _ dropped => exact gone.lessened dropped.lessened
  | resumed ran =>
    obtain ⟨_, _, _, _, _, _, _, rfl, rfl⟩ := resumeProject_some ran
    exact gone.enroute rfl apart rfl fun value there =>
      List.mem_of_mem_filter (Table.mem_remove.1 there).1
  | selected ran =>
    obtain ⟨_, _, _, _, rfl, rfl⟩ := prepareProjectRoute_some ran
    exact gone.enroute rfl apart rfl fun _ there => there
  | selectedDevice ran =>
    obtain ⟨rfl, rfl⟩ := prepareDeviceRoute_ok ran
    exact gone.enroute rfl apart rfl fun _ there => there

theorem flight_used {answers : List BridgeResult} {flight : InFlight}
    {after : InFlight ⊕ Except BrokerError BridgeResult} (gone : Gone computerSessionId state)
    (flew : FlightStep answers state flight event next after) :
    event.used? ≠ some computerSessionId := by
  cases flew with
  | queue ran =>
    obtain ⟨⟨current, found, session, _⟩, _⟩ := enqueuePending_ok ran
    intro used
    exact gone.1 current (Table.mem_of_find found) (session.trans (Option.some.inj used))
  | _ => intro used; cases used

/-- A route that is gone is neither dispatched on nor resumed. -/
theorem Gone.unused {broker after : BridgeBroker} (gone : Gone computerSessionId broker.state)
    (step : BrokerStep broker event after) : event.used? ≠ some computerSessionId := by
  cases step with
  | resumed held ran =>
    obtain ⟨_, there, _⟩ := resumeProject_some ran
    intro used
    exact gone.2 _ there (Option.some.inj used)
  | selectionFlew held flew | selectionReturned held flew | callFlew listed flew
  | callReturned listed flew => exact flight_used gone flew
  | _ => intro used; cases used

theorem Gone.run {events : List BrokerEvent} {broker last : BridgeBroker}
    (gone : Gone computerSessionId broker.state) (run : BrokerRun broker events last)
    (apart : ∀ event ∈ events, event.computerSession? ≠ some computerSessionId) :
    ∀ event ∈ events, event.used? ≠ some computerSessionId := by
  induction run with
  | nil => exact fun _ there => nomatch there
  | cons first rest ih =>
    have after := gone.step (step_routes first) (apart _ (List.mem_cons_self ..))
    intro event there
    obtain rfl | later := List.mem_cons.1 there
    · exact gone.unused first
    · exact ih after (fun event there => apart event (List.mem_cons_of_mem _ there)) event later

end

/-- Once a scope is registered again, the routes that were made through its earlier registrations
for another thread or binding are gone just when the unexpired ones are all of the new thread;
and then none of them is dispatched on or resumed again. -/
theorem reregistered_routes_unused {past : List BrokerEvent} {before after : BridgeBroker}
    {now : DateTime} {identity : BridgeIdentity} {project : ProjectRegistration}
    (front : BrokerRun .empty past before)
    (step : BrokerStep before (.registered now identity project (.ok ())) after)
    (fresh : FreshRoutes past) :
    ((∀ computerSessionId, Superseded past identity.deviceId project computerSessionId →
      Gone computerSessionId after.state) ↔
        Confined past now identity.deviceId project before.state) ∧
    (Confined past now identity.deviceId project before.state →
      ∀ later last, BrokerRun after later last → FreshRoutes (past ++ later) →
        ∀ computerSessionId, Superseded past identity.deviceId project computerSessionId →
          ∀ event ∈ later, event.used? ≠ some computerSessionId) := by
  have known := run_registered front fresh
  have ran : upsert now identity project before.state = (.ok (), after.state) := by
    cases step with
    | registered ran => exact ran
    | selectionFlew _ flew | selectionReturned _ flew | callFlew _ flew | callReturned _ flew =>
      cases flew
  have ends := known.superseded_gone fresh ran
  refine ⟨ends, ?_⟩
  intro confined later last run fresh computerSessionId superseded
  refine (ends.2 confined computerSessionId superseded).run run ?_
  obtain ⟨_, route, ⟨other, there, told⟩, _, rfl, _⟩ := superseded
  -- a later route has a computer session of its own
  intro event here again
  rw [FreshRoutes, List.filterMap_append] at fresh
  refine (List.nodup_append.1 fresh).2.2 _ (List.mem_filterMap.2 ⟨other, there, ?_⟩) _
    (List.mem_filterMap.2 ⟨event, here, again⟩) rfl
  rw [BrokerEvent.computerSession?, through_made told]
  rfl

/-! ## One chat, and its project registered again -/

def movedProject : ProjectRegistration := { exampleProject with threadId := "thread-2" }

def reboundProject : ProjectRegistration := { exampleProject with bindingId := "binding-2" }

theorem oneChat_superseded (scope : project.projectScope = "scope")
    (differs : "thread" ≠ project.threadId ∨ "binding" ≠ project.bindingId) :
    Superseded oneChatEvents "device" project "computer-1" :=
  ⟨exampleProject, earlierRoute,
    ⟨.selected 102 exampleProject earlierRoute "request-1", by simp [oneChatEvents], rfl⟩, rfl, rfl,
    scope.symm, differs⟩

theorem oneChat_through (through : Through oneChatEvents project route) :
    project = exampleProject ∧ route = earlierRoute := by
  obtain ⟨event, there, told⟩ := through
  simp only [oneChatEvents, List.mem_cons, List.not_mem_nil, or_false] at there
  obtain rfl | rfl | rfl | rfl | rfl := there
  all_goals first | (cases told; done) | skip
  cases told
  exact ⟨rfl, rfl⟩

theorem oneChat_fresh : FreshRoutes oneChatEvents := List.nodup_singleton _

/-- The project of the first chat, under another thread or binding. -/
def registeredAgain (project : ProjectRegistration) : BridgeBroker :=
  ⟨(upsert 110 exampleIdentity project oneChat).2, none, [], []⟩

theorem moved_run : ∃ last, BrokerRun (registeredAgain movedProject)
    [.routed 111 earlierRoute .projectInfo "request-2",
      .queued "request-2" earlierRoute exampleIdentity] last :=
  ⟨_, .cons (@BrokerStep.routed (registeredAgain movedProject) 111 200 "chat-1" "subject"
      "request-2" .projectInfo earlierRoute _ rfl)
    (.single (@BrokerStep.callFlew _ [] [] _ _ _ _ rfl (.queue rfl)))⟩

/-- The scope moves to another thread, and a command is dispatched on the route of the first. -/
theorem moved_scope_route_used : ∃ before after last,
    BrokerRun .empty oneChatEvents before ∧
    BrokerStep before (.registered 110 exampleIdentity movedProject (.ok ())) after ∧
    Superseded oneChatEvents "device" movedProject earlierRoute.computerSessionId ∧
    BrokerRun after [.routed 111 earlierRoute .projectInfo "request-2",
      .queued "request-2" earlierRoute exampleIdentity] last := by
  obtain ⟨last, run⟩ := moved_run
  exact ⟨_, _, last, oneChat_run, .registered rfl, oneChat_superseded rfl (Or.inl (by decide)), run⟩

/-- With another binding for the same thread the route ends. -/
theorem rebound_scope_route_gone : ∃ before after,
    BrokerRun .empty oneChatEvents before ∧
    BrokerStep before (.registered 110 exampleIdentity reboundProject (.ok ())) after ∧
    Gone earlierRoute.computerSessionId after.state ∧
    ∃ last, BrokerRun after [.unrouted 111] last := by
  have step : BrokerStep ⟨oneChat, none, [], []⟩
      (.registered 110 exampleIdentity reboundProject (.ok ())) (registeredAgain reboundProject) :=
    .registered rfl
  obtain ⟨ends, _⟩ := reregistered_routes_unused oneChat_run step oneChat_fresh
  refine ⟨_, _, oneChat_run, step, ends.2 ?_ _
    (oneChat_superseded rfl (Or.inr (by decide))), _,
    .single (@BrokerStep.unrouted _ 111 "chat-1" "subject" .activeSelectionMissing _ rfl)⟩
  -- the chat's route is of the thread that is registered again
  intro earlier route through _ _ thread
  obtain ⟨rfl, _⟩ := oneChat_through through
  exact absurd rfl thread

end CodexRemote.Verified.Broker

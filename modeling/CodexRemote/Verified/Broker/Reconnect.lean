import CodexRemote.Verified.Broker.Generations

/-! # Which session a reconnect brings back

A disconnect keeps one dormant route for a thread: the last one in the order in which the
sessions happen to be walked.  It is the newest one only where that order says so.
-/

namespace CodexRemote.Verified.Broker

open Foundations McpServer.Broker
open RemoteAgent (DateTime GatewayCommand BridgeResult)

/-- The unexpired session routes of a device and a thread. -/
def liveRoutes (now : DateTime) (deviceId threadId : String) (state : BrokerState) :
    List SessionRoute :=
  state.sessions.select fun route =>
    route.deviceId = deviceId ∧ route.threadId = threadId ∧ now < route.expiresAt

/-- The disconnect that an event stands for: its time and the device. -/
def BrokerEvent.swept? (state : BrokerState) : BrokerEvent → Option (DateTime × String)
  | .attached now identity _ _ =>
    (state.devices.find identity.deviceId).map fun _ => (now, identity.deviceId)
  | .detached now identity _ _ =>
    ((state.devices.find identity.deviceId).filter fun value =>
      value.connectionId = identity.connectionId).map fun _ => (now, identity.deviceId)
  | _ => none

/-- The order in which the sweep of an event meets the sessions and the projects. -/
def BrokerEvent.walk : BrokerEvent → List SessionRoute × List OwnedProject
  | .attached _ _ routes projects => (routes, projects)
  | .detached _ _ routes projects => (routes, projects)
  | _ => ([], [])

/-- The routes of a thread that the sweep can keep, in the order of the walk: those to a project
that the device has registered and that have not expired. -/
def keepable (now : DateTime) (deviceId threadId : String)
    (walk : List SessionRoute × List OwnedProject) : List SessionRoute :=
  walk.1.filter fun route => route.deviceId = deviceId ∧ route.threadId = threadId ∧
    (dormantOf now walk.2 deviceId route).isSome

/-- What a disconnect should leave: a dormant route is the newest of the live ones. -/
def NewestKept (now : DateTime) (deviceId : String) (state next : BrokerState) : Prop :=
  ∀ threadId value, next.dormant.find (deviceId, threadId) = some value →
    liveRoutes now deviceId threadId state ≠ [] →
    value.route ∈ liveRoutes now deviceId threadId state ∧
      ∀ row ∈ liveRoutes now deviceId threadId state, row.generation ≤ value.route.generation

/-- The walk ends with the newest route of each thread; a thread with live routes of which none
can be kept has no dormant route from before. -/
def NewestLast (now : DateTime) (deviceId : String) (walk : List SessionRoute × List OwnedProject)
    (state : BrokerState) : Prop :=
  ∀ threadId,
    match (keepable now deviceId threadId walk).getLast? with
    | some last => ∀ row ∈ liveRoutes now deviceId threadId state,
        row.generation ≤ last.generation
    | none => liveRoutes now deviceId threadId state = [] ∨
        state.dormant.find (deviceId, threadId) = none

variable {deviceId : String} {now : DateTime}

theorem mem_liveRoutes {threadId : String} {state : BrokerState}
    {row : SessionRoute} : row ∈ liveRoutes now deviceId threadId state ↔
      row ∈ state.sessions.rows ∧ row.deviceId = deviceId ∧ row.threadId = threadId ∧
        now < row.expiresAt := by
  simp [liveRoutes, Table.select]

theorem dormantOf_some {projects : List OwnedProject} {route : SessionRoute} {value : DormantRoute}
    (kept : dormantOf now projects deviceId route = some value) :
    value.route = route ∧ now < route.expiresAt ∧
      ∃ entry ∈ projects, entry.owner = deviceId ∧ entry.project.threadId = route.threadId ∧
        value.projectScope = entry.project.projectScope ∧
        value.bindingId = entry.project.bindingId := by
  simp only [dormantOf] at kept
  split at kept
  · next live =>
    obtain ⟨project, found, rfl⟩ := Option.map_eq_some_iff.1 kept
    have named := List.find?_some found
    have listed := List.mem_of_find?_eq_some found
    obtain ⟨entry, owned, rfl⟩ := List.mem_map.1 listed
    obtain ⟨there, owner⟩ := List.mem_filter.1 owned
    exact ⟨rfl, live.2, entry, there, by simpa using owner, by simpa using named, rfl, rfl⟩
  · cases kept

/-! ## What the steps do to generations -/

section

variable {state next : BrokerState} {event : BrokerEvent}

theorem mem_foldl_put {κ : Type} {ρ : Type} {key : ρ → κ} [DecidableEq κ] {rows : List ρ}
    {table : Table key} {row : ρ} (there : row ∈ (rows.foldl Table.put table).rows) :
    row ∈ table.rows ∨ row ∈ rows := by
  induction rows generalizing table with
  | nil => exact Or.inl there
  | cons first rest ih =>
    obtain before | listed := ih there
    · obtain ⟨before, _⟩ | rfl := Table.mem_put.1 before
      · exact Or.inl before
      · exact Or.inr (List.mem_cons_self ..)
    · exact Or.inr (List.mem_cons_of_mem _ listed)

/-- Where a dormant route comes from that a disconnect leaves. -/
theorem disconnect_dormant {order : MapOrder state} {connectionId : String} {value : DormantRoute}
    (there : value ∈ (state.disconnect now order deviceId connectionId).dormant.rows) :
    value ∈ state.dormant.rows ∨
      (value.route ∈ state.sessions.rows ∧ value.route.deviceId = deviceId ∧
        dormantOf now order.projects deviceId value.route = some value ∧
        ∀ row ∈ (state.disconnect now order deviceId connectionId).sessions.rows,
          row.deviceId ≠ deviceId) := by
  simp only [BrokerState.disconnect] at there ⊢
  split at there
  · next current =>
    rw [if_pos current]
    obtain before | listed := mem_foldl_put there
    · exact Or.inl before
    · obtain ⟨route, member, kept⟩ := List.mem_filterMap.1 listed
      obtain ⟨same, _⟩ := dormantOf_some kept
      subst same
      obtain ⟨walked, device⟩ := List.mem_filter.1 member
      refine Or.inr ⟨order.routes_perm.mem_iff.1 walked, by simpa using device, kept, ?_⟩
      intro row left
      simpa using (List.mem_filter.1 left).2
  · exact Or.inl there

theorem attach_dormant {identity : BridgeIdentity} {order : MapOrder state}
    {value : DormantRoute} (there : value ∈ (attach now identity state order).dormant.rows) :
    value ∈ state.dormant.rows ∨
      (value.route ∈ state.sessions.rows ∧ value.route.deviceId = identity.deviceId ∧
        dormantOf now order.projects identity.deviceId value.route = some value ∧
        ∀ row ∈ (attach now identity state order).sessions.rows,
          row.deviceId ≠ identity.deviceId) := by
  simp only [attach] at there ⊢
  cases found : state.devices.find identity.deviceId with
  | none =>
    simp only [found] at there
    exact Or.inl there
  | some previous =>
    simp only [found] at there
    exact disconnect_dormant there

/-- Where routes come from, and which generations they have. -/
structure Sources (state next : BrokerState) : Prop where
  sessions : ∀ row ∈ next.sessions.rows, (∃ old ∈ state.sessions.rows, Extends row old) ∨
    (state.generation row.deviceId row.threadId < row.generation ∧
      next.generation row.deviceId row.threadId = row.generation)
  dormant : ∀ value ∈ next.dormant.rows,
    (∃ old ∈ state.dormant.rows, Extends value.route old.route) ∨
      (value.route ∈ state.sessions.rows ∧
        ∀ row ∈ next.sessions.rows, row.deviceId ≠ value.route.deviceId)
  generations : ∀ deviceId threadId,
    state.generation deviceId threadId ≤ next.generation deviceId threadId

theorem NoNewRoutes.sources (same : NoNewRoutes state next) : Sources state next := by
  refine ⟨fun row there => Or.inl (same.sessions row there), ?_, ?_⟩
  · intro value there
    obtain ⟨old, before, extends_, _⟩ := same.dormant value there
    exact Or.inl ⟨old, before, extends_⟩
  · intro deviceId threadId
    simp only [BrokerState.generation, same.generations]
    exact Nat.le_refl _

/-- A section that makes a route. -/
theorem sources_made {route : SessionRoute}
    (above : state.generation route.deviceId route.threadId < route.generation)
    (sessions : next.sessions = state.sessions.put route)
    (dormant : ∀ value ∈ next.dormant.rows, value ∈ state.dormant.rows)
    (generations : next.generations =
      state.generations.put ⟨route.deviceId, route.threadId, route.generation⟩) :
    Sources state next := by
  refine ⟨?_, ?_, ?_⟩
  · rw [sessions]
    intro row there
    obtain ⟨before, _⟩ | rfl := Table.mem_put.1 there
    · exact Or.inl ⟨row, before, extends_self row⟩
    · refine Or.inr ⟨above, ?_⟩
      rw [generation_put generations]
      exact if_pos rfl
  · exact fun value there => Or.inl ⟨value, dormant value there, extends_self _⟩
  · intro deviceId threadId
    rw [generation_put generations]
    split
    · next key =>
      obtain ⟨device, thread⟩ := Prod.mk.inj key
      simp only at device thread
      rw [← device, ← thread]
      exact above.le
    · exact Nat.le_refl _

theorem RouteMove.sources (move : RouteMove state event next) : Sources state next := by
  cases move with
  | attached order =>
    obtain ⟨sessions, generations⟩ := @attach_sessions state _ _ order
    refine ⟨fun row there => Or.inl ⟨row, sessions row there, extends_self row⟩, ?_, ?_⟩
    · intro value there
      obtain before | ⟨session, device, _, others⟩ := attach_dormant there
      · exact Or.inl ⟨value, before, extends_self _⟩
      · exact Or.inr ⟨session, fun row left => device ▸ others row left⟩
    · intro deviceId threadId
      simp only [BrokerState.generation, generations]
      exact Nat.le_refl _
  | @detached _ identity order =>
    obtain ⟨sessions, generations⟩ :=
      @disconnect_sessions state _ order identity.deviceId identity.connectionId
    refine ⟨fun row there => Or.inl ⟨row, sessions row there, extends_self row⟩, ?_, ?_⟩
    · intro value there
      obtain before | ⟨session, device, _, others⟩ := disconnect_dormant there
      · exact Or.inl ⟨value, before, extends_self _⟩
      · exact Or.inr ⟨session, fun row left => device ▸ others row left⟩
    · intro deviceId threadId
      simp only [BrokerState.generation, detach, generations]
      exact Nat.le_refl _
  | registered ran => exact (upsert_noNew ran).sources
  | resumed ran =>
    obtain ⟨_, _, _, _, _, _, _, rfl, rfl⟩ := resumeProject_some ran
    refine sources_made ?_ rfl ?_ rfl
    · simp only [resumedRoute]
      omega
    · exact fun value there => List.mem_of_mem_filter (Table.mem_remove.1 there).1
  | selected ran =>
    obtain ⟨entry, _, _, _, rfl, rfl⟩ := prepareProjectRoute_some ran
    exact sources_made (Nat.lt_succ_self _) rfl (fun _ there => there) rfl
  | selectedDevice ran =>
    obtain ⟨rfl, rfl⟩ := prepareDeviceRoute_ok ran
    exact sources_made (Nat.lt_succ_self _) rfl (fun _ there => there) rfl
  | dropped _ _ _ dropped => exact dropped.noNewRoutes.sources

/-- Dormant routes are older than the session routes of their device and thread. -/
structure Numbered (state : BrokerState) : Prop where
  sessions : ∀ row ∈ state.sessions.rows,
    row.generation ≤ state.generation row.deviceId row.threadId
  dormant : ∀ value ∈ state.dormant.rows,
    value.route.generation ≤ state.generation value.route.deviceId value.route.threadId
  apart : ∀ value ∈ state.dormant.rows, ∀ row ∈ state.sessions.rows,
    row.deviceId = value.route.deviceId → row.threadId = value.route.threadId →
      value.route.generation < row.generation

theorem Numbered.step (numbered : Numbered state) (sources : Sources state next) :
    Numbered next := by
  constructor
  · intro row there
    obtain ⟨old, before, extends_⟩ | ⟨_, latest⟩ := sources.sessions row there
    · obtain ⟨_, device, thread, _, generation⟩ := extends_.same
      have more := sources.generations old.deviceId old.threadId
      have less := numbered.sessions old before
      rw [device, thread, generation]
      omega
    · exact latest.ge
  · intro value there
    obtain ⟨old, before, extends_⟩ | ⟨session, _⟩ := sources.dormant value there
    · obtain ⟨_, device, thread, _, generation⟩ := extends_.same
      have more := sources.generations old.route.deviceId old.route.threadId
      have less := numbered.dormant old before
      rw [device, thread, generation]
      omega
    · have more := sources.generations value.route.deviceId value.route.threadId
      have less := numbered.sessions _ session
      omega
  · intro value kept row there device thread
    obtain ⟨old, before, extends_⟩ | ⟨_, others⟩ := sources.dormant value kept
    · obtain ⟨_, device₁, thread₁, _, generation₁⟩ := extends_.same
      obtain ⟨route, live, extends₂⟩ | ⟨above, _⟩ := sources.sessions row there
      · obtain ⟨_, device₂, thread₂, _, generation₂⟩ := extends₂.same
        rw [generation₁, generation₂]
        exact numbered.apart old before route live
          (device₂.symm.trans (device.trans device₁)) (thread₂.symm.trans (thread.trans thread₁))
      · have less := numbered.dormant old before
        rw [device, thread, device₁, thread₁] at above
        omega
    · exact absurd device (others row there)

/-- Everything of a device and a thread is at least as new as a generation. -/
structure NotBefore (deviceId threadId : String) (generation : Nat) (state : BrokerState) :
    Prop where
  counter : generation ≤ state.generation deviceId threadId
  sessions : ∀ row ∈ state.sessions.rows, row.deviceId = deviceId → row.threadId = threadId →
    generation < row.generation
  dormant : ∀ value ∈ state.dormant.rows, value.route.deviceId = deviceId →
    value.route.threadId = threadId → generation ≤ value.route.generation

theorem NotBefore.step {deviceId threadId : String} {generation : Nat}
    (known : NotBefore deviceId threadId generation state) (sources : Sources state next) :
    NotBefore deviceId threadId generation next := by
  have counter := known.counter
  constructor
  · have more := sources.generations deviceId threadId
    omega
  · intro row there device thread
    obtain ⟨old, before, extends_⟩ | ⟨above, _⟩ := sources.sessions row there
    · obtain ⟨_, device₁, thread₁, _, generation₁⟩ := extends_.same
      rw [generation₁]
      exact known.sessions old before (device₁.symm.trans device) (thread₁.symm.trans thread)
    · rw [device, thread] at above
      omega
  · intro value there device thread
    obtain ⟨old, before, extends_⟩ | ⟨session, _⟩ := sources.dormant value there
    · obtain ⟨_, device₁, thread₁, _, generation₁⟩ := extends_.same
      rw [generation₁]
      exact known.dormant old before (device₁.symm.trans device) (thread₁.symm.trans thread)
    · exact (known.sessions _ session device thread).le

end

theorem run_numbered {events : List BrokerEvent} {broker : BridgeBroker}
    (run : BrokerRun .empty events broker) : Numbered broker.state := by
  refine run.preserves (fun broker => Numbered broker.state) ?_ ⟨?_, ?_, ?_⟩
  · exact fun _ _ _ step numbered => numbered.step (step_routes step).sources
  · intro row there
    cases there
  · intro value there
    cases there
  · intro value there
    cases there

end CodexRemote.Verified.Broker

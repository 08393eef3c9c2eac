import CodexRemote.Verified.Broker.Correlation
import CodexRemote.Verified.Broker.Reconnect

/-! # The session that a reconnect brings back

A sweep keeps the newest session of each thread just when its walk ends with it; a dormant
route that is resumed supersedes nothing just when its thread has no session meanwhile.
-/

namespace CodexRemote.Verified.Broker

open Foundations McpServer.Broker
open RemoteAgent (DateTime GatewayCommand BridgeResult)

/-- The walk's last route that can be kept is the one that stays. -/
theorem dormant_last (now : DateTime) (deviceId threadId : String) (routes : List SessionRoute)
    (projects : List OwnedProject) :
    (((routes.filter fun route => route.deviceId = deviceId).filterMap
      (dormantOf now projects deviceId)).filter fun value =>
        value.key = (deviceId, threadId)).getLast? =
      (keepable now deviceId threadId (routes, projects)).getLast?.bind
        (dormantOf now projects deviceId) := by
  induction routes using List.reverseRecOn with
  | nil => rfl
  | append_singleton routes route ih =>
    simp only [keepable] at ih ⊢
    rw [List.filter_append, List.filterMap_append, List.filter_append, List.filter_append]
    -- the last route is passed by on both sides, or is the one that stays on both
    by_cases own : route.deviceId = deviceId ∧ route.threadId = threadId ∧
        (dormantOf now projects deviceId route).isSome
    · obtain ⟨device, thread, some⟩ := own
      obtain ⟨value, kept⟩ := Option.isSome_iff_exists.1 some
      obtain ⟨rfl, _⟩ := dormantOf_some kept
      simp [device, thread, kept, DormantRoute.key]
    · have skipped : (((([route] : List SessionRoute).filter fun route =>
          route.deviceId = deviceId).filterMap (dormantOf now projects deviceId)).filter
            fun value => value.key = (deviceId, threadId)) = [] := by
        rw [List.filter_eq_nil_iff]
        intro value listed
        obtain ⟨same, there, kept⟩ := List.mem_filterMap.1 listed
        obtain ⟨rfl, _⟩ := dormantOf_some kept
        obtain ⟨single, device⟩ := List.mem_filter.1 there
        cases List.mem_singleton.1 single
        intro key
        obtain ⟨_, thread⟩ := Prod.mk.inj (of_decide_eq_true key)
        exact own ⟨of_decide_eq_true device, thread, by simp [kept]⟩
      rw [skipped, List.append_nil, ih, List.filter_cons_of_neg (by simpa using own),
        List.filter_nil, List.append_nil]

/-- What a sweep leaves of a device. -/
structure Swept (now : DateTime) (deviceId : String) (walk : List SessionRoute × List OwnedProject)
    (state next : BrokerState) : Prop where
  walked : walk.1.Perm state.sessions.rows
  dormant : ∀ threadId, next.dormant.find (deviceId, threadId) =
    ((keepable now deviceId threadId walk).getLast?.bind (dormantOf now walk.2 deviceId)).or
      (state.dormant.find (deviceId, threadId))
  generations : next.generations = state.generations
  sessions : ∀ row ∈ next.sessions.rows, row.deviceId ≠ deviceId

section

variable {state next : BrokerState} {event : BrokerEvent} {now : DateTime} {deviceId : String}

theorem disconnect_swept {order : MapOrder state} {connectionId : String}
    (current : (state.devices.find deviceId).any fun value => value.connectionId = connectionId) :
    Swept now deviceId (order.routes, order.projects) state
      (state.disconnect now order deviceId connectionId) := by
  simp only [BrokerState.disconnect, if_pos current]
  refine ⟨order.routes_perm, ?_, rfl, ?_⟩
  · intro threadId
    rw [Table.find_foldl_put, dormant_last]
  · intro row left
    simpa using (List.mem_filter.1 left).2

/-- An event that stands for a disconnect sweeps the device. -/
theorem RouteMove.swept (move : RouteMove state event next)
    (swept : event.swept? state = some (now, deviceId)) :
    Swept now deviceId event.walk state next := by
  cases move with
  | @attached _ identity order =>
    simp only [BrokerEvent.swept?, Option.map_eq_some_iff] at swept
    obtain ⟨previous, found, same⟩ := swept
    cases same
    have left := @disconnect_swept state now identity.deviceId order previous.connectionId
      (by simp [found])
    simp only [attach, found]
    exact ⟨left.walked, left.dormant, left.generations, left.sessions⟩
  | @detached _ identity order =>
    simp only [BrokerEvent.swept?, Option.map_eq_some_iff, Option.filter_eq_some_iff] at swept
    obtain ⟨value, ⟨found, own⟩, same⟩ := swept
    cases same
    exact disconnect_swept (by simpa [found] using own)
  | registered | resumed | selected | selectedDevice => cases swept
  | dropped _ _ connected =>
    cases event with
    | attached at_ identity routes projects => exact absurd rfl (connected _ _ _ _).1
    | detached at_ identity routes projects => exact absurd rfl (connected _ _ _ _).2
    | _ => cases swept

/-- The sweep keeps the newest route of each thread just when its walk ends with it. -/
theorem Swept.newest {walk : List SessionRoute × List OwnedProject} (numbered : Numbered state)
    (swept : Swept now deviceId walk state next) :
    NewestKept now deviceId state next ↔ NewestLast now deviceId walk state := by
  refine forall_congr' fun threadId => ?_
  rw [swept.dormant]
  cases last : (keepable now deviceId threadId walk).getLast? with
  | none =>
    simp only [Option.bind_none, Option.none_or]
    constructor
    · intro newest
      by_cases empty : liveRoutes now deviceId threadId state = []
      · exact Or.inl empty
      · right
        cases found : state.dormant.find (deviceId, threadId) with
        | none => rfl
        | some value =>
          -- an older dormant route is not one of the sessions
          obtain ⟨live, _⟩ := newest value found empty
          have session := (mem_liveRoutes.1 live).1
          have older := numbered.apart value (Table.mem_of_find found) _ session rfl rfl
          omega
    · rintro (empty | gone) value found live
      · exact absurd empty live
      · rw [gone] at found
        cases found
  | some route =>
    obtain ⟨walked, own⟩ := List.mem_filter.1 (List.mem_of_getLast? last)
    obtain ⟨device, thread, some⟩ := of_decide_eq_true own
    obtain ⟨value, kept⟩ := Option.isSome_iff_exists.1 some
    obtain ⟨rfl, unexpired, _⟩ := dormantOf_some kept
    have live : value.route ∈ liveRoutes now deviceId threadId state :=
      mem_liveRoutes.2 ⟨swept.walked.mem_iff.1 walked, device, thread, unexpired⟩
    simp only [Option.bind_some, kept, Option.some_or, Option.some.injEq]
    constructor
    · exact fun newest => (newest value rfl (List.ne_nil_of_mem live)).2
    · rintro newest _ rfl _
      exact ⟨live, newest⟩

end

def earlierRoute : SessionRoute :=
  ⟨"chat-1", "subject", "device", "thread", "computer-1", 1, 500, .project⟩

/-- A chat has selected the project. -/
def oneChat : BrokerState :=
  (prepareProjectRoute 102 "computer-1" "chat-1" "subject" "scope"
    (upsert 101 exampleIdentity exampleProject
      (attach 100 exampleIdentity .empty (.inserted _))).2).2

def oneChatEvents : List BrokerEvent :=
  [.attached 100 exampleIdentity [] [],
    .registered 101 exampleIdentity exampleProject (.ok ()),
    .began (.selectProject "chat-1" "subject" "scope"),
    .selected 102 exampleProject earlierRoute "request-1", .abandoned]

theorem oneChat_run : BrokerRun .empty oneChatEvents ⟨oneChat, none, [], []⟩ :=
  .cons (.attached (.inserted _)) (.cons (.registered rfl) (.cons (.began rfl trivial)
    (.cons (@BrokerStep.selected _ _ 200 "computer-1" "request-1" _ _ _ _ _ _ rfl rfl)
      (.cons .selectionAbandoned (.nil _)))))

/-- The device comes back and registers the project again. -/
def reconnected (state : BrokerState) : BrokerState :=
  (upsert 112 ⟨"device", "connection-2"⟩ exampleProject
    (attach 111 ⟨"device", "connection-2"⟩ state (.inserted _))).2

end CodexRemote.Verified.Broker

import CodexRemote.Foundations.Queues
import CodexRemote.Verified.Broker.Routes

/-! # The generations of activation commands

A selection takes its generation and sends its command while it holds the selection lock, so
no other one can pass it.
-/

namespace CodexRemote.Verified.Broker

open Foundations McpServer.Broker
open RemoteAgent (DateTime GatewayCommand BridgeResult)

/-- The thread and the generation that a command activates. -/
def activates? : GatewayCommand → Option (String × Nat)
  | .projectSession header _ generation => some (header.threadId, generation)
  | .deviceSession header _ generation _ _ => some (header.threadId, generation)
  | _ => none

structure Activation where
  deviceId : String
  threadId : String
  generation : Nat

def BrokerEvent.activated? : BrokerEvent → Option Activation
  | .sent command connection =>
    (activates? command).map fun (threadId, generation) =>
      ⟨connection.deviceId, threadId, generation⟩
  | _ => none

/-- The activations in the order in which their commands were sent. -/
def activations (past : List BrokerEvent) : List Activation := past.filterMap (·.activated?)

def Increasing (sent : List Activation) : Prop :=
  sent.Pairwise fun earlier later => earlier.deviceId = later.deviceId →
    earlier.threadId = later.threadId → earlier.generation < later.generation

/-- The generation of a route is the latest, and no command has been sent for it. -/
structure Newest (past : List BrokerEvent) (state : BrokerState) (route : SessionRoute) : Prop where
  generation : state.generation route.deviceId route.threadId = route.generation
  unsent : ∀ sent ∈ activations past, sent.deviceId = route.deviceId →
    sent.threadId = route.threadId → sent.generation < route.generation

def HolderStage (past : List BrokerEvent) (state : BrokerState) (route : SessionRoute) :
    Stage → Prop
  | .dispatching => Newest past state route ∧
      ∀ row ∈ state.sessions.rows, row.session = route.session → row.deviceId = route.deviceId
  | .sending connection => Newest past state route ∧ connection.deviceId = route.deviceId
  | _ => True

structure HolderKnown (past : List BrokerEvent) (state : BrokerState) (flight : InFlight) : Prop where
  command : activates? flight.command = some (flight.route.threadId, flight.route.generation)
  stage : HolderStage past state flight.route flight.stage

structure Generated (past : List BrokerEvent) (broker : BridgeBroker) : Prop where
  increasing : Increasing (activations past)
  below : ∀ sent ∈ activations past,
    sent.generation ≤ broker.state.generation sent.deviceId sent.threadId
  calls : ∀ flight ∈ broker.calls, activates? flight.command = none
  holder : ∀ call flight, broker.selection = some (.activating call flight) →
    HolderKnown past broker.state flight

theorem activations_snoc {past : List BrokerEvent} {event : BrokerEvent} :
    activations (past ++ [event]) = activations past ++ event.activated?.toList :=
  filterMap_snoc _ _ _

/-- What a step that makes no route does to the sessions and generations. -/
theorem RouteMove.plain {state next : BrokerState} {event : BrokerEvent}
    (move : RouteMove state event next) (plain : event.made? = none) :
    (∀ row ∈ next.sessions.rows, ∃ old ∈ state.sessions.rows, Extends row old) ∧
      next.generations = state.generations := by
  have kept : (∀ row ∈ next.sessions.rows, row ∈ state.sessions.rows) →
      ∀ row ∈ next.sessions.rows, ∃ old ∈ state.sessions.rows, Extends row old :=
    fun all row there => ⟨row, all row there, extends_self row⟩
  cases move with
  | attached order => exact ⟨kept attach_sessions.1, attach_sessions.2⟩
  | detached order => exact ⟨kept disconnect_sessions.1, disconnect_sessions.2⟩
  | registered ran => exact ⟨(upsert_noNew ran).sessions, (upsert_noNew ran).generations⟩
  | resumed ran => cases plain
  | selected ran => cases plain
  | selectedDevice ran => cases plain
  | dropped _ _ _ dropped => exact ⟨kept dropped.sessions, dropped.generations⟩

section

variable {past : List BrokerEvent} {event : BrokerEvent} {broker next : BridgeBroker}

/-- A stage survives steps that send nothing and make no route. -/
theorem HolderStage.grow {state after : BrokerState} {route : SessionRoute} {stage : Stage}
    (known : HolderStage past state route stage) (silent : event.activated? = none)
    (sessions : ∀ row ∈ after.sessions.rows, ∃ old ∈ state.sessions.rows, Extends row old)
    (generations : after.generations = state.generations) :
    HolderStage (past ++ [event]) after route stage := by
  have newest : Newest past state route → Newest (past ++ [event]) after route := by
    intro newest
    refine ⟨?_, ?_⟩
    · simp only [BrokerState.generation, generations]
      exact newest.generation
    · rw [activations_snoc, silent, Option.toList_none, List.append_nil]
      exact newest.unsent
  cases stage with
  | dispatching =>
    refine ⟨newest known.1, ?_⟩
    intro row there same
    obtain ⟨old, before, extends_⟩ := sessions row there
    obtain ⟨session, device, _⟩ := extends_.same
    rw [device]
    exact known.2 old before (session.symm.trans same)
  | sending connection => exact ⟨newest known.1, known.2⟩
  | awaiting connection => trivial
  | withdrawing error => trivial

theorem Generated.still (known : Generated past broker) (silent : event.activated? = none)
    (sessions : ∀ row ∈ next.state.sessions.rows,
      ∃ old ∈ broker.state.sessions.rows, Extends row old)
    (generations : next.state.generations = broker.state.generations)
    (calls : ∀ flight ∈ next.calls, flight ∈ broker.calls ∨ activates? flight.command = none)
    (holder : ∀ call flight, next.selection = some (.activating call flight) →
      broker.selection = some (.activating call flight)) : Generated (past ++ [event]) next := by
  have same : activations (past ++ [event]) = activations past := by
    rw [activations_snoc, silent, Option.toList_none, List.append_nil]
  constructor
  · rw [same]
    exact known.increasing
  · rw [same]
    simp only [BrokerState.generation, generations]
    exact known.below
  · intro flight there
    exact (calls flight there).elim (known.calls flight) id
  · intro call flight held
    have before := known.holder call flight (holder call flight held)
    exact ⟨before.command, before.stage.grow silent sessions generations⟩

theorem generation_put {state after : BrokerState} {entry : GenerationEntry}
    (put : after.generations = state.generations.put entry) (deviceId threadId : String) :
    after.generation deviceId threadId =
      if entry.key = (deviceId, threadId) then entry.generation
      else state.generation deviceId threadId := by
  simp only [BrokerState.generation, put, Table.find_put]
  split <;> rfl

/-- A section that makes a route hands the holder a generation above all before. -/
theorem Generated.made (known : Generated past broker) {route : SessionRoute} {call : SelectionCall}
    {requestId : String} {deadlineAt : DateTime} (silent : event.activated? = none)
    (above : broker.state.generation route.deviceId route.threadId < route.generation)
    (generations : next.state.generations =
      broker.state.generations.put ⟨route.deviceId, route.threadId, route.generation⟩)
    (sessions : next.state.sessions = broker.state.sessions.put route)
    (calls : next.calls = broker.calls)
    (selection : next.selection = some (.activating call
      ⟨route, activation requestId deadlineAt route, .dispatching⟩)) :
    Generated (past ++ [event]) next := by
  have same : activations (past ++ [event]) = activations past := by
    rw [activations_snoc, silent, Option.toList_none, List.append_nil]
  have newest : Newest (past ++ [event]) next.state route := by
    refine ⟨?_, ?_⟩
    · rw [generation_put generations]
      exact if_pos rfl
    · rw [same]
      intro sent there device thread
      have below := known.below sent there
      rw [device, thread] at below
      omega
  constructor
  · rw [same]
    exact known.increasing
  · rw [same]
    intro sent there
    have below := known.below sent there
    rw [generation_put generations]
    split
    · next key =>
      obtain ⟨device, thread⟩ := Prod.mk.inj key
      simp only at device thread
      rw [device, thread] at above
      simp only
      omega
    · exact below
  · rw [calls]
    exact known.calls
  · intro other flight held
    rw [selection] at held
    cases held
    refine ⟨?_, newest, ?_⟩
    · simp only [activation]
      cases route.target <;> rfl
    · rw [sessions]
      intro row there session
      obtain ⟨_, apart⟩ | rfl := Table.mem_put.1 there
      · exact absurd session apart
      · rfl

/-- The holder's dispatch moves on; its command is sent once, above all before. -/
theorem Generated.holderFlew (known : Generated past broker) {call : SelectionCall}
    {flight after : InFlight} (held : broker.selection = some (.activating call flight))
    (flew : FlightStep broker.answers broker.state flight event next.state (.inl after))
    (calls : next.calls = broker.calls)
    (selection : next.selection = some (.activating call after)) :
    Generated (past ++ [event]) next := by
  obtain ⟨dropped, _⟩ := flight_dropped flew
  have before := known.holder call flight held
  have generations := dropped.generations
  have quiet : ∀ after : InFlight, event.activated? = none →
      HolderKnown (past ++ [event]) next.state after →
      next.selection = some (.activating call after) → Generated (past ++ [event]) next := by
    intro after silent holder chosen
    have same : activations (past ++ [event]) = activations past := by
      rw [activations_snoc, silent, Option.toList_none, List.append_nil]
    constructor
    · rw [same]
      exact known.increasing
    · rw [same]
      simp only [BrokerState.generation, generations]
      exact known.below
    · rw [calls]
      exact known.calls
    · intro other flight there
      rw [chosen] at there
      cases there
      exact holder
  have newest : event.activated? = none → Newest past broker.state flight.route →
      Newest (past ++ [event]) next.state flight.route := by
    intro silent newest
    refine ⟨?_, ?_⟩
    · simp only [BrokerState.generation, generations]
      exact newest.generation
    · rw [activations_snoc, silent, Option.toList_none, List.append_nil]
      exact newest.unsent
  generalize reached : next.state = state at flew
  cases flew with
  | @queue _ route command connection ran =>
    obtain ⟨⟨current, found, _, connected⟩, _⟩ := enqueuePending_ok ran
    obtain ⟨latest, sessions⟩ := before.stage
    refine quiet _ rfl ?_ selection
    refine ⟨before.command, newest rfl latest, ?_⟩
    have device := sessions current (Table.mem_of_find found) (Table.find_key found)
    exact (Table.find_key connected).trans device
  | @send route command connection =>
    obtain ⟨latest, device⟩ := before.stage
    have named : (BrokerEvent.sent command connection).activated? =
        some ⟨route.deviceId, route.threadId, route.generation⟩ := by
      have activates : activates? command = some (route.threadId, route.generation) :=
        before.command
      have place : connection.deviceId = route.deviceId := device
      simp only [BrokerEvent.activated?, activates, Option.map_some, place]
    constructor
    · rw [activations_snoc, named, Option.toList_some]
      refine List.pairwise_append.2 ⟨known.increasing, List.pairwise_singleton _ _, ?_⟩
      intro earlier there later single
      rw [List.mem_singleton] at single
      subst single
      exact latest.unsent earlier there
    · rw [activations_snoc, named, Option.toList_some]
      intro sent there
      simp only [BrokerState.generation, generations]
      obtain before_ | new := List.mem_append.1 there
      · exact known.below sent before_
      · rw [List.mem_singleton] at new
        subst new
        exact Nat.le_of_eq latest.generation.symm
    · rw [calls]
      exact known.calls
    · intro other flight there
      rw [selection] at there
      cases there
      exact ⟨before.command, trivial⟩
  | unsent | cancelUnsent | cancel | timeout =>
    refine quiet _ rfl ?_ selection
    exact ⟨before.command, trivial⟩

theorem Generated.step (known : Generated past broker) (step : BrokerStep broker event next) :
    Generated (past ++ [event]) next := by
  have routes := step_routes step
  cases step with
  | attached order | detached order | registered ran | completed ran | unrouted ran =>
    obtain ⟨sessions, generations⟩ := routes.plain rfl
    exact known.still rfl sessions generations (fun _ there => Or.inl there) fun _ _ held => held
  | began free valid | left held ran | redirected held ran device | closed held
  | selectionAbandoned =>
    obtain ⟨sessions, generations⟩ := routes.plain rfl
    refine known.still rfl sessions generations (fun _ there => Or.inl there) ?_
    intro _ _ same
    cases same
  | @routed _ deadlineAt _ _ requestId operation route _ ran =>
    obtain ⟨sessions, generations⟩ := routes.plain rfl
    refine known.still rfl sessions generations ?_ fun _ _ held => held
    intro flight there
    obtain rfl | before := List.mem_cons.1 there
    · right
      cases operation <;> rfl
    · exact Or.inl before
  | resumed held ran =>
    obtain ⟨_, _, _, _, _, _, _, rfl, rfl⟩ := resumeProject_some ran
    refine known.made rfl ?_ rfl rfl rfl rfl
    simp only [resumedRoute]
    omega
  | selected held ran =>
    obtain ⟨entry, _, _, _, rfl, rfl⟩ := prepareProjectRoute_some ran
    exact known.made rfl (Nat.lt_succ_self _) rfl rfl rfl rfl
  | selectedDevice held ran =>
    obtain ⟨rfl, rfl⟩ := prepareDeviceRoute_ok ran
    exact known.made rfl (Nat.lt_succ_self _) rfl rfl rfl rfl
  | selectionFlew held flew => exact known.holderFlew held flew rfl rfl
  | selectionReturned held flew =>
    obtain ⟨dropped, made, _⟩ := flight_dropped flew
    obtain ⟨sessions, generations⟩ := routes.plain made
    refine known.still ?_ sessions generations (fun _ there => Or.inl there) ?_
    · cases flew <;> rfl
    · intro _ _ same
      cases same
  | @callFlew front back flight after _ _ listed flew =>
    obtain ⟨dropped, made, _⟩ := flight_dropped flew
    obtain ⟨sessions, generations⟩ := routes.plain made
    have own := known.calls flight (listed ▸ List.mem_append_right _ (List.mem_cons_self ..))
    have command : after.command = flight.command ∧ event.activated? = none := by
      cases flew <;> refine ⟨rfl, ?_⟩ <;> first | rfl | simp [BrokerEvent.activated?, own]
    refine known.still command.2 sessions generations ?_ fun _ _ held => held
    intro other there
    obtain rfl | rest := List.mem_cons.1 (List.perm_middle.mem_iff.1 there)
    · exact Or.inr (by rw [command.1]; exact own)
    · refine Or.inl (listed ▸ ?_)
      exact List.perm_middle.mem_iff.2 (List.mem_cons_of_mem _ rest)
  | callReturned listed flew =>
    obtain ⟨dropped, made, _⟩ := flight_dropped flew
    obtain ⟨sessions, generations⟩ := routes.plain made
    refine known.still ?_ sessions generations ?_ fun _ _ held => held
    · cases flew <;> rfl
    · exact fun other there =>
        Or.inl (listed ▸ List.perm_middle.mem_iff.2 (List.mem_cons_of_mem _ there))
  | callAbandoned listed =>
    obtain ⟨sessions, generations⟩ := routes.plain rfl
    refine known.still rfl sessions generations ?_ fun _ _ held => held
    exact fun other there =>
      Or.inl (listed ▸ List.perm_middle.mem_iff.2 (List.mem_cons_of_mem _ there))

end

theorem empty_generated : Generated [] .empty := by
  refine ⟨.nil, ?_, ?_, ?_⟩
  · intro sent there
    cases there
  · intro flight there
    cases there
  · intro call flight held
    cases held

theorem run_generated {events : List BrokerEvent} {broker : BridgeBroker}
    (run : BrokerRun .empty events broker) : Generated events broker :=
  run.records Generated (fun _ _ _ _ _ step known => known.step step) empty_generated

end CodexRemote.Verified.Broker

import CodexRemote.Verified.Broker.NewestSession
import CodexRemote.Verified.Dispatcher.StaleCommands

/-! # Both ends of the bridge

A device that takes the activation commands of the broker in the order in which they were sent
refuses none of them for what it holds.
-/

namespace CodexRemote.Verified.Bridge

open Foundations RemoteAgent Dispatcher
open Broker (activates? activations BrokerRun run_generated)

variable {fingerprint : GatewayCommand → String} {g : Nat} {seen : List (String × Nat)}
  {state next : DispatchState} {command : GatewayCommand} {outside : Outside} {event : CommandEvent}
  {project : ActiveProject} {threadId : String}

/-- Refused for the connection it came on, or for the session that is active -/
def refused : Answer → Bool
  | .session .staleCommand | .session .staleSession | .session .olderGeneration
  | .session .generationConflict | .session .modeConflict => true
  | _ => false

/-- The activations that a device has seen -/
def handled (events : List CommandEvent) : List (String × Nat) :=
  events.filterMap fun event => activates? event.command

/-- The sessions of a device all come from one connection and from what was seen on it. -/
structure Attached (g : Nat) (seen : List (String × Nat)) (state : DispatchState) : Prop where
  connection : state.connectionGeneration = some g
  sessions : ∀ threadId active, state.session threadId = some active →
    active.connectionGeneration = some g ∧ (threadId, active.sessionGeneration) ∈ seen

/-- What an activation brings is newer than what was seen for its thread. -/
def Newer (seen : List (String × Nat)) (command : GatewayCommand) : Prop :=
  ∀ threadId generation, activates? command = some (threadId, generation) →
    ∀ old, (threadId, old) ∈ seen → old < generation

theorem Attached.put (attached : Attached g seen state)
    (own : ∀ active, project.session = some active →
      active.connectionGeneration = some g ∧ (threadId, active.sessionGeneration) ∈ seen) :
    Attached g seen (state.put threadId project) := by
  refine ⟨attached.connection, fun other active there => ?_⟩
  by_cases same : other = threadId
  · subst same
    rw [session_put] at there
    exact own active there
  · rw [session_put_other _ _ same] at there
    exact attached.sessions other active there

theorem Attached.current (attached : Attached g seen state) :
    connectionCurrent state.connectionGeneration (some g) = true := by
  rw [attached.connection]
  simp [connectionCurrent]

theorem Attached.append (attached : Attached g seen state) (more : List (String × Nat)) :
    Attached g (seen ++ more) state :=
  ⟨attached.connection, fun threadId active there =>
    ⟨(attached.sessions threadId active there).1,
      List.mem_append_left _ (attached.sessions threadId active there).2⟩⟩

theorem Attached.begun {device : DispatchState} {closed : Except String Unit}
    (begun : device.beginConnection g closed = (.ok (), state)) : Attached g [] state := by
  simp only [DispatchState.beginConnection, beginConnection] at begun
  split at begun
  · cases begun
  · next current made =>
    split at made
    · cases made
    · cases made
      cases begun
      refine ⟨rfl, fun threadId active there => ?_⟩
      simp only [DispatchState.session] at there
      cases bound : device.projects threadId <;> simp [bound] at there

/-! ## One command -/

theorem Attached.rebind (attached : Attached g seen state) :
    (∀ answer ∈ (state.rebind command outside).1, refused answer = false) ∧
      Attached g seen (state.rebind command outside).2 := by
  cases command with
  | deviceSession header _ _ _ expiresAt =>
    simp only [DispatchState.rebind]
    cases outside.opened with
    | error error => exact ⟨by rintro _ ⟨⟩; rfl, attached⟩
    | ok root =>
      -- a project that is bound anew has no session
      have unbound : Attached g seen (state.upsert header.threadId root expiresAt).2 :=
        attached.put (by simp)
      dsimp only
      split
      · exact ⟨by rintro _ ⟨⟩; rfl, unbound⟩
      · exact ⟨by simp, unbound⟩
  | _ => exact ⟨by rintro _ ⟨⟩, attached⟩

theorem activates_session {session : String} {generation : Nat} {mode : ComputerAccessMode}
    (activation : sessionActivation command = some (session, generation, mode)) :
    activates? command = some (command.threadId, generation) := by
  cases command <;> cases activation <;> rfl

theorem decide_newer {active : Option SessionActivation} {requested : SessionActivation}
    {engines : Except String Unit}
    (newer : ∀ a, active = some a → a.connectionGeneration = requested.connectionGeneration ∧
      a.sessionGeneration < requested.sessionGeneration) :
    decideActivation active requested engines = match engines with
      | .error message => .refused (.engine message)
      | .ok () => .install requested := by
  cases active with
  | none => rfl
  | some a =>
    obtain ⟨same, older⟩ := newer a rfl
    cases engines <;>
      simp only [decideActivation, same, ne_eq, not_true, if_false, Nat.not_lt.2 older.le,
        older.ne', decide_false, Bool.false_and, Bool.false_eq_true]

theorem Attached.activate (attached : Attached g seen state) {session : String} {generation : Nat}
    {mode : ComputerAccessMode} (bound : state.projects threadId = some project)
    (newer : ∀ old, (threadId, old) ∈ seen → old < generation) :
    refused (state.activate threadId project ⟨some g, generation, session, mode⟩ outside).1 =
        false ∧
      Attached g (seen ++ [(threadId, generation)])
        (state.activate threadId project ⟨some g, generation, session, mode⟩ outside).2 := by
  have decided := @decide_newer project.session ⟨some g, generation, session, mode⟩ outside.engines
    fun a active => by
      have own : state.session threadId = some a := by simp [DispatchState.session, bound, active]
      obtain ⟨same, there⟩ := attached.sessions threadId a own
      exact ⟨same, newer _ there⟩
  simp only [DispatchState.activate, attached.current, Bool.not_true, Bool.false_eq_true, if_false,
    decided]
  -- the broker's session is newer than what is installed, so only the engines can fail
  cases outside.engines with
  | error message => exact ⟨rfl, attached.append _⟩
  | ok =>
    have installed : Attached g (seen ++ [(threadId, generation)]) (state.put threadId
        { project with session := some ⟨some g, generation, session, mode⟩ }) :=
      (attached.append _).put fun active there => by
        cases there
        exact ⟨rfl, List.mem_append_right _ (List.mem_singleton_self _)⟩
    dsimp only
    split <;> exact ⟨rfl, installed⟩

theorem Attached.dispatch (attached : Attached g seen state) (newer : Newer seen command) :
    refused (state.dispatch fingerprint command (some g) outside).1 = false ∧
      Attached g (seen ++ (activates? command).toList)
        (state.dispatch fingerprint command (some g) outside).2 := by
  have still := attached.append (activates? command).toList
  simp only [DispatchState.dispatch]
  split
  · exact ⟨rfl, still⟩
  · next project bound =>
    have own : ∀ mutations, Attached g (seen ++ (activates? command).toList)
        (state.put command.threadId { project with mutations }) := fun mutations =>
      still.put fun active there => still.sessions _ active
        (by simpa [DispatchState.session, bound] using there)
    split
    · exact ⟨rfl, still⟩
    · split
      · exact ⟨rfl, still⟩
      · split
        · next session generation mode activation =>
          have activates := activates_session activation
          rw [activates]
          exact attached.activate bound (newer _ _ activates)
        · split
          · next stopped =>
            rw [attached.current] at stopped
            cases stopped
          · split
            · exact ⟨rfl, still⟩
            · split
              · -- a mutation touches what the project remembers, not its session
                simp only [DispatchState.mutate]
                split
                · exact ⟨rfl, still⟩
                · split
                  · exact ⟨rfl, still⟩
                  · split <;> exact ⟨rfl, own _⟩
              · exact ⟨rfl, still⟩

theorem Attached.step (attached : Attached g seen state) (carried : event.connection = some g)
    (newer : Newer seen event.command) (step : Dispatcher.Step fingerprint state event next) :
    refused event.answer = false ∧ Attached g (seen ++ (activates? event.command).toList) next := by
  obtain ⟨command, connection, outside, answer⟩ := event
  cases carried
  unfold Dispatcher.Step DispatchState.execute at step
  split at step
  · cases step
    exact ⟨rfl, attached.append _⟩
  · obtain ⟨fine, bound⟩ := @Attached.rebind _ _ _ command outside attached
    split at step
    · next rebound =>
      rw [rebound] at fine bound
      cases step
      exact ⟨fine _ rfl, bound.append _⟩
    · next rebound =>
      rw [rebound] at bound
      have dispatched := @Attached.dispatch fingerprint _ _ _ _ outside bound newer
      rw [step] at dispatched
      exact dispatched

/-! ## Runs of both ends -/

theorem Attached.run {events : List CommandEvent} (attached : Attached g seen state)
    (ran : Run (Dispatcher.Step fingerprint) state events next)
    (carried : ∀ event ∈ events, event.connection = some g)
    (increasing : (seen ++ handled events).Pairwise fun a b => a.1 = b.1 → a.2 < b.2) :
    (∀ event ∈ events, refused event.answer = false) ∧
      Attached g (seen ++ handled events) next := by
  induction ran generalizing seen with
  | nil => exact ⟨List.forall_mem_nil _, attached.append _⟩
  | @cons _ _ _ event events first _ ih =>
    have split_ : seen ++ handled (event :: events) =
        seen ++ (activates? event.command).toList ++ handled events := by
      rw [handled, List.filterMap_cons, List.append_assoc]
      cases activates? event.command <;> rfl
    -- what was seen stands before what is still to come
    have newer : Newer seen event.command := by
      intro threadId generation activates old there
      exact (List.pairwise_append.1 increasing).2.2 _ there (threadId, generation)
        (List.mem_filterMap.2 ⟨event, List.mem_cons_self .., activates⟩) rfl
    obtain ⟨fine, attached⟩ := attached.step (carried event (List.mem_cons_self ..)) newer first
    rw [split_] at increasing ⊢
    obtain ⟨rest, last⟩ := ih attached (fun e there => carried e (List.mem_cons_of_mem _ there))
      increasing
    refine ⟨fun e there => ?_, last⟩
    obtain rfl | later := List.mem_cons.1 there
    · exact fine
    · exact rest e later

/-- The activations that were sent to a device -/
def sentTo (deviceId : String) (sent : List Broker.BrokerEvent) : List (String × Nat) :=
  ((activations sent).filter (·.deviceId = deviceId)).map fun a => (a.threadId, a.generation)

/-- A device that has begun a connection and takes the activations sent to it in their order, some
of them perhaps lost, refuses none as stale or in conflict with another session, and whatever
session it has then was sent by the broker. -/
theorem activations_in_order_accepted {sent : List Broker.BrokerEvent}
    {broker : Broker.BridgeBroker} {deviceId : String} {device : DispatchState}
    {closed : Except String Unit} {events : List CommandEvent}
    (run : BrokerRun .empty sent broker)
    (begun : device.beginConnection g closed = (.ok (), state))
    (ran : Run (Dispatcher.Step fingerprint) state events next)
    (received : (handled events).Sublist (sentTo deviceId sent))
    (carried : ∀ event ∈ events, event.connection = some g) :
    (∀ event ∈ events, refused event.answer = false) ∧
      ∀ threadId active, next.session threadId = some active →
        (threadId, active.sessionGeneration) ∈ sentTo deviceId sent := by
  have ordered : (sentTo deviceId sent).Pairwise fun a b => a.1 = b.1 → a.2 < b.2 := by
    rw [sentTo, List.pairwise_map]
    -- the broker's generations increase for each pair of device and thread
    refine ((run_generated run).increasing.filter _).imp_of_mem fun {a b} one two less thread => ?_
    have left := (List.mem_filter.1 one).2
    have right := (List.mem_filter.1 two).2
    simp only [decide_eq_true_eq] at left right
    exact less (left.trans right.symm) thread
  obtain ⟨fine, last⟩ := (Attached.begun begun).run ran carried (ordered.sublist received)
  exact ⟨fine, fun threadId active there =>
    received.subset (last.sessions threadId active there).2⟩

/-! A thread is selected twice, and the device takes both sessions. -/

def secondRoute : McpServer.Broker.SessionRoute :=
  { Broker.exampleRoute with session := "chat-2", computerSessionId := "computer-2", generation := 2 }

def selectedTwice : List Broker.BrokerEvent :=
  Broker.exampleEvents ++ [.closed (.selectProject "chat" "subject" "scope") Broker.exampleRoute,
    .began (.selectProject "chat-2" "subject" "scope"),
    .selected 110 Broker.exampleProject secondRoute "request-2",
    .queued "request-2" secondRoute Broker.exampleIdentity,
    .sent (McpServer.Broker.activation "request-2" 200 secondRoute) Broker.exampleIdentity]

theorem selectedTwice_run : ∃ broker, BrokerRun .empty selectedTwice broker :=
  ⟨_, .cons (.attached (.inserted _)) (.cons (.registered rfl) (.cons (.began rfl trivial)
    (.cons (.selected rfl rfl) (.cons (.selectionFlew rfl (.queue rfl))
      (.cons (.selectionFlew rfl .send) (.cons (.completed rfl)
        (.cons (.selectionReturned rfl (.answer (List.mem_cons_self ..) rfl))
          (.cons (.closed rfl) (.cons (.began rfl trivial) (.cons (.selected rfl rfl)
            (.cons (.selectionFlew rfl (.queue rfl)) (.single (.selectionFlew rfl .send)))))))))))))⟩

/-- A device whose thread has a session of the connection before -/
def reconnecting : DispatchState where
  connectionGeneration := some 1
  projects id :=
    if id = "thread" then some ⟨"/work", 500, some ⟨some 1, 9, "computer-0", .project⟩, .empty⟩
    else none

def reconnected : DispatchState := (reconnecting.beginConnection 2 (.ok ())).2

def taken (requestId : String) (route : McpServer.Broker.SessionRoute) : CommandEvent :=
  ⟨McpServer.Broker.activation requestId 200 route, some 2, calm 110, .activated⟩

def firstTaken : DispatchState :=
  (reconnected.execute (fun _ => "") (taken "request-1" Broker.exampleRoute).command (some 2)
    (calm 110)).2

def bothTaken : DispatchState :=
  (firstTaken.execute (fun _ => "") (taken "request-2" secondRoute).command (some 2)
    (calm 110)).2

theorem both_activations_taken :
    Run (Dispatcher.Step fun _ => "") reconnected
      [taken "request-1" Broker.exampleRoute, taken "request-2" secondRoute] bothTaken ∧
    (bothTaken.session "thread").map (·.sessionGeneration) = some 2 ∧
    (∀ event ∈ [taken "request-1" Broker.exampleRoute, taken "request-2" secondRoute],
      refused event.answer = false) ∧
    ∀ threadId active, bothTaken.session threadId = some active →
      (threadId, active.sessionGeneration) ∈ [("thread", 1), ("thread", 2)] := by
  obtain ⟨broker, run⟩ := selectedTwice_run
  have ran : Run (Dispatcher.Step fun _ => "") reconnected
      [taken "request-1" Broker.exampleRoute, taken "request-2" secondRoute] bothTaken :=
    .cons (Prod.ext rfl rfl : Dispatcher.Step _ reconnected _ firstTaken)
      (.single (Prod.ext rfl rfl))
  have received : (handled [taken "request-1" Broker.exampleRoute,
      taken "request-2" secondRoute]).Sublist (sentTo "device" selectedTwice) :=
    .refl [("thread", 1), ("thread", 2)]
  have carried : ∀ event ∈ [taken "request-1" Broker.exampleRoute, taken "request-2" secondRoute],
      event.connection = some 2 := by
    simp [taken]
  have begun : reconnecting.beginConnection 2 (.ok ()) = (.ok (), reconnected) := rfl
  exact ⟨ran, rfl, activations_in_order_accepted run begun ran received carried⟩

end CodexRemote.Verified.Bridge

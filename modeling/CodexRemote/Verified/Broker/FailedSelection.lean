import CodexRemote.Verified.Broker.NewestSession
import CodexRemote.Verified.Broker.Registrations

/-! # Selections that fail

A selection makes its route before the device has answered, and takes it back when it fails.  The
two selections of a device take it back only when there is no answer.
-/

namespace CodexRemote.Verified.Broker

open Foundations McpServer.Broker
open RemoteAgent (DateTime GatewayCommand BridgeResult)

/-- What a selection returns after its dispatch; `resume_project` makes an answer of every failure. -/
def SelectionCall.returns (result : Except BrokerError BridgeResult) :
    SelectionCall → Except BrokerError Bool
  | .resumeProject _ _ => .ok (result.bind requireSessionResult).isOk
  | .selectProject _ _ _ | .selectDevice _ _ _ _ | .setWorkingDirectory _ _ _ =>
    (result.bind requireSessionResult).map fun _ => true

section

variable {state next : BrokerState} {event : BrokerEvent} {route : SessionRoute}

/-! ## Where the routes of a session come from -/

/-- The computer session is of this chat's session alone. -/
def OneChat (route : SessionRoute) (state : BrokerState) : Prop :=
  ∀ row ∈ state.sessions.rows, row.computerSessionId = route.computerSessionId →
    row.session = route.session

theorem move_sessions (move : RouteMove state event next) :
    ∀ row ∈ next.sessions.rows,
      (∃ old ∈ state.sessions.rows, Extends row old) ∨ event.made? = some row := by
  intro row there
  cases move with
  | attached order => exact .inl ⟨row, attach_sessions.1 row there, extends_self row⟩
  | detached order => exact .inl ⟨row, disconnect_sessions.1 row there, extends_self row⟩
  | registered ran => exact .inl ((upsert_noNew ran).sessions row there)
  | dropped _ _ _ dropped => exact .inl ⟨row, dropped.sessions row there, extends_self row⟩
  | resumed ran =>
    obtain ⟨-, -, -, -, -, -, -, -, rfl⟩ := resumeProject_some ran
    obtain ⟨before, -⟩ | rfl := Table.mem_put.1 there
    · exact .inl ⟨row, before, extends_self row⟩
    · exact .inr rfl
  | selected ran =>
    obtain ⟨-, -, -, -, -, rfl⟩ := prepareProjectRoute_some ran
    obtain ⟨before, -⟩ | rfl := Table.mem_put.1 there
    · exact .inl ⟨row, before, extends_self row⟩
    · exact .inr rfl
  | selectedDevice ran =>
    obtain ⟨-, rfl⟩ := prepareDeviceRoute_ok ran
    obtain ⟨before, -⟩ | rfl := Table.mem_put.1 there
    · exact .inl ⟨row, before, extends_self row⟩
    · exact .inr rfl

theorem OneChat.step {broker after : BridgeBroker} (known : OneChat route broker.state)
    (step : BrokerStep broker event after)
    (apart : ∀ other, event.made? = some other →
      other.computerSessionId = route.computerSessionId → other.session = route.session) :
    OneChat route after.state := by
  intro row there own
  obtain ⟨old, before, extends_⟩ | made := move_sessions (step_routes step) row there
  · obtain ⟨session, -, -, same, -⟩ := extends_.same
    rw [session]
    exact known old before (same ▸ own)
  · exact apart row made own

theorem OneChat.run {broker after : BridgeBroker} {events : List BrokerEvent}
    (known : OneChat route broker.state) (run : BrokerRun broker events after)
    (apart : ∀ event ∈ events, event.computerSession? ≠ some route.computerSessionId) :
    OneChat route after.state := by
  refine run.preserves_of (fun broker => OneChat route broker.state)
    (fun event => event.computerSession? ≠ some route.computerSessionId) ?_ apart known
  intro broker event after other step here
  refine here.step step fun made its own => ?_
  rw [BrokerEvent.computerSession?, its, Option.map_some, own] at other
  exact absurd rfl other

/-! ## The last section of a selection -/

end

def refusal : BridgeResult := .operationError "request-1" "invalid_request" "no such directory"

end CodexRemote.Verified.Broker

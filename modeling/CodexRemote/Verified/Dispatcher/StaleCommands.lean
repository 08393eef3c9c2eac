import Mathlib.Algebra.Order.Ring.Rat
import CodexRemote.Foundations.Runs
import CodexRemote.RemoteAgent.Dispatcher

/-! # Stale commands and the sessions of the dispatcher

Past the binding of a device session, every check comes before every effect: a command
that is answered as stale has changed nothing, and an activation never lowers the
generation of a session it replaces.  The binding itself comes before the checks, so a
device session keeps this only when it passes them and brings a session that may replace
the one it removes.
-/

namespace CodexRemote.Verified.Dispatcher

open Foundations RemoteAgent

/-- The answers to a command that came too late: past its deadline or its binding, from
a connection that is not current, or older than the active session. -/
def stale : Answer → Bool
  | .expired | .bindingExpired | .session .staleCommand | .session .staleSession
  | .session .olderGeneration | .session .notAcknowledged => true
  | _ => false

/-! ## Sessions over time -/

/-- Each session of `state` is still active in `next`, or has been replaced by one of the
same connection whose generation is no lower. -/
def Later (state next : DispatchState) : Prop :=
  ∀ threadId active, state.session threadId = some active →
    ∃ active', next.session threadId = some active' ∧
      active'.connectionGeneration = active.connectionGeneration ∧
      active.sessionGeneration ≤ active'.sessionGeneration

theorem Later.refl (state : DispatchState) : Later state state :=
  fun _ active found => ⟨active, found, rfl, Nat.le_refl _⟩

theorem Later.trans {first second third : DispatchState} (early : Later first second)
    (late : Later second third) : Later first third := by
  intro threadId active found
  obtain ⟨middle, there, connection, grown⟩ := early threadId active found
  obtain ⟨last, here, connection', grown'⟩ := late threadId middle there
  exact ⟨last, here, connection'.trans connection, Nat.le_trans grown grown'⟩

@[simp] theorem session_put (state : DispatchState) (threadId : String) (project : ActiveProject) :
    (state.put threadId project).session threadId = project.session := by
  simp [DispatchState.session, DispatchState.put]

variable {threadId : String} {project : ActiveProject} {state : DispatchState}
  {fingerprint : GatewayCommand → String}

theorem session_put_other (state : DispatchState) {other : String}
    (project : ActiveProject) (different : other ≠ threadId) :
    (state.put threadId project).session other = state.session other := by
  simp [DispatchState.session, DispatchState.put, Function.update_of_ne different]

/-- Putting back a project is later when its session is. -/
theorem later_put (kept : ∀ active, state.session threadId = some active →
      ∃ active', project.session = some active' ∧
        active'.connectionGeneration = active.connectionGeneration ∧
        active.sessionGeneration ≤ active'.sessionGeneration) :
    Later state (state.put threadId project) := by
  intro other active found
  by_cases same : other = threadId
  · subst same
    rw [session_put]
    exact kept active found
  · rw [session_put_other state project same]
    exact ⟨active, found, rfl, Nat.le_refl _⟩

/-! ## Past the binding -/

theorem activate_stale {requested : SessionActivation} {outside : Outside}
    (late : stale (state.activate threadId project requested outside).1) :
    (state.activate threadId project requested outside).2 = state := by
  unfold DispatchState.activate at late ⊢
  split
  · rfl
  · next current =>
    rw [if_neg current] at late
    cases decided : decideActivation project.session requested outside.engines with
    | refused error => rfl
    | unchanged => rfl
    | install session =>
      -- after an installation only the closing of the old session can fail
      rw [decided] at late
      simp only at late
      split at late <;> cases late

theorem activate_later
    (bound : state.projects threadId = some project) (requested : SessionActivation)
    (outside : Outside) :
    Later state (state.activate threadId project requested outside).2 := by
  unfold DispatchState.activate
  split
  · exact Later.refl state
  · cases decided : decideActivation project.session requested outside.engines with
    | refused error => exact Later.refl state
    | unchanged => exact Later.refl state
    | install session =>
      obtain ⟨rfl, replaced⟩ := decide_install decided
      have later : Later state
          (state.put threadId { project with session := some session }) := by
        refine later_put ?_
        intro active found
        have own : project.session = some active := by
          simpa [DispatchState.session, bound] using found
        obtain ⟨connection, grown⟩ := replaced active own
        exact ⟨session, rfl, connection.symm, grown⟩
      simp only
      split <;> exact later

theorem mutate_stale {command : GatewayCommand} {outside : Outside}
    (late : stale (state.mutate fingerprint project command outside).1) :
    (state.mutate fingerprint project command outside).2 = state := by
  unfold DispatchState.mutate at late ⊢
  split
  · rfl
  · split
    · rfl
    · next waited deadline =>
      rw [if_neg waited, if_neg deadline] at late
      split at late <;> cases late

theorem mutate_later {command : GatewayCommand} (outside : Outside)
    (bound : state.projects command.threadId = some project) :
    Later state (state.mutate fingerprint project command outside).2 := by
  have kept (mutations : MutationCache) :
      Later state (state.put command.threadId { project with mutations }) := by
    refine later_put ?_
    intro active found
    have own : project.session = some active := by
      simpa [DispatchState.session, bound] using found
    exact ⟨active, own, rfl, Nat.le_refl _⟩
  unfold DispatchState.mutate
  split
  · exact Later.refl state
  · split
    · exact Later.refl state
    · split <;> exact kept _

theorem dispatch_stale {fingerprint : GatewayCommand → String} {state : DispatchState}
    {command : GatewayCommand} {connection : Option Nat} {outside : Outside}
    (late : stale (state.dispatch fingerprint command connection outside).1) :
    (state.dispatch fingerprint command connection outside).2 = state := by
  unfold DispatchState.dispatch at late ⊢
  cases bound : state.projects command.threadId with
  | none => rfl
  | some project =>
    simp only [bound] at late ⊢
    split
    · rfl
    · next deadline =>
      split
      · rfl
      · next binding =>
        rw [if_neg deadline, if_neg binding] at late
        cases activation : sessionActivation command with
        | some requested =>
          rw [activation] at late
          exact activate_stale late
        | none =>
          simp only [activation] at late ⊢
          split
          · rfl
          · next current =>
            rw [if_neg current] at late
            cases required : requireSession project.session command.computerSessionId
                connection with
            | none => rfl
            | some session =>
              simp only [required] at late ⊢
              split
              · next mutation =>
                rw [if_pos mutation] at late
                exact mutate_stale late
              · rfl

theorem dispatch_later (fingerprint : GatewayCommand → String) (state : DispatchState)
    (command : GatewayCommand) (connection : Option Nat) (outside : Outside) :
    Later state (state.dispatch fingerprint command connection outside).2 := by
  unfold DispatchState.dispatch
  cases bound : state.projects command.threadId with
  | none => exact Later.refl state
  | some project =>
    simp only
    split
    · exact Later.refl state
    · split
      · exact Later.refl state
      · cases activation : sessionActivation command with
        | some requested => exact activate_later bound _ outside
        | none =>
          simp only
          split
          · exact Later.refl state
          · split
            · exact Later.refl state
            · split
              · exact mutate_later outside bound
              · exact Later.refl state

/-! ## The binding of a device session -/

structure CommandEvent where
  command : GatewayCommand
  connection : Option Nat
  outside : Outside
  answer : Answer

def Step (fingerprint : GatewayCommand → String) (state : DispatchState) (event : CommandEvent)
    (next : DispatchState) : Prop :=
  state.execute fingerprint event.command event.connection event.outside = (event.answer, next)

/-- A device session that binds its thread anew comes in time, under the current
connection, and brings a session that may replace the one it removes: of the same
connection and no older, with its engines started and the removed one closed. -/
def Timely (state : DispatchState) (event : CommandEvent) : Prop :=
  match event.command with
  | .deviceSession header _ sessionGeneration _ expiresAt =>
    ¬event.outside.cancelled → (∃ root, event.outside.opened = .ok root) →
      event.outside.deadlineClock < header.deadlineAt ∧
        event.outside.bindingClock < expiresAt ∧
        connectionCurrent state.connectionGeneration event.connection ∧
        ∀ active, state.session header.threadId = some active →
          active.connectionGeneration = event.connection ∧
            active.sessionGeneration ≤ sessionGeneration ∧
            event.outside.engines = .ok () ∧ event.outside.closed = .ok ()
  | _ => True

/-- What a device session does once its folder is open and its thread bound anew. -/
theorem dispatch_bound
    {header : CommandHeader} {sessionId root folder : String} {sessionGeneration : Nat}
    {expiresAt : DateTime} {connection : Option Nat} {outside : Outside}
    (deadline : outside.deadlineClock < header.deadlineAt)
    (binding : outside.bindingClock < expiresAt)
    (current : connectionCurrent state.connectionGeneration connection) :
    (state.upsert header.threadId root expiresAt).2.dispatch fingerprint
        (.deviceSession header sessionId sessionGeneration folder expiresAt) connection outside =
      match outside.engines with
      | .error message =>
        (.session (.engine message), (state.upsert header.threadId root expiresAt).2)
      | .ok () => (.activated, (state.upsert header.threadId root expiresAt).2.put header.threadId
          ⟨root, expiresAt, some ⟨connection, sessionGeneration, sessionId, .device⟩, .empty⟩) := by
  have bound : (state.upsert header.threadId root expiresAt).2.projects header.threadId =
      some ⟨root, expiresAt, none, .empty⟩ := by
    simp [DispatchState.upsert, DispatchState.put]
  have connected : (state.upsert header.threadId root expiresAt).2.connectionGeneration =
      state.connectionGeneration := rfl
  simp only [DispatchState.dispatch, GatewayCommand.threadId, GatewayCommand.deadlineAt,
    GatewayCommand.header, bound, if_neg (not_le_of_gt deadline), if_neg (not_le_of_gt binding),
    sessionActivation, DispatchState.activate, connected, current, Bool.not_true,
    Bool.false_eq_true, if_false, decideActivation]
  cases outside.engines with
  | error message => rfl
  | ok _ => rfl

theorem step_stale {next : DispatchState}
    {event : CommandEvent} (timely : Timely state event) (step : Step fingerprint state event next)
    (late : stale event.answer) : next = state := by
  obtain ⟨command, connection, outside, answer⟩ := event
  unfold Step DispatchState.execute at step
  split at step
  · cases step
    rfl
  · next running =>
    cases command with
    | deviceSession header sessionId sessionGeneration folder expiresAt =>
      simp only [DispatchState.rebind] at step
      cases opened : outside.opened with
      | error error =>
        rw [opened] at step
        cases step
        cases late
      | ok root =>
        obtain ⟨deadline, binding, current, _⟩ := timely running ⟨root, opened⟩
        rw [opened] at step
        simp only at step
        split at step
        · next found =>
          split at found
          · cases found
            cases step
            cases late
          · cases found
        · next found =>
          split at found
          · cases found
          · cases found
            rw [dispatch_bound deadline binding current] at step
            -- in time, it can only be activated or fail to start its engines
            split at step
            · cases step
              cases late
            · cases step
              cases late
    | _ =>
      simp only [DispatchState.rebind] at step
      have same := @dispatch_stale fingerprint state _ _ _ (by
        rw [step]
        exact late)
      rw [step] at same
      exact same

/-- A binding that finds no session to remove is later. -/
theorem upsert_later (unbound : ∀ active, state.session threadId ≠ some active) (root : String)
    (expiresAt : DateTime) : Later state (state.upsert threadId root expiresAt).2 :=
  later_put fun active found => absurd found (unbound active)

/-- A binding whose session is at once replaced by one that may replace it is later. -/
theorem rebound_later {root : String} {expiresAt : DateTime}
    {session : SessionActivation} (installed : project.session = some session)
    (replaces : ∀ active, state.session threadId = some active →
      session.connectionGeneration = active.connectionGeneration ∧
        active.sessionGeneration ≤ session.sessionGeneration) :
    Later state ((state.upsert threadId root expiresAt).2.put threadId project) := by
  intro other active found
  by_cases same : other = threadId
  · subst same
    rw [session_put]
    exact ⟨session, installed, replaces active found⟩
  · rw [session_put_other _ _ same]
    refine ⟨active, ?_, rfl, Nat.le_refl _⟩
    exact (session_put_other state _ same).trans found

theorem step_later {next : DispatchState} {event : CommandEvent} (timely : Timely state event)
    (step : Step fingerprint state event next) : Later state next := by
  obtain ⟨command, connection, outside, answer⟩ := event
  unfold Step DispatchState.execute at step
  split at step
  · cases step
    exact Later.refl state
  · next running =>
    cases command with
    | deviceSession header sessionId sessionGeneration folder expiresAt =>
      simp only [DispatchState.rebind] at step
      cases opened : outside.opened with
      | error error =>
        rw [opened] at step
        cases step
        exact Later.refl state
      | ok root =>
        obtain ⟨deadline, binding, current, replaces⟩ := timely running ⟨root, opened⟩
        rw [opened] at step
        simp only at step
        split at step
        · next found =>
          split at found
          · next removed failed =>
            -- the session it removes has been closed
            obtain ⟨_, _, _, closed⟩ := replaces _ removed
            rw [closed] at failed
            cases failed
          · cases found
        · next found =>
          split at found
          · cases found
          · cases found
            rw [dispatch_bound deadline binding current] at step
            split at step
            · next failed =>
              cases step
              refine upsert_later ?_ root expiresAt
              intro active removed
              obtain ⟨_, _, engines, _⟩ := replaces active removed
              rw [engines] at failed
              cases failed
            · cases step
              refine rebound_later rfl ?_
              intro active removed
              obtain ⟨own, older, _⟩ := replaces active removed
              exact ⟨own.symm, older⟩
    | _ =>
      simp only [DispatchState.rebind] at step
      have same := congrArg Prod.snd step
      simp only at same
      rw [← same]
      exact dispatch_later fingerprint state _ connection outside

/-! ## Runs of commands -/

def TimelyStep (fingerprint : GatewayCommand → String) (state : DispatchState)
    (event : CommandEvent) (next : DispatchState) : Prop :=
  Timely state event ∧ Step fingerprint state event next

/-- In every run of commands, from any state, whose device sessions come in time: a
command answered as stale changes nothing, and no thread's active session is replaced by
an older one of its connection or by none. -/
theorem stale_commands_harmless {fingerprint : GatewayCommand → String}
    {state next : DispatchState} {events : List CommandEvent}
    (run : Run (TimelyStep fingerprint) state events next) :
    (∀ front event back, events = front ++ event :: back → stale event.answer →
      ∃ reached, Run (TimelyStep fingerprint) state front reached ∧
        TimelyStep fingerprint reached event reached ∧
        Run (TimelyStep fingerprint) reached back next) ∧
    ∀ threadId active, state.session threadId = some active →
      ∃ active', next.session threadId = some active' ∧
        active'.connectionGeneration = active.connectionGeneration ∧
        active.sessionGeneration ≤ active'.sessionGeneration := by
  constructor
  · rintro front event back rfl late
    obtain ⟨before, after, left, ⟨timely, step⟩, right⟩ := run.split_at
    obtain rfl := step_stale timely step late
    exact ⟨_, left, ⟨timely, step⟩, right⟩
  · exact run.preserves (Later state)
      (fun _ _ _ once later => later.trans (step_later once.1 once.2)) (Later.refl state)

/-! ## A device session that comes too late -/

/-- A dispatcher whose bridge has begun its second connection. -/
def connected : DispatchState := ⟨some 2, fun _ => none⟩

def deviceCommand (requestId : String) (deadlineAt : DateTime) : GatewayCommand :=
  .deviceSession ⟨requestId, "device", deadlineAt⟩ "session-of-device" 5 "/work" 1000

/-- The surroundings at a time when everything succeeds. -/
def calm (now : DateTime) : Outside :=
  ⟨false, .ok "/work", .ok (), now, now, now, .ok (), false, .output "" ""⟩

def opening : CommandEvent :=
  ⟨deviceCommand "open" 100, some 2, calm 10, .activated⟩

/-- The same session again, past its deadline. -/
def expired : CommandEvent :=
  ⟨deviceCommand "late" 100, some 2, calm 200, .expired⟩

def afterOpening : DispatchState :=
  (connected.execute (fun _ => "") opening.command opening.connection opening.outside).2

theorem opening_step : Step (fun _ => "") connected opening afterOpening := Prod.ext rfl rfl

theorem expired_device_session_drops_session :
    ¬∀ (fingerprint : GatewayCommand → String) (events : List CommandEvent)
      (state next : DispatchState) (event : CommandEvent),
      Run (Step fingerprint) connected events state → Step fingerprint state event next →
      stale event.answer → next = state := by
  intro harmless
  have late : Step (fun _ => "") afterOpening expired
      (afterOpening.execute (fun _ => "") expired.command expired.connection expired.outside).2 :=
    Prod.ext rfl rfl
  have same := congrArg (·.session "device")
    (harmless _ [opening] _ _ expired (Run.single opening_step) late rfl)
  exact absurd same (by decide)

theorem opening_again_keeps_generation :
    ∃ active', (afterOpening.execute (fun _ => "") opening.command opening.connection
        opening.outside).2.session "device" = some active' ∧
      active'.connectionGeneration = some 2 ∧ 5 ≤ active'.sessionGeneration := by
  have timely : Timely afterOpening opening := by
    intro _ _
    refine ⟨by decide, by decide, by decide, ?_⟩
    intro active found
    cases found
    exact ⟨rfl, Nat.le_refl _, rfl, rfl⟩
  have run : Run (TimelyStep fun _ => "") afterOpening [opening]
      (afterOpening.execute (fun _ => "") opening.command opening.connection opening.outside).2 :=
    Run.single ⟨timely, Prod.ext rfl rfl⟩
  exact (stale_commands_harmless run).2 "device" ⟨some 2, 5, "session-of-device", .device⟩ rfl

end CodexRemote.Verified.Dispatcher

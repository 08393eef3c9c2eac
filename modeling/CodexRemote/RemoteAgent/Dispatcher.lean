import CodexRemote.RemoteAgent.Protocol

/-! # The mutation cache of a project

Results of mutations by command id, at most 256 of them, the least recently used one
evicted first.  The fingerprint of a command is the digest of its canonical text without
deadline and request id.
-/

namespace CodexRemote.RemoteAgent

def maxCachedResults : Nat := 256

/-- `is_mutation` -/
def isMutation : GatewayCommand → Bool
  | .writeFile .. => true
  | .projectOperation _ _ operation =>
    match operation with
    | .core .projectRules | .core .projectStatus | .core (.codeSearch _ _)
    | .core .commandList | .core .repoStatus | .core .repoDiff | .core .listImages
    | .core (.retrieveImage _) | .core .checkpointList | .core (.checkpointShow _)
    | .terminal (.terminalExec _) => false
    | _ => true
  | _ => false

/-- Thread, session and request -/
abbrev CacheKey := String × Option String × String

def cacheKey (command : GatewayCommand) : CacheKey :=
  (command.threadId, command.computerSessionId, command.requestId)

structure CachedResult where
  fingerprint : String
  result : BridgeResult
deriving DecidableEq, Repr

structure MutationCache where
  values : List (CacheKey × CachedResult)
  order : List CacheKey
deriving DecidableEq, Repr

def conflict (command : GatewayCommand) : BridgeResult :=
  .operationError command.requestId "request_id_conflict"
    "The request ID was reused with different command content."

namespace MutationCache

def empty : MutationCache := ⟨[], []⟩

/-- Move the key to the end of the order, where the most recently used one stands. -/
def touch (order : List CacheKey) (key : CacheKey) : List CacheKey :=
  order.filter (· ≠ key) ++ [key]

def lookup (fingerprint : GatewayCommand → String) (cache : MutationCache)
    (command : GatewayCommand) : Option BridgeResult × MutationCache :=
  match cache.values.lookup (cacheKey command) with
  | none => (none, cache)
  | some cached =>
    if cached.fingerprint = fingerprint command then
      (some cached.result, { cache with order := touch cache.order (cacheKey command) })
    else (some (conflict command), cache)

/-- The eviction loop of `remember`: the oldest keys go until the order fits. -/
def evict : List CacheKey → List (CacheKey × CachedResult) → MutationCache
  | [], values => ⟨values, []⟩
  | oldest :: order, values =>
    if maxCachedResults < (oldest :: order).length then
      evict order (values.filter fun entry => entry.1 ≠ oldest)
    else ⟨values, oldest :: order⟩

def remember (fingerprint : GatewayCommand → String) (cache : MutationCache)
    (command : GatewayCommand) (result : BridgeResult) : MutationCache :=
  match result with
  | .operationError .. => cache
  | result =>
    let key := cacheKey command
    evict (touch cache.order key)
      ((key, ⟨fingerprint command, result⟩) :: cache.values.filter fun entry => entry.1 ≠ key)

end MutationCache

/-! ## Project sessions of the dispatcher

The decisions that are made under one lock: whether a new connection may begin, whether
a command's connection is current, and what an activation does to the active session.
-/

inductive ComputerAccessMode where
  | project
  | device
deriving DecidableEq, Repr

/-- What `SessionActivation` compares; its computer, terminals and windows are resources. -/
structure SessionActivation where
  connectionGeneration : Option Nat
  sessionGeneration : Nat
  sessionId : String
  computerMode : ComputerAccessMode
deriving DecidableEq, Repr

/-- `session_activation` -/
def sessionActivation : GatewayCommand → Option (String × Nat × ComputerAccessMode)
  | .projectSession _ session generation => some (session, generation, .project)
  | .deviceSession _ session generation _ _ => some (session, generation, .device)
  | _ => none

/-- Why a session command is refused, or stopped after it has replaced the session. -/
inductive SessionError where
  | staleCommand
  | staleSession
  | olderGeneration
  | generationConflict
  | modeConflict
  | notAcknowledged
  | engine (message : String)
  | cleanup (message : String)
deriving DecidableEq, Repr

def SessionError.message : SessionError → String
  | staleCommand => "The command belongs to a stale local bridge connection."
  | staleSession => "The project session belongs to a stale bridge connection."
  | olderGeneration => "The project session command is older than the active session."
  | generationConflict => "The project session generation conflicts with another session."
  | modeConflict => "The project session mode conflicts with the active session."
  | notAcknowledged => "The ChatGPT session is stale or was not acknowledged locally."
  | engine message | cleanup message => message

/-- The bump of `begin_connection` -/
def beginConnection (current : Option Nat) (generation : Nat) : Except String (Option Nat) :=
  if current.any (generation ≤ ·) then
    .error "The local bridge connection generation did not advance."
  else .ok (some generation)

/-- The connection check of `activate` and of `require_session` -/
def connectionCurrent (current carried : Option Nat) : Bool :=
  !(carried.isSome && current != carried)

/-- What an activation finds under the session lock. -/
inductive ActivationDecision where
  | refused (error : SessionError)
  | unchanged
  | install (session : SessionActivation)
deriving DecidableEq, Repr

/-- The comparison of `activate` with the active session.  `engines` is the outcome of
starting the terminal engine and the window manager for a new session. -/
def decideActivation (active : Option SessionActivation) (requested : SessionActivation)
    (engines : Except String Unit) : ActivationDecision :=
  let fresh : ActivationDecision :=
    match engines with
    | .error message => .refused (.engine message)
    | .ok () => .install requested
  match active with
  | none => fresh
  | some active =>
    if active.connectionGeneration ≠ requested.connectionGeneration then .refused .staleSession
    else if requested.sessionGeneration < active.sessionGeneration then
      .refused .olderGeneration
    else if requested.sessionGeneration = active.sessionGeneration &&
        requested.sessionId ≠ active.sessionId then .refused .generationConflict
    else if requested.sessionGeneration = active.sessionGeneration &&
        requested.sessionId = active.sessionId &&
        requested.computerMode ≠ active.computerMode then .refused .modeConflict
    else if requested.sessionGeneration = active.sessionGeneration &&
        requested.sessionId = active.sessionId then .unchanged
    else fresh

theorem decide_install {active : Option SessionActivation} {requested session : SessionActivation}
    {engines : Except String Unit}
    (decided : decideActivation active requested engines = .install session) :
    session = requested ∧ ∀ a, active = some a →
      a.connectionGeneration = requested.connectionGeneration ∧
        a.sessionGeneration ≤ requested.sessionGeneration := by
  have fresh (installed : (match engines with
      | .error message => ActivationDecision.refused (.engine message)
      | .ok () => .install requested) = .install session) : session = requested := by
    cases engines with
    | error message => cases installed
    | ok _ =>
      cases installed
      rfl
  unfold decideActivation at decided
  cases active with
  | none => exact ⟨fresh decided, fun _ => (nomatch ·)⟩
  | some a =>
    simp only at decided
    split at decided
    · cases decided
    · next connection =>
      split at decided
      · cases decided
      · next older =>
        split at decided
        · cases decided
        · split at decided
          · cases decided
          · split at decided
            · cases decided
            · refine ⟨fresh decided, ?_⟩
              rintro a ⟨⟩
              exact ⟨not_not.1 connection, Nat.le_of_not_lt older⟩

/-- A session of the same connection is never taken for a stale one. -/
theorem decide_not_stale {active : Option SessionActivation} {requested : SessionActivation}
    {engines : Except String Unit}
    (same : ∀ a, active = some a → a.connectionGeneration = requested.connectionGeneration) :
    decideActivation active requested engines ≠ .refused .staleSession := by
  have fresh : (match engines with
      | .error message => ActivationDecision.refused (.engine message)
      | .ok () => .install requested) ≠ .refused .staleSession := by
    cases engines <;> exact (nomatch ·)
  unfold decideActivation
  cases active with
  | none => exact fresh
  | some a =>
    simp only
    split
    · next different => exact absurd (same a rfl) different
    · split
      · exact (nomatch ·)
      · split
        · exact (nomatch ·)
        · split
          · exact (nomatch ·)
          · split
            · exact (nomatch ·)
            · exact fresh

/-- The session lock section of `require_session` -/
def requireSession (active : Option SessionActivation) (sessionId : Option String)
    (connectionGeneration : Option Nat) : Option SessionActivation :=
  active.filter fun active =>
    some active.sessionId = sessionId && active.connectionGeneration = connectionGeneration

/-! ## The local project dispatcher

One command at a time.  A device session rebinds its thread first, and only then passes
the checks that every other command passes before it has an effect.
-/

structure ActiveProject where
  root : String
  expiresAt : DateTime
  session : Option SessionActivation
  mutations : MutationCache
deriving DecidableEq

structure DispatchState where
  connectionGeneration : Option Nat
  projects : String → Option ActiveProject

/-- What a command is answered with. -/
inductive Answer where
  | cancelled
  | fileError (code message : String)
  | bindingMissing
  | bindingExpired
  | expired
  | session (error : SessionError)
  | activated
  | answered (result : BridgeResult)
deriving DecidableEq

def Answer.result (requestId : String) : Answer → BridgeResult
  | cancelled => .operationError requestId "request_cancelled"
      "The remote project request was cancelled because the local bridge disconnected."
  | fileError code message => .operationError requestId code message
  | bindingMissing => .operationError requestId "binding_missing"
      "The Codex thread is not bound on this device."
  | bindingExpired => .operationError requestId "binding_expired"
      "The local project binding expired. Run !pro again."
  | expired => .operationError requestId "request_expired"
      "The remote project request expired before it could run."
  | session error => .operationError requestId "computer_control" error.message
  | activated => .projectSessionResult requestId
  | answered result => result

/-- What one command meets outside the dispatcher: its cancellation signal, the folder it
opens, the closing of the session it replaces, the clock at each look, the engines of a
new session, and its execution. -/
structure Outside where
  cancelled : Bool
  opened : Except (String × String) String
  closed : Except String Unit
  deadlineClock : DateTime
  bindingClock : DateTime
  mutationClock : DateTime
  engines : Except String Unit
  cancelledWaiting : Bool
  executed : BridgeResult

namespace DispatchState

def initial : DispatchState := ⟨none, fun _ => none⟩

def put (state : DispatchState) (threadId : String) (project : ActiveProject) : DispatchState :=
  { state with projects := Function.update state.projects threadId (some project) }

def session (state : DispatchState) (threadId : String) : Option SessionActivation :=
  (state.projects threadId).bind ActiveProject.session

/-- `begin_connection` with no call beside it: every session is taken before the first of them is
closed, and `closed` is the outcome of the closings. -/
def beginConnection (state : DispatchState) (generation : Nat) (closed : Except String Unit) :
    Except String Unit × DispatchState :=
  match RemoteAgent.beginConnection state.connectionGeneration generation with
  | .error message => (.error message, state)
  | .ok current =>
    (closed, ⟨current, fun id => (state.projects id).map fun project =>
      { project with session := none }⟩)

/-- `upsert` after its folder has been opened: the new project, and the session of the
previous one, which is closed. -/
def upsert (state : DispatchState) (threadId root : String) (expiresAt : DateTime) :
    Option SessionActivation × DispatchState :=
  (state.session threadId, state.put threadId ⟨root, expiresAt, none, .empty⟩)

/-- The binding of a device session, which ends the command when it fails. -/
def rebind (state : DispatchState) (command : GatewayCommand) (outside : Outside) :
    Option Answer × DispatchState :=
  match command with
  | .deviceSession header _ _ _ expiresAt =>
    match outside.opened with
    | .error (code, message) => (some (.fileError code message), state)
    | .ok root =>
      let (previous, state) := state.upsert header.threadId root expiresAt
      match previous, outside.closed with
      | some _, .error message => (some (.session (.cleanup message)), state)
      | _, _ => (none, state)
  | _ => (none, state)

def activate (state : DispatchState) (threadId : String) (project : ActiveProject)
    (requested : SessionActivation) (outside : Outside) : Answer × DispatchState :=
  if !connectionCurrent state.connectionGeneration requested.connectionGeneration then
    (.session .staleCommand, state)
  else
    match decideActivation project.session requested outside.engines with
    | .refused error => (.session error, state)
    | .unchanged => (.activated, state)
    | .install session =>
      let state := state.put threadId { project with session := some session }
      match project.session, outside.closed with
      | some _, .error message => (.session (.cleanup message), state)
      | _, _ => (.activated, state)

/-- A mutation under the lock of the project's cache. -/
def mutate (fingerprint : GatewayCommand → String) (state : DispatchState)
    (project : ActiveProject) (command : GatewayCommand) (outside : Outside) :
    Answer × DispatchState :=
  if outside.cancelledWaiting then (.cancelled, state)
  else if command.deadlineAt ≤ outside.mutationClock then (.expired, state)
  else
    match project.mutations.lookup fingerprint command with
    | (some result, mutations) =>
      (.answered result, state.put command.threadId { project with mutations })
    | (none, mutations) =>
      (.answered outside.executed, state.put command.threadId
        { project with mutations := mutations.remember fingerprint command outside.executed })

/-- The checks on a bound command, and the command. -/
def dispatch (fingerprint : GatewayCommand → String) (state : DispatchState)
    (command : GatewayCommand) (connectionGeneration : Option Nat) (outside : Outside) :
    Answer × DispatchState :=
  match state.projects command.threadId with
  | none => (.bindingMissing, state)
  | some project =>
    if command.deadlineAt ≤ outside.deadlineClock then (.expired, state)
    else if project.expiresAt ≤ outside.bindingClock then (.bindingExpired, state)
    else
      match sessionActivation command with
      | some (sessionId, sessionGeneration, computerMode) =>
        state.activate command.threadId project
          ⟨connectionGeneration, sessionGeneration, sessionId, computerMode⟩ outside
      | none =>
        if !connectionCurrent state.connectionGeneration connectionGeneration then
          (.session .staleCommand, state)
        else
          match requireSession project.session command.computerSessionId
              connectionGeneration with
          | none => (.session .notAcknowledged, state)
          | some _ =>
            if isMutation command then state.mutate fingerprint project command outside
            else (.answered outside.executed, state)

/-- `execute_cancellable` -/
def execute (fingerprint : GatewayCommand → String) (state : DispatchState)
    (command : GatewayCommand) (connectionGeneration : Option Nat) (outside : Outside) :
    Answer × DispatchState :=
  if outside.cancelled then (.cancelled, state)
  else
    match state.rebind command outside with
    | (some answer, state) => (answer, state)
    | (none, state) => state.dispatch fingerprint command connectionGeneration outside

end DispatchState

end CodexRemote.RemoteAgent

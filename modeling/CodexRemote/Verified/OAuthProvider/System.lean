import CodexRemote.McpServer.OAuthProvider
import CodexRemote.Verified.OAuthStore.Families

/-! # Calls on the provider, one section at a time

A call runs in sections: what it does while it holds the state's lock, or one call on the
store.  Sections of different calls interleave freely, and a call may stop for good
between two of them.
-/

namespace CodexRemote.Verified.OAuthProvider

open Foundations McpServer

/-- Where a call stands: the section it runs next, with what it carries there. -/
inductive Task where
  | authorizing (request : AuthorizationRequest) (scopes : List String)
  | claiming (request : CodeExchangeRequest)
  | claimed (request : CodeExchangeRequest) (code : AuthorizationCodeRecord)
  | saving (request : CodeExchangeRequest) (code : AuthorizationCodeRecord)
      (access refresh : OAuthTokenRecord) (familyId : String)
  | completing (request : CodeExchangeRequest) (code : AuthorizationCodeRecord)
      (access refresh : OAuthTokenRecord) (result : Except OAuthStoreError Unit)
  | loading (request : RefreshExchangeRequest)
  | rotating (oldRefresh : String) (access refresh : OAuthTokenRecord)

structure Provider where
  store : OAuthStore
  state : OAuthState
  tasks : List Task

def Provider.empty : Provider := ⟨.empty, .empty, []⟩

/-- What a section reads from outside: the clock, once or twice, and new secrets. -/
structure Given where
  now : Int
  later : Int
  first : String
  second : String
  third : String

/-- How the calls of several sections begin. -/
inductive Call where
  | beginAuthorization (request : AuthorizationRequest)
  | exchangeCode (request : CodeExchangeRequest)
  | exchangeRefresh (request : RefreshExchangeRequest)

def Call.clientId : Call → String
  | .beginAuthorization request => request.clientId
  | .exchangeCode request => request.clientId
  | .exchangeRefresh request => request.clientId

/-- What a section of a call ends with. -/
inductive Outcome where
  | begun (result : Except OAuthProviderError PendingApproval)
  | claimed (result : Except OAuthProviderError AuthorizationCodeRecord)
  | minted
  | saved (result : Except OAuthStoreError Unit)
  | completed (result : Except OAuthProviderError OAuthTokenResponse)
  | loaded (result : Except OAuthProviderError Unit)
  | rotated (result : Except OAuthProviderError OAuthTokenResponse)

/-- The calls of a single section. -/
inductive Direct where
  | registerClient (client : StoredClient)
  | pendingScopes (requestId : String)
  | approve (requestId candidateOwnerToken : String)
  | authenticateAccess (token : String)
  | revoke (token : String)

inductive DirectAnswer where
  | registered (result : Except OAuthStoreError Unit)
  | scopes (result : Option (List String))
  | approved (result : Except OAuthProviderError Callback)
  | record (found : Option OAuthTokenRecord)
  | revoked

/-- The parameters that the provider is built with, and the functions it takes from elsewhere. -/
structure Setting where
  config : OAuthProviderConfig
  limits : OAuthStoreLimits
  sha256 : String → String
  codeChallengeOf : String → String
  parsesUrl : String → Bool

variable (setting : Setting)

/-- `load_client` and the checks of a call, before its first section. -/
def enter (call : Call) (loaded : Option StoredClient) : Except OAuthProviderError Task :=
  match call with
  | .beginAuthorization request =>
    (checkAuthorization setting.config request loaded).map (.authorizing request)
  | .exchangeCode request =>
    (checkCodeExchange setting.sha256 setting.config request loaded).map fun _ => .claiming request
  | .exchangeRefresh request =>
    (checkRefreshExchange setting.sha256 setting.config request loaded).map fun _ =>
      .loading request

/-- One section of a call: its outcome, the task that is left of it, and its effect. -/
def advance (given : Given) (task : Task) (store : OAuthStore) (state : OAuthState) :
    Outcome × Option Task × OAuthStore × OAuthState :=
  match task with
  | .authorizing request scopes =>
    let (result, state) :=
      beginAuthorization setting.config given.now given.first request scopes state
    (.begun result, none, store, state)
  | .claiming request =>
    let (result, state) :=
      claimValidCode setting.sha256 setting.codeChallengeOf given.now request state
    (.claimed result, result.toOption.map (.claimed request), store, state)
  | .claimed request code =>
    let (access, refresh) := newTokenPair setting.config given.now code.clientId code.scopes
      given.first given.second
    (.minted, some (.saving request code access refresh given.third), store, state)
  | .saving request code access refresh familyId =>
    let (result, db) := saveTokenPair setting.sha256 setting.limits given.now access refresh
      familyId store.db
    (.saved result, some (.completing request code access refresh result),
      { store with db := db }, state)
  | .completing _ code access refresh result =>
    let (answer, state) := completeExchange code result state
    (.completed (answer.map fun _ =>
      tokenResponse access refresh setting.config.accessTokenSeconds), none, store, state)
  | .loading request =>
    let (existing, db) := loadRefreshToken setting.sha256 given.now request.refreshToken store.db
    match refreshScopes request existing with
    | .error error => (.loaded (.error error), none, { store with db := db }, state)
    | .ok (existing, scopes) =>
      let (access, refresh) := newTokenPair setting.config given.later existing.clientId scopes
        given.first given.second
      (.loaded (.ok ()), some (.rotating existing.token access refresh),
        { store with db := db }, state)
  | .rotating oldRefresh access refresh =>
    let (outcome, db) := rotateTokenPair setting.sha256 setting.limits given.now oldRefresh access
      refresh store.db
    let answer : Except OAuthProviderError OAuthTokenResponse :=
      match outcome with
      | .error error => .error (.store error)
      | .ok .rotated => .ok (tokenResponse access refresh setting.config.accessTokenSeconds)
      | .ok _ => .error .invalidGrant
    (.rotated answer, none, { store with db := db }, state)

def direct (given : Given) (call : Direct) (store : OAuthStore) (state : OAuthState) :
    DirectAnswer × OAuthStore × OAuthState :=
  match call with
  | .registerClient client =>
    let (result, store) := saveClientPayload setting.limits given.now client.clientId client store
    (.registered result, store, state)
  | .pendingScopes requestId =>
    let (result, state) := pendingScopes given.now requestId state
    (.scopes result, store, state)
  | .approve requestId candidate =>
    let (result, state) := approve setting.sha256 setting.parsesUrl setting.config given.now
      requestId candidate given.first state
    (.approved result, store, state)
  | .authenticateAccess token =>
    (.record (acceptAccess setting.config given.now
      (loadAccessToken setting.sha256 token store.db)), store, state)
  | .revoke token =>
    (.revoked, { store with db := revokeFamily setting.sha256 given.now token store.db }, state)

inductive ProviderEvent where
  | entered (call : Call) (result : Except OAuthProviderError Task)
  | advanced (given : Given) (task : Task) (outcome : Outcome)
  | called (given : Given) (call : Direct) (answer : DirectAnswer)
  | restarted

inductive ProviderStep : Provider → ProviderEvent → Provider → Prop where
  | entered {provider : Provider} {call : Call} {result : Except OAuthProviderError Task}
      (checked : enter setting call (getClientPayload call.clientId provider.store) = result) :
      ProviderStep provider (.entered call result)
        { provider with tasks := result.toOption.toList ++ provider.tasks }
  | advanced {store next : OAuthStore} {state after : OAuthState} {front back : List Task}
      {given : Given} {task : Task} {outcome : Outcome} {left : Option Task}
      (ran : advance setting given task store state = (outcome, left, next, after)) :
      ProviderStep ⟨store, state, front ++ task :: back⟩ (.advanced given task outcome)
        ⟨next, after, front ++ (left.toList ++ back)⟩
  | called {store next : OAuthStore} {state after : OAuthState} {tasks : List Task}
      {given : Given} {call : Direct} {answer : DirectAnswer}
      (ran : direct setting given call store state = (answer, next, after)) :
      ProviderStep ⟨store, state, tasks⟩ (.called given call answer) ⟨next, after, tasks⟩
  /-- The store may fail by itself; a call that ends there is one that stops for good. -/
  | unsaved {store : OAuthStore} {state : OAuthState} {front back : List Task} {given : Given}
      {request : CodeExchangeRequest} {code : AuthorizationCodeRecord}
      {access refresh : OAuthTokenRecord} {familyId : String} (error : OAuthStoreError) :
      ProviderStep
        ⟨store, state, front ++ .saving request code access refresh familyId :: back⟩
        (.advanced given (.saving request code access refresh familyId) (.saved (.error error)))
        ⟨store, state, front ++ (.completing request code access refresh (.error error) :: back)⟩
  /-- A new process finds the store as it is and starts without state. -/
  | restarted {provider : Provider} :
      ProviderStep provider .restarted ⟨provider.store, .empty, []⟩

abbrev ProviderRun (provider : Provider) (events : List ProviderEvent) (next : Provider) : Prop :=
  Run (ProviderStep setting) provider events next

/-! ## What a run records -/

/-- The secrets that a section generates. -/
def ProviderEvent.secrets : ProviderEvent → List String
  | .advanced given (.authorizing _ _) _ => [given.first]
  | .advanced given (.claimed _ _) _ => [given.first, given.second, given.third]
  | .advanced given (.loading _) (.loaded (.ok ())) => [given.first, given.second]
  | .called given (.approve _ _) (.approved (.ok _)) => [given.first]
  | .called given (.approve _ _) (.approved (.error .url)) => [given.first]
  | .called _ (.registerClient client) _ => [client.clientId, client.clientSecret]
  | _ => []

/-- An approval, with the owner token it was given and the code it led to. -/
structure Grant where
  candidate : String
  record : AuthorizationCodeRecord

structure Claim where
  now : Int
  request : CodeExchangeRequest
  record : AuthorizationCodeRecord

/-- The history of a run, read off its events. -/
structure Ledger where
  clients : List StoredClient := []
  asked : List (String × AuthorizationRequest) := []
  grants : List Grant := []
  claims : List Claim := []
  saved : List String := []
  /-- the clock at each sweep of the state -/
  sweeps : List Int := []
  secrets : List String := []

/-- The grant that an approval of a known request makes. -/
def Ledger.grant (ledger : Ledger) (given : Given) (requestId candidate : String) : List Grant :=
  match ledger.asked.find? fun entry => entry.1 = requestId with
  | none => []
  | some (_, request) =>
    [⟨candidate, codeRecord given.first given.now ⟨requestId, request, request.wanted, 0, 0⟩⟩]

def Ledger.swept (ledger : Ledger) (now : Int) : Ledger :=
  { ledger with sweeps := now :: ledger.sweeps }

def Ledger.note (ledger : Ledger) : ProviderEvent → Ledger
  | .called _ (.registerClient client) (.registered (.ok ())) =>
    { ledger with clients := client :: ledger.clients }
  | .called given (.pendingScopes _) _ => ledger.swept given.now
  | .called given (.approve requestId candidate) (.approved (.ok _)) =>
    { ledger.swept given.now with
      grants := ledger.grant given requestId candidate ++ ledger.grants }
  | .called given (.approve requestId candidate) (.approved (.error .url)) =>
    { ledger.swept given.now with
      grants := ledger.grant given requestId candidate ++ ledger.grants }
  | .called given (.approve _ _) _ => ledger.swept given.now
  | .advanced given (.authorizing request _) (.begun (.ok _)) =>
    { ledger.swept given.now with asked := (given.first, request) :: ledger.asked }
  | .advanced given (.authorizing _ _) _ => ledger.swept given.now
  | .advanced given (.claiming request) (.claimed (.ok record)) =>
    { ledger.swept given.now with claims := ⟨given.now, request, record⟩ :: ledger.claims }
  | .advanced given (.claiming _) _ => ledger.swept given.now
  | .advanced _ (.saving _ code _ _ _) (.saved (.ok ())) =>
    { ledger with saved := code.code :: ledger.saved }
  | _ => ledger

def Ledger.record (ledger : Ledger) (event : ProviderEvent) : Ledger :=
  { ledger.note event with secrets := event.secrets ++ ledger.secrets }

def ledger (past : List ProviderEvent) : Ledger := past.foldl Ledger.record {}

/-- All generated secrets are distinct. -/
def Fresh (events : List ProviderEvent) : Prop := (events.flatMap (·.secrets)).Nodup

end CodexRemote.Verified.OAuthProvider

/-! ## What each section does

One lemma for each lock section, and what they leave in the maps of the state.
-/

namespace CodexRemote.Verified.OAuthProvider

open Foundations McpServer
open Verified.OAuthStore (StoreMove member saveTokenPair_move rotateTokenPair_move
  loadRefreshToken_move revokeFamily_move mem_swept loadTokenRow_some)

variable {setting : Setting} {state after : OAuthState} {now : Int}

/-! ## The state's sections -/

theorem beginAuthorization_cases {config : OAuthProviderConfig} {requestId : String}
    {request : AuthorizationRequest} {scopes : List String}
    {result : Except OAuthProviderError PendingApproval}
    (ran : beginAuthorization config now requestId request scopes state = (result, after)) :
    (∃ error, result = .error error ∧ after = state.discardExpired now) ∨
    (∃ approval, result = .ok approval ∧ after = { state.discardExpired now with
      pending := (state.discardExpired now).pending.put
        ⟨requestId, request, scopes, now + authorizationTtlSeconds, 0⟩ }) := by
  simp only [beginAuthorization] at ran
  split at ran
  · cases ran
    exact Or.inl ⟨_, rfl, rfl⟩
  · cases ran
    exact Or.inr ⟨_, rfl, rfl⟩

theorem claimValidCode_cases {request : CodeExchangeRequest}
    {result : Except OAuthProviderError AuthorizationCodeRecord}
    (ran : claimValidCode setting.sha256 setting.codeChallengeOf now request state =
      (result, after)) :
    (result = .error .invalidGrant ∧ after = state.discardExpired now) ∨
    (∃ code, result = .ok code ∧ code ∈ (state.discardExpired now).codes.rows ∧
      code.code = request.code ∧
      request.names setting.sha256 setting.codeChallengeOf code = true ∧
      after = { state.discardExpired now with
        codes := (state.discardExpired now).codes.remove request.code
        exchanging := (state.discardExpired now).exchanging.put code }) := by
  simp only [claimValidCode] at ran
  split at ran
  · cases ran
    exact Or.inl ⟨rfl, rfl⟩
  · next code found =>
    cases ran
    rw [Option.filter_eq_some_iff] at found
    exact Or.inr ⟨code, rfl, Table.mem_of_find found.1, Table.find_key found.1, found.2, rfl⟩

/-- The pending requests of a state, without their attempts. -/
def asksOnly (state after : OAuthState) : Prop :=
  ∀ item ∈ after.pending.rows, ∃ before ∈ state.pending.rows,
    before.requestId = item.requestId ∧ before.request = item.request ∧ before.scopes = item.scopes

theorem asksOnly_self : asksOnly state state := fun item present => ⟨item, present, rfl, rfl, rfl⟩

theorem countFailedAttempt_spec {requestId : String} {pending : PendingAuthorization} :
    (countFailedAttempt requestId pending state).codes = state.codes ∧
      (countFailedAttempt requestId pending state).exchanging = state.exchanging ∧
      asksOnly state (countFailedAttempt requestId pending state) := by
  simp only [countFailedAttempt]
  split
  · refine ⟨rfl, rfl, ?_⟩
    intro item present
    exact ⟨item, (Table.mem_remove.1 present).1, rfl, rfl, rfl⟩
  · refine ⟨rfl, rfl, ?_⟩
    intro item present
    simp only [Table.update, List.mem_map] at present
    obtain ⟨before, known, rfl⟩ := present
    refine ⟨before, known, ?_⟩
    split <;> exact ⟨rfl, rfl, rfl⟩

/-- An approval is granted, and its code stored, or it leaves the codes alone. -/
theorem approve_cases {requestId candidate code : String}
    {result : Except OAuthProviderError Callback}
    (ran : approve setting.sha256 setting.parsesUrl setting.config now requestId candidate code
      state = (result, after)) :
    ((∃ error, result = .error error ∧ error ≠ .url) ∧
      after.codes = (state.discardExpired now).codes ∧
      after.exchanging = (state.discardExpired now).exchanging ∧
      asksOnly (state.discardExpired now) after) ∨
    (((∃ callback, result = .ok callback) ∨ result = .error .url) ∧
      constantTimeMatches setting.sha256 candidate setting.config.ownerToken = true ∧
      ∃ pending, (state.discardExpired now).pending.find requestId = some pending ∧
        (state.discardExpired now).codes.rows.length +
          (state.discardExpired now).exchanging.rows.length <
            setting.config.authorizationCodeLimit ∧
        (state.discardExpired now).clientRetained pending.request.clientId <
          setting.config.authorizationCodePerClientLimit ∧
        after = { state.discardExpired now with
          pending := (state.discardExpired now).pending.remove requestId
          codes := (state.discardExpired now).codes.put (codeRecord code now pending) }) := by
  simp only [approve] at ran
  split at ran
  · cases ran
    exact Or.inl ⟨⟨_, rfl, by simp⟩, rfl, rfl, asksOnly_self⟩
  · next pending found =>
    split at ran
    · cases ran
      exact Or.inl ⟨⟨_, rfl, by simp⟩, countFailedAttempt_spec⟩
    · next matching =>
      have owner : constantTimeMatches setting.sha256 candidate setting.config.ownerToken =
          true := by simpa using matching
      split at ran
      · cases ran
        exact Or.inl ⟨⟨_, rfl, by simp⟩, rfl, rfl, asksOnly_self⟩
      · next room =>
        simp only [not_or, ge_iff_le, not_le] at room
        split at ran
        · cases ran
          exact Or.inr ⟨Or.inl ⟨_, rfl⟩, owner, pending, found, room.1, room.2, rfl⟩
        · cases ran
          exact Or.inr ⟨Or.inr rfl, owner, pending, found, room.1, room.2, rfl⟩

theorem mem_discard_pending {item : PendingAuthorization} :
    item ∈ (state.discardExpired now).pending.rows ↔
      item ∈ state.pending.rows ∧ now ≤ item.expiresAt := by
  simp [OAuthState.discardExpired, Table.delete]

theorem mem_discard_codes {code : AuthorizationCodeRecord} :
    code ∈ (state.discardExpired now).codes.rows ↔
      code ∈ state.codes.rows ∧ now ≤ code.expiresAt := by
  simp [OAuthState.discardExpired, Table.delete]

/-! ## The ledger grows -/

structure Grows (ledger next : Ledger) : Prop where
  clients : ∀ client ∈ ledger.clients, client ∈ next.clients
  asked : ∀ entry ∈ ledger.asked, entry ∈ next.asked
  grants : ∀ grant ∈ ledger.grants, grant ∈ next.grants
  claims : ∀ claim ∈ ledger.claims, claim ∈ next.claims
  saved : ∀ code ∈ ledger.saved, code ∈ next.saved
  sweeps : ∀ at_ ∈ ledger.sweeps, at_ ∈ next.sweeps
  secrets : ∀ secret ∈ ledger.secrets, secret ∈ next.secrets

theorem record_grows (ledger : Ledger) (event : ProviderEvent) :
    Grows ledger (ledger.record event) := by
  unfold Ledger.record Ledger.note
  split <;> constructor <;> simp_all [Ledger.swept]

theorem ledger_snoc (past : List ProviderEvent) (event : ProviderEvent) :
    ledger (past ++ [event]) = (ledger past).record event := by
  simp [ledger]

theorem ledger_secrets (past : List ProviderEvent) :
    (ledger past).secrets.Perm (past.flatMap (·.secrets)) := by
  induction past using List.reverseRecOn with
  | nil => exact .nil
  | append_singleton past event ih =>
    rw [ledger_snoc, List.flatMap_append, List.flatMap_singleton]
    exact (ih.append_left _).trans List.perm_append_comm

/-- A secret that an event generates is new. -/
theorem Fresh.last {past : List ProviderEvent} {event : ProviderEvent}
    (fresh : Fresh (past ++ [event])) {secret : String} (generated : secret ∈ event.secrets) :
    secret ∉ (ledger past).secrets := by
  unfold Fresh at fresh
  rw [List.flatMap_append, List.flatMap_singleton, List.nodup_append] at fresh
  intro known
  exact fresh.2.2 secret ((ledger_secrets past).mem_iff.1 known) secret generated rfl

theorem Fresh.front {past back : List ProviderEvent} (fresh : Fresh (past ++ back)) :
    Fresh past := by
  unfold Fresh at fresh ⊢
  rw [List.flatMap_append] at fresh
  exact (List.nodup_append.1 fresh).1

end CodexRemote.Verified.OAuthProvider

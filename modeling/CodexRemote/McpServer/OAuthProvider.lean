import CodexRemote.Discord.Text
import CodexRemote.McpServer.OAuthStore

/-! # The OAuth provider

The lock sections of `OAuthProvider` over its in-memory state, and what it does between
them.  SHA-256 (as hex), the S256 challenge of a verifier and whether a redirect URI
parses as a URL are parameters; the clock and the generated secrets are arguments.
-/

namespace CodexRemote.McpServer

open Foundations Discord

def filesRead : String := "files:read"
def filesWrite : String := "files:write"
def computerObserve : String := "computer:observe"
def computerControl : String := "computer:control"
def terminalExecute : String := "terminal:execute"
def terminalInteract : String := "terminal:interact"

/-- `scopes::ALL` -/
def allScopes : List String :=
  [filesRead, filesWrite, computerObserve, computerControl, terminalExecute, terminalInteract]

def splitWhitespace (text : String) : List String :=
  ((text.toList.splitOnP isWhitespace).filter fun word => !word.isEmpty).map String.ofList

structure OAuthProviderConfig where
  publicBaseUrl : String := "http://127.0.0.1/"
  ownerToken : String := ""
  accessTokenSeconds : Int := 3600
  refreshTokenSeconds : Int := 60 * 60 * 24 * 30
  pendingAuthorizationLimit : Nat := 100
  authorizationCodeLimit : Nat := 1024
  authorizationCodePerClientLimit : Nat := 64
deriving DecidableEq, Repr

structure AuthorizationRequest where
  clientId : String
  redirectUri : String
  state : Option String
  codeChallenge : String
  codeChallengeMethod : String
  scopes : List String
  resource : String
deriving DecidableEq, Repr

structure PendingApproval where
  requestId : String
  approvalUrl : String
deriving DecidableEq, Repr

structure CodeExchangeRequest where
  clientId : String
  clientSecret : String
  code : String
  redirectUri : String
  codeVerifier : String
  resource : String
deriving DecidableEq, Repr

structure RefreshExchangeRequest where
  clientId : String
  clientSecret : String
  refreshToken : String
  scopes : List String
  resource : String
deriving DecidableEq, Repr

inductive OAuthProviderError where
  | invalidRequest (message : String)
  | invalidClient
  | invalidGrant
  | invalidScope
  | temporarilyUnavailable
  | approvalNotFound
  | approvalDenied
  | store (error : OAuthStoreError)
  | url
deriving DecidableEq, Repr

/-- An entry of the `pending` map, with its key. -/
structure PendingAuthorization where
  requestId : String
  request : AuthorizationRequest
  scopes : List String
  expiresAt : Int
  failedAttempts : Nat
deriving DecidableEq, Repr

structure AuthorizationCodeRecord where
  code : String
  clientId : String
  redirectUri : String
  codeChallenge : String
  scopes : List String
  resource : String
  expiresAt : Int
deriving DecidableEq, Repr

structure OAuthState where
  pending : Table PendingAuthorization.requestId
  codes : Table AuthorizationCodeRecord.code
  exchanging : Table AuthorizationCodeRecord.code
deriving DecidableEq

def OAuthState.empty : OAuthState := ⟨.empty, .empty, .empty⟩

def OAuthState.discardExpired (now : Int) (state : OAuthState) : OAuthState where
  pending := state.pending.delete fun item => item.expiresAt < now
  codes := state.codes.delete fun item => item.expiresAt < now
  exchanging := state.exchanging.delete fun item => item.expiresAt < now

def authorizationTtlSeconds : Int := 300
def maxOwnerTokenAttempts : Nat := 5

variable (sha256 codeChallengeOf : String → String) (parsesUrl : String → Bool)

def constantTimeMatches (candidate expected : String) : Bool := sha256 candidate = sha256 expected

def verifyPkce (verifier challenge : String) : Bool :=
  constantTimeMatches sha256 (codeChallengeOf verifier) challenge

def validateScopes (scopes : List String) : Except OAuthProviderError Unit :=
  if ∀ scope ∈ scopes, scope ∈ allScopes then .ok () else .error .invalidScope

/-- `trim_end_matches('/')` and the suffix; a base URL that is configured always parses so. -/
def endpoint (base suffix : String) : String :=
  String.ofList (base.toList.reverse.dropWhile (· = '/')).reverse ++ suffix

def OAuthProviderConfig.resourceUrl (config : OAuthProviderConfig) : String :=
  endpoint config.publicBaseUrl "/mcp"

def authenticateClient (clientId clientSecret : String) (loaded : Option StoredClient) :
    Except OAuthProviderError Unit :=
  match loaded with
  | none => .error .invalidClient
  | some client =>
    if client.clientId = clientId ∧ constantTimeMatches sha256 clientSecret client.clientSecret then
      .ok ()
    else .error .invalidClient

/-! ## Authorization -/

/-- The scopes an authorization asks for. -/
def AuthorizationRequest.wanted (request : AuthorizationRequest) : List String :=
  if request.scopes.isEmpty then allScopes else request.scopes

/-- `begin_authorization` up to its lock section. -/
def checkAuthorization (config : OAuthProviderConfig) (request : AuthorizationRequest)
    (loaded : Option StoredClient) : Except OAuthProviderError (List String) := do
  if request.resource ≠ config.resourceUrl then
    .error (.invalidRequest "Unknown protected resource.")
  else if request.codeChallengeMethod ≠ "S256" ∨
      ¬(43 ≤ request.codeChallenge.utf8ByteSize ∧ request.codeChallenge.utf8ByteSize ≤ 128) then
    .error (.invalidRequest "PKCE S256 is required.")
  else
    match loaded with
    | none => .error .invalidClient
    | some client =>
      if request.redirectUri ∉ client.redirectUris then
        .error (.invalidRequest "redirect_uri does not match the registered client.")
      else do
        validateScopes request.wanted
        if ∀ scope ∈ request.wanted, scope ∈ splitWhitespace client.scope then
          .ok request.wanted
        else .error .invalidScope

/-- The lock section of `begin_authorization`. -/
def beginAuthorization (config : OAuthProviderConfig) (now : Int) (requestId : String)
    (request : AuthorizationRequest) (scopes : List String) (state : OAuthState) :
    Except OAuthProviderError PendingApproval × OAuthState :=
  let state := state.discardExpired now
  if state.pending.rows.length ≥ config.pendingAuthorizationLimit then
    (.error .temporarilyUnavailable, state)
  else
    (.ok ⟨requestId, endpoint config.publicBaseUrl "/oauth/approve" ++ "?request_id=" ++ requestId⟩,
      { state with
        pending := state.pending.put
          ⟨requestId, request, scopes, now + authorizationTtlSeconds, 0⟩ })

def pendingScopes (now : Int) (requestId : String) (state : OAuthState) :
    Option (List String) × OAuthState :=
  let state := state.discardExpired now
  ((state.pending.find requestId).map (·.scopes), state)

/-- Where the browser is sent with a new code. -/
structure Callback where
  redirectUri : String
  code : String
  issuer : String
  state : Option String
deriving DecidableEq, Repr

def countFailedAttempt (requestId : String) (pending : PendingAuthorization) (state : OAuthState) :
    OAuthState :=
  let failedAttempts := pending.failedAttempts + 1
  if failedAttempts ≥ maxOwnerTokenAttempts then
    { state with pending := state.pending.remove requestId }
  else
    { state with
      pending := state.pending.update (fun stored => stored.requestId = requestId)
        (fun stored => { stored with failedAttempts := failedAttempts }) (fun _ => rfl) }

def codeRecord (code : String) (now : Int) (pending : PendingAuthorization) :
    AuthorizationCodeRecord :=
  ⟨code, pending.request.clientId, pending.request.redirectUri, pending.request.codeChallenge,
    pending.scopes, pending.request.resource, now + authorizationTtlSeconds⟩

/-- The codes of a client, waiting or being exchanged. -/
def OAuthState.clientRetained (state : OAuthState) (clientId : String) : Nat :=
  state.codes.count (fun code => code.clientId = clientId) +
    state.exchanging.count (fun code => code.clientId = clientId)

def approve (config : OAuthProviderConfig) (now : Int) (requestId candidateOwnerToken code : String)
    (state : OAuthState) : Except OAuthProviderError Callback × OAuthState :=
  let state := state.discardExpired now
  match state.pending.find requestId with
  | none => (.error .approvalNotFound, state)
  | some pending =>
    if !constantTimeMatches sha256 candidateOwnerToken config.ownerToken then
      (.error .approvalDenied, countFailedAttempt requestId pending state)
    else if state.codes.rows.length + state.exchanging.rows.length ≥
          config.authorizationCodeLimit ∨
        state.clientRetained pending.request.clientId ≥
          config.authorizationCodePerClientLimit then
      (.error .temporarilyUnavailable, state)
    else
      let state := { state with
        pending := state.pending.remove requestId
        codes := state.codes.put (codeRecord code now pending) }
      -- the code is stored before its callback URL is parsed
      if parsesUrl pending.request.redirectUri then
        (.ok ⟨pending.request.redirectUri, code, endpoint config.publicBaseUrl "",
          pending.request.state⟩, state)
      else (.error .url, state)

/-! ## Token exchange -/

def tokenRecord (token clientId : String) (scopes : List String) (expiresAt : Int)
    (resource : Option String) : OAuthTokenRecord :=
  ⟨token, clientId, scopes, some expiresAt, resource, some "owner"⟩

def newTokenPair (config : OAuthProviderConfig) (now : Int) (clientId : String)
    (scopes : List String) (accessSecret refreshSecret : String) :
    OAuthTokenRecord × OAuthTokenRecord :=
  (tokenRecord accessSecret clientId scopes (now + config.accessTokenSeconds)
      (some config.resourceUrl),
    tokenRecord refreshSecret clientId scopes (now + config.refreshTokenSeconds) none)

structure OAuthTokenResponse where
  accessToken : String
  tokenType : String
  expiresIn : Int
  scope : String
  refreshToken : String
deriving DecidableEq, Repr

def tokenResponse (access refresh : OAuthTokenRecord) (accessTokenSeconds : Int) :
    OAuthTokenResponse :=
  ⟨access.token, "Bearer", accessTokenSeconds, " ".intercalate access.scopes, refresh.token⟩

/-- `exchange_code` up to the claim. -/
def checkCodeExchange (config : OAuthProviderConfig) (request : CodeExchangeRequest)
    (loaded : Option StoredClient) : Except OAuthProviderError Unit := do
  authenticateClient sha256 request.clientId request.clientSecret loaded
  if request.resource ≠ config.resourceUrl then .error .invalidGrant else .ok ()

/-- The filter of `claim_valid_code`. -/
def CodeExchangeRequest.names (request : CodeExchangeRequest) (code : AuthorizationCodeRecord) :
    Bool :=
  code.clientId = request.clientId ∧ code.redirectUri = request.redirectUri ∧
    code.resource = request.resource ∧
    verifyPkce sha256 codeChallengeOf request.codeVerifier code.codeChallenge

def claimValidCode (now : Int) (request : CodeExchangeRequest) (state : OAuthState) :
    Except OAuthProviderError AuthorizationCodeRecord × OAuthState :=
  let state := state.discardExpired now
  match (state.codes.find request.code).filter (request.names sha256 codeChallengeOf) with
  | none => (.error .invalidGrant, state)
  | some code =>
    (.ok code, { state with
      codes := state.codes.remove request.code
      exchanging := state.exchanging.put code })

def mapStoreError : OAuthStoreError → OAuthProviderError
  | .clientLimit => .temporarilyUnavailable
  | .tokenFamilyClientLimit => .temporarilyUnavailable
  | .tokenFamilyGlobalLimit => .temporarilyUnavailable
  | other => .store other

/-- The lock section after the store has answered. -/
def completeExchange (code : AuthorizationCodeRecord) (result : Except OAuthStoreError Unit)
    (state : OAuthState) : Except OAuthProviderError Unit × OAuthState :=
  let state := { state with exchanging := state.exchanging.remove code.code }
  match result with
  | .ok () => (.ok (), state)
  | .error error => (.error (mapStoreError error), { state with codes := state.codes.put code })

/-- `exchange_refresh` up to its look at the store. -/
def checkRefreshExchange (config : OAuthProviderConfig) (request : RefreshExchangeRequest)
    (loaded : Option StoredClient) : Except OAuthProviderError Unit := do
  authenticateClient sha256 request.clientId request.clientSecret loaded
  if request.resource ≠ config.resourceUrl then .error .invalidGrant else .ok ()

/-- What `exchange_refresh` makes of the record it loaded: the scopes of the next pair. -/
def refreshScopes (request : RefreshExchangeRequest) (existing : Option OAuthTokenRecord) :
    Except OAuthProviderError (OAuthTokenRecord × List String) :=
  match existing with
  | none => .error .invalidGrant
  | some existing =>
    if existing.clientId ≠ request.clientId then .error .invalidGrant
    else do
      let scopes := if request.scopes.isEmpty then existing.scopes else request.scopes
      validateScopes scopes
      if ∀ scope ∈ scopes, scope ∈ existing.scopes then .ok (existing, scopes)
      else .error .invalidScope

/-- The check of `authenticate_access` on the record it loaded. -/
def acceptAccess (config : OAuthProviderConfig) (now : Int) (loaded : Option OAuthTokenRecord) :
    Option OAuthTokenRecord :=
  loaded.filter fun record =>
    !(record.expiresAt.any (· ≤ now) ∨ record.resource ≠ some config.resourceUrl)

end CodexRemote.McpServer

/-! ## The calls of a registered client

`exchange_code`, `exchange_refresh` and `revoke` as whole calls, each run to its end.
-/

namespace CodexRemote.McpServer

open Foundations

/-- What a call reads from outside: the clock at its first section, for the new pair and at
its last section, and new secrets. -/
structure CallReads where
  first : Int
  minted : Int
  stored : Int
  access : String
  refresh : String
  family : String
deriving DecidableEq, Repr

structure TokenServer where
  store : OAuthStore
  state : OAuthState
deriving DecidableEq

inductive ClientCall where
  | exchangeCode (request : CodeExchangeRequest)
  | exchangeRefresh (request : RefreshExchangeRequest)
  | revoke (clientId clientSecret token : String)
deriving DecidableEq, Repr

/-- The client that a call authenticates as. -/
def ClientCall.clientId : ClientCall → String
  | .exchangeCode request => request.clientId
  | .exchangeRefresh request => request.clientId
  | .revoke clientId _ _ => clientId

def ClientCall.clientSecret : ClientCall → String
  | .exchangeCode request => request.clientSecret
  | .exchangeRefresh request => request.clientSecret
  | .revoke _ clientSecret _ => clientSecret

inductive ClientAnswer where
  | tokens (result : Except OAuthProviderError OAuthTokenResponse)
  | revoked (result : Except OAuthProviderError Unit)

variable (sha256 codeChallengeOf : String → String) (config : OAuthProviderConfig)
  (limits : OAuthStoreLimits)

def exchangeCode (reads : CallReads) (request : CodeExchangeRequest) (server : TokenServer) :
    Except OAuthProviderError OAuthTokenResponse × TokenServer :=
  match checkCodeExchange sha256 config request
      (getClientPayload request.clientId server.store) with
  | .error error => (.error error, server)
  | .ok () =>
    match claimValidCode sha256 codeChallengeOf reads.first request server.state with
    | (.error error, state) => (.error error, { server with state := state })
    | (.ok code, state) =>
      let (access, refresh) := newTokenPair config reads.minted code.clientId code.scopes
        reads.access reads.refresh
      let (result, db) := saveTokenPair sha256 limits reads.stored access refresh reads.family
        server.store.db
      let (answer, state) := completeExchange code result state
      (answer.map fun _ => tokenResponse access refresh config.accessTokenSeconds,
        ⟨{ server.store with db := db }, state⟩)

def exchangeRefresh (reads : CallReads) (request : RefreshExchangeRequest) (server : TokenServer) :
    Except OAuthProviderError OAuthTokenResponse × TokenServer :=
  match checkRefreshExchange sha256 config request
      (getClientPayload request.clientId server.store) with
  | .error error => (.error error, server)
  | .ok () =>
    -- a spent token has cost its family the live tokens before the client is compared
    let (existing, db) := loadRefreshToken sha256 reads.first request.refreshToken server.store.db
    match refreshScopes request existing with
    | .error error => (.error error, { server with store := { server.store with db := db } })
    | .ok (existing, scopes) =>
      let (access, refresh) := newTokenPair config reads.minted existing.clientId scopes
        reads.access reads.refresh
      let (outcome, db) := rotateTokenPair sha256 limits reads.stored existing.token access
        refresh db
      let answer : Except OAuthProviderError OAuthTokenResponse :=
        match outcome with
        | .error error => .error (.store error)
        | .ok .rotated => .ok (tokenResponse access refresh config.accessTokenSeconds)
        | .ok _ => .error .invalidGrant
      (answer, { server with store := { server.store with db := db } })

def revoke (reads : CallReads) (clientId clientSecret token : String) (server : TokenServer) :
    Except OAuthProviderError Unit × TokenServer :=
  match authenticateClient sha256 clientId clientSecret (getClientPayload clientId server.store) with
  | .error error => (.error error, server)
  | .ok () =>
    (.ok (), { server with
      store := { server.store with
        db := revokeFamily sha256 reads.first token server.store.db } })

def performCall (reads : CallReads) (server : TokenServer) :
    ClientCall → ClientAnswer × TokenServer
  | .exchangeCode request =>
    let (result, next) := exchangeCode sha256 codeChallengeOf config limits reads request server
    (.tokens result, next)
  | .exchangeRefresh request =>
    let (result, next) := exchangeRefresh sha256 config limits reads request server
    (.tokens result, next)
  | .revoke clientId clientSecret token =>
    let (result, next) := revoke sha256 reads clientId clientSecret token server
    (.revoked result, next)

end CodexRemote.McpServer

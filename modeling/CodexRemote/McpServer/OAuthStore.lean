import Mathlib.Data.Finset.Card
import CodexRemote.Foundations.Tables
import CodexRemote.Foundations.Transactions

/-! # The OAuth token store

Live tokens and spent refresh tokens, as `oauth_store` keeps them in SQLite.  Only
hashes of tokens are stored; the hash function is a parameter.
-/

namespace CodexRemote.McpServer

open Foundations

structure OAuthTokenRecord where
  token : String
  clientId : String
  scopes : List String
  expiresAt : Option Int
  resource : Option String
  subject : Option String
deriving DecidableEq, Repr

inductive RefreshRotationOutcome where
  | rotated
  | missing
  | replayed
  | historyExhausted
deriving DecidableEq, Repr

inductive OAuthStoreError where
  | configuration (message : String)
  | clientLimit
  | tokenFamilyClientLimit
  | tokenFamilyGlobalLimit
  | sqlite (message : String)
deriving DecidableEq, Repr

structure OAuthStoreLimits where
  maxClients : Int := 500
  maxTokenFamilies : Int := 256
  maxTokenFamiliesPerClient : Int := 16
  maxRefreshHistoryGlobal : Int := 65536
  maxRefreshHistoryPerFamily : Int := 1024
deriving DecidableEq, Repr

def OAuthStoreLimits.validate (limits : OAuthStoreLimits) :
    Except OAuthStoreError OAuthStoreLimits :=
  if limits.maxClients < 1 then
    .error (.configuration "OAuth client limit must be positive.")
  else if limits.maxTokenFamilies < 1 ∨ limits.maxTokenFamiliesPerClient < 1 then
    .error (.configuration "OAuth token family limits must be positive.")
  else if limits.maxTokenFamiliesPerClient > limits.maxTokenFamilies then
    .error (.configuration "The per-client token family limit cannot exceed the global limit.")
  else if limits.maxRefreshHistoryGlobal < 1 ∨ limits.maxRefreshHistoryPerFamily < 1 then
    .error (.configuration "OAuth refresh history limits must be positive.")
  else if limits.maxRefreshHistoryPerFamily > limits.maxRefreshHistoryGlobal then
    .error (.configuration "The per-family refresh history limit cannot exceed the global limit.")
  else .ok limits

/-- `oauth_tokens.token_kind` -/
inductive TokenKind where
  | access
  | refresh
deriving DecidableEq, Repr

/-- `oauth_tokens` -/
structure TokenRow where
  tokenHash : String
  tokenKind : TokenKind
  familyId : String
  clientId : String
  scopes : List String
  expiresAt : Option Int
  resource : Option String
  subject : Option String
deriving DecidableEq, Repr

/-- `oauth_refresh_history` -/
structure HistoryRow where
  tokenHash : String
  familyId : String
  expiresAt : Int
  usedAt : Int
deriving DecidableEq, Repr

structure OAuthDb where
  tokens : Table TokenRow.tokenHash
  history : Table HistoryRow.tokenHash
deriving DecidableEq

def OAuthDb.empty : OAuthDb := ⟨.empty, .empty⟩

def TokenRow.withPlaintext (row : TokenRow) (token : String) : OAuthTokenRecord :=
  ⟨token, row.clientId, row.scopes, row.expiresAt, row.resource, row.subject⟩

/-- `expires_at < now`; a token without expiry never expires. -/
def expired (now : Int) (expiresAt : Option Int) : Bool := expiresAt.any (· < now)

variable (tokenHash : String → String)

/-! ## Statements -/

/-- The row that `insert_token` writes. -/
def tokenRow (token : OAuthTokenRecord) (kind : TokenKind) (familyId : String) : TokenRow :=
  ⟨tokenHash token.token, kind, familyId, token.clientId, token.scopes, token.expiresAt,
    if kind = .access then token.resource else none, token.subject⟩

def insertToken (token : OAuthTokenRecord) (kind : TokenKind) (familyId : String) (db : OAuthDb) :
    Except OAuthStoreError OAuthDb :=
  match db.tokens.insert (tokenRow tokenHash token kind familyId) with
  | some tokens => .ok { db with tokens := tokens }
  | none => .error (.sqlite "UNIQUE constraint failed: oauth_tokens.token_hash")

def insertHistory (row : HistoryRow) (db : OAuthDb) : Except OAuthStoreError OAuthDb :=
  match db.history.insert row with
  | some history => .ok { db with history := history }
  | none => .error (.sqlite "UNIQUE constraint failed: oauth_refresh_history.token_hash")

def loadTokenRow (db : OAuthDb) (token : String) (kind : TokenKind) : Option TokenRow :=
  (db.tokens.find (tokenHash token)).filter fun row => row.tokenKind = kind

/-- `find_family` in `oauth_tokens` -/
def findTokenFamily (db : OAuthDb) (token : String) : Option String :=
  (db.tokens.find (tokenHash token)).map (·.familyId)

/-- `find_family` in `oauth_refresh_history` -/
def findHistoryFamily (db : OAuthDb) (token : String) : Option String :=
  (db.history.find (tokenHash token)).map (·.familyId)

def deleteFamily (familyId : String) (db : OAuthDb) : OAuthDb :=
  { db with tokens := db.tokens.delete fun row => row.familyId = familyId }

def deleteExpired (now : Int) (db : OAuthDb) : OAuthDb where
  tokens := db.tokens.delete fun row => expired now row.expiresAt
  history := db.history.delete fun row => row.expiresAt < now

/-- `UPDATE oauth_refresh_history SET expires_at = ? WHERE family_id = ?` -/
def extendHistory (familyId : String) (expiresAt : Int) (db : OAuthDb) : OAuthDb :=
  { db with
    history := db.history.update (fun row => row.familyId = familyId)
      (fun row => { row with expiresAt := expiresAt }) (fun _ => rfl) }

/-- The distinct families of a client's tokens, or of all. -/
def families (db : OAuthDb) (clientId : Option String) : Finset String :=
  ((db.tokens.select fun row => clientId.all (row.clientId = ·)).map (·.familyId)).toFinset

def familyCount (db : OAuthDb) (clientId : Option String) : Int := (families db clientId).card

def ensureFamilyRoom (limits : OAuthStoreLimits) (clientId familyId : String) (db : OAuthDb) :
    Except OAuthStoreError Unit :=
  if db.tokens.contains fun row => row.familyId = familyId then .ok ()
  else if familyCount db (some clientId) ≥ limits.maxTokenFamiliesPerClient then
    .error .tokenFamilyClientLimit
  else if familyCount db none ≥ limits.maxTokenFamilies then .error .tokenFamilyGlobalLimit
  else .ok ()

def historyCount (db : OAuthDb) (familyId : String) : Int :=
  db.history.count fun row => row.familyId = familyId

def historyAtCapacity (limits : OAuthStoreLimits) (familyId : String) (db : OAuthDb) : Bool :=
  historyCount db familyId ≥ limits.maxRefreshHistoryPerFamily ∨
    (db.history.rows.length : Int) ≥ limits.maxRefreshHistoryGlobal

/-! ## Operations -/

def saveTokenPairIn (limits : OAuthStoreLimits) (now : Int) (access refresh : OAuthTokenRecord)
    (familyId : String) (db : OAuthDb) : Except OAuthStoreError (Unit × OAuthDb) := do
  let db := deleteExpired now db
  ensureFamilyRoom limits access.clientId familyId db
  let db ← insertToken tokenHash access .access familyId db
  let db ← insertToken tokenHash refresh .refresh familyId db
  .ok ((), db)

def saveTokenPair (limits : OAuthStoreLimits) (now : Int) (access refresh : OAuthTokenRecord)
    (familyId : String) (db : OAuthDb) : Except OAuthStoreError Unit × OAuthDb :=
  commit (saveTokenPairIn tokenHash limits now access refresh familyId) db

/-- The part of `rotate_token_pair` that has found the presented token live. -/
def rotateFamily (limits : OAuthStoreLimits) (now successorExpiry : Int) (oldRefreshToken : String)
    (access refresh : OAuthTokenRecord) (familyId : String) (db : OAuthDb) :
    Except OAuthStoreError (RefreshRotationOutcome × OAuthDb) :=
  if historyAtCapacity limits familyId db then .ok (.historyExhausted, deleteFamily familyId db)
  else do
    let db := extendHistory familyId successorExpiry db
    let db ← insertHistory ⟨tokenHash oldRefreshToken, familyId, successorExpiry, now⟩ db
    let db := deleteFamily familyId db
    let db ← insertToken tokenHash access .access familyId db
    let db ← insertToken tokenHash refresh .refresh familyId db
    .ok (.rotated, db)

def rotateTokenPairIn (limits : OAuthStoreLimits) (now successorExpiry : Int)
    (oldRefreshToken : String) (access refresh : OAuthTokenRecord) (db : OAuthDb) :
    Except OAuthStoreError (RefreshRotationOutcome × OAuthDb) :=
  let db := deleteExpired now db
  match loadTokenRow tokenHash db oldRefreshToken .refresh with
  | some row =>
    rotateFamily tokenHash limits now successorExpiry oldRefreshToken access refresh row.familyId db
  | none =>
    match findHistoryFamily tokenHash db oldRefreshToken with
    | some familyId => .ok (.replayed, deleteFamily familyId db)
    | none => .ok (.missing, db)

def rotateTokenPair (limits : OAuthStoreLimits) (now : Int) (oldRefreshToken : String)
    (access refresh : OAuthTokenRecord) (db : OAuthDb) :
    Except OAuthStoreError RefreshRotationOutcome × OAuthDb :=
  match refresh.expiresAt with
  | none => (.error (.configuration "Rotated refresh tokens must expire."), db)
  | some successorExpiry =>
    commit (rotateTokenPairIn tokenHash limits now successorExpiry oldRefreshToken access refresh)
      db

def loadAccessToken (token : String) (db : OAuthDb) : Option OAuthTokenRecord :=
  (loadTokenRow tokenHash db token .access).map (·.withPlaintext token)

def loadRefreshToken (now : Int) (token : String) (db : OAuthDb) :
    Option OAuthTokenRecord × OAuthDb :=
  let db := deleteExpired now db
  match loadTokenRow tokenHash db token .refresh with
  | some row => (some (row.withPlaintext token), db)
  | none =>
    match findHistoryFamily tokenHash db token with
    | some familyId => (none, deleteFamily familyId db)
    | none => (none, db)

def revokeFamily (now : Int) (token : String) (db : OAuthDb) : OAuthDb :=
  let db := deleteExpired now db
  match findTokenFamily tokenHash db token <|> findHistoryFamily tokenHash db token with
  | some familyId => deleteFamily familyId db
  | none => db

def countTokenFamilies (now : Int) (clientId : Option String) (db : OAuthDb) : Int × OAuthDb :=
  let db := deleteExpired now db
  (familyCount db clientId, db)

end CodexRemote.McpServer

/-! ## Registered OAuth clients -/

namespace CodexRemote.McpServer

open Foundations

/-- The payload of a registration, as `load_client` reads it. -/
structure StoredClient where
  clientId : String
  clientSecret : String
  redirectUris : List String
  scope : String
deriving DecidableEq, Repr

/-- `oauth_clients` -/
structure ClientRow where
  clientId : String
  payload : StoredClient
  createdAt : Int
deriving DecidableEq, Repr

/-- The database of the store: clients beside tokens and history. -/
structure OAuthStore where
  clients : Table ClientRow.clientId
  db : OAuthDb
deriving DecidableEq

def OAuthStore.empty : OAuthStore := ⟨.empty, .empty⟩

def getClientPayload (clientId : String) (store : OAuthStore) : Option StoredClient :=
  (store.clients.find clientId).map (·.payload)

/-- A client with a token that has not expired keeps its registration. -/
def clientActive (now : Int) (db : OAuthDb) (clientId : String) : Bool :=
  db.tokens.contains fun row => row.clientId = clientId ∧ ¬expired now row.expiresAt

def makeClientRoom (maxClients now : Int) (store : OAuthStore) :
    Except OAuthStoreError OAuthStore :=
  let required := (store.clients.rows.length : Int) - maxClients + 1
  if required ≤ 0 then .ok store
  else
    -- `ORDER BY created_at, rowid`: the sort is stable and rows stand in the order of their ids
    let inactive := ((store.clients.rows.filter fun row =>
      !clientActive now store.db row.clientId).mergeSort fun a b => a.createdAt ≤ b.createdAt).take
        required.toNat
    if (inactive.length : Int) < required then .error .clientLimit
    else .ok { store with
      clients := store.clients.delete fun row => row.clientId ∈ inactive.map (·.clientId) }

def saveClientPayloadIn (limits : OAuthStoreLimits) (now : Int) (clientId : String)
    (payload : StoredClient) (store : OAuthStore) : Except OAuthStoreError (Unit × OAuthStore) :=
  if clientId.isEmpty then .error (.configuration "OAuth client_id is required.")
  else
    let store := { store with db := deleteExpired now store.db }
    -- the two cases of `ON CONFLICT(client_id) DO UPDATE`
    if (store.clients.find clientId).isSome then
      .ok ((), { store with
        clients := store.clients.update (fun row => row.clientId = clientId)
          (fun row => { row with payload := payload }) (fun _ => rfl) })
    else do
      let store ← makeClientRoom limits.maxClients now store
      .ok ((), { store with clients := store.clients.insertOrIgnore ⟨clientId, payload, now⟩ })

def saveClientPayload (limits : OAuthStoreLimits) (now : Int) (clientId : String)
    (payload : StoredClient) (store : OAuthStore) : Except OAuthStoreError Unit × OAuthStore :=
  commit (saveClientPayloadIn limits now clientId payload) store

end CodexRemote.McpServer

import CodexRemote.Verified.OAuthProvider.Grants
import CodexRemote.Verified.OAuthStore.Owners

/-! # What the calls of one client do to the others

A code is claimed and a live refresh token is used only by the client it was issued to.
A family that the revocation endpoint is shown a token of, and a family that a spent refresh
token belongs to, are deleted whosever they are.
-/

namespace CodexRemote.Verified.OAuthProvider

open Foundations McpServer
open Verified.OAuthStore (Owned Fewer NewHash NewFamily PairNew fewer_swept
  saveTokenPair_move rotateTokenPair_move loadTokenRow_live loadTokenRow_mem loadTokenRow_same mem_swept
  mem_deleteFamily pairRows expired_mono)

variable {setting : Setting} {reads : CallReads} {server next : TokenServer}

abbrev perform (setting : Setting) (reads : CallReads) (call : ClientCall) (server : TokenServer) :
    ClientAnswer × TokenServer :=
  performCall setting.sha256 setting.codeChallengeOf setting.config setting.limits reads server call

abbrev Calls := List (CallReads × ClientCall)

/-- A condition on every call of a sequence and the state that it meets. -/
def Throughout (setting : Setting) (condition : CallReads → ClientCall → TokenServer → Prop) :
    Calls → TokenServer → Prop
  | [], _ => True
  | (reads, call) :: rest, server =>
    condition reads call server ∧
      Throughout setting condition rest (perform setting reads call server).2

def Authenticated (setting : Setting) (call : ClientCall) (server : TokenServer) : Prop :=
  authenticateClient setting.sha256 call.clientId call.clientSecret
    (getClientPayload call.clientId server.store) = .ok ()

/-- New secrets: no stored hash is one of theirs, and no family has the new id. -/
structure NewReads (setting : Setting) (reads : CallReads) (db : OAuthDb) : Prop where
  access : NewHash db (setting.sha256 reads.access)
  refresh : NewHash db (setting.sha256 reads.refresh)
  apart : setting.sha256 reads.access ≠ setting.sha256 reads.refresh
  family : NewFamily db reads.family

/-- The family that a call deletes without a look at whose it is. -/
def uncheckedFamily (setting : Setting) (reads : CallReads) (server : TokenServer) :
    ClientCall → Option String
  | .exchangeCode _ => none
  | .exchangeRefresh request =>
    let db := deleteExpired reads.first server.store.db
    if request.resource = setting.config.resourceUrl ∧
        loadTokenRow setting.sha256 db request.refreshToken .refresh = none then
      findHistoryFamily setting.sha256 db request.refreshToken
    else none
  | .revoke _ _ token =>
    let db := deleteExpired reads.first server.store.db
    findTokenFamily setting.sha256 db token <|> findHistoryFamily setting.sha256 db token

/-- Neither time of the call is past the expiry. -/
def Within (reads : CallReads) (expiresAt : Option Int) : Prop :=
  expired reads.first expiresAt = false ∧ expired reads.stored expiresAt = false

/-- What a call of one client does to the tokens of all others. -/
structure OthersTokens (client : String) (reads : CallReads) (gone : Option String)
    (db next : OAuthDb) : Prop where
  back : ∀ row ∈ next.tokens.rows, row.clientId ≠ client →
    row ∈ db.tokens.rows ∧ gone ≠ some row.familyId
  kept : ∀ row ∈ db.tokens.rows, row.clientId ≠ client → Within reads row.expiresAt →
    gone ≠ some row.familyId → row ∈ next.tokens.rows
  owned : Owned next

variable {client : String} {db : OAuthDb} {scopes : List String} {now : Int}
  {request : CodeExchangeRequest} {state : OAuthState}

theorem othersTokens_same (owned : Owned db) :
    OthersTokens client reads none db db :=
  ⟨fun _ present _ => ⟨present, nofun⟩, fun _ present _ _ _ => present, owned⟩

theorem othersTokens_swept (owned : Owned db) :
    OthersTokens client reads none db (deleteExpired reads.first db) :=
  ⟨fun _ present _ => ⟨(mem_swept.1 present).1, nofun⟩,
    fun _ present _ within _ => mem_swept.2 ⟨present, within.1⟩, owned.fewer (fewer_swept _ _)⟩

theorem othersTokens_deleted {familyId : String} (owned : Owned db) :
    OthersTokens client reads (some familyId) db
      (deleteFamily familyId (deleteExpired reads.first db)) := by
  refine ⟨?_, ?_, owned.fewer ((fewer_swept _ _).deleteFamily _)⟩
  · intro row present _
    obtain ⟨swept, apart⟩ := mem_deleteFamily.1 present
    exact ⟨(mem_swept.1 swept).1, fun same => apart (Option.some.inj same).symm⟩
  · intro row present _ within spared
    exact mem_deleteFamily.2 ⟨mem_swept.2 ⟨present, within.1⟩, fun same => spared (by rw [same])⟩

/-- The rows of a pair belong to the client it was made for. -/
theorem pairRows_client {familyId : String} {row : TokenRow} (made : row ∈ pairRows setting.sha256
      (newTokenPair setting.config reads.minted client scopes reads.access reads.refresh).1
      (newTokenPair setting.config reads.minted client scopes reads.access reads.refresh).2
      familyId) : row.clientId = client := by
  simp only [pairRows, List.mem_cons, List.not_mem_nil, or_false] at made
  obtain rfl | rfl := made <;> rfl

theorem NewReads.pair (new : NewReads setting reads db) (client : String) (scopes : List String) :
    PairNew setting.sha256 db
      (newTokenPair setting.config reads.minted client scopes reads.access reads.refresh).1
      (newTokenPair setting.config reads.minted client scopes reads.access reads.refresh).2 :=
  ⟨rfl, new.access, new.refresh⟩

theorem NewReads.fewer {after : OAuthDb} (new : NewReads setting reads db)
    (fewer : Fewer db after) : NewReads setting reads after :=
  ⟨new.access.fewer fewer, new.refresh.fewer fewer, new.apart, new.family.fewer fewer⟩

/-- Saving a pair sweeps, and adds rows of the client that the pair is for. -/
theorem saved_others {after : OAuthDb}
    {result : Except OAuthStoreError Unit} (owned : Owned db) (new : NewReads setting reads db)
    (call : saveTokenPair setting.sha256 setting.limits reads.stored
      (newTokenPair setting.config reads.minted client scopes reads.access reads.refresh).1
      (newTokenPair setting.config reads.minted client scopes reads.access reads.refresh).2
      reads.family db = (result, after)) : OthersTokens client reads none db after := by
  cases saveTokenPair_move call with
  | unsaved => exact othersTokens_same owned
  | saved room history tokens =>
    refine ⟨?_, ?_, owned.saved (new.pair client scopes) new.family history tokens⟩
    · intro row present foreign
      rw [tokens, List.mem_append] at present
      obtain before | made := present
      · exact ⟨(mem_swept.1 before).1, nofun⟩
      · exact absurd (pairRows_client made) foreign
    · intro row present foreign within _
      rw [tokens]
      exact List.mem_append_left _ (mem_swept.2 ⟨present, within.2⟩)

/-- Rotating a client's own live token touches no family of another client. -/
theorem rotated_others {token : String} {row : TokenRow}
    {after : OAuthDb} {result : Except OAuthStoreError RefreshRotationOutcome}
    (owned : Owned db) (new : NewReads setting reads db)
    (live : loadTokenRow setting.sha256 (deleteExpired reads.first db) token .refresh = some row)
    (own : row.clientId = client)
    (call : rotateTokenPair setting.sha256 setting.limits reads.stored token
      (newTokenPair setting.config reads.minted client scopes reads.access reads.refresh).1
      (newTokenPair setting.config reads.minted client scopes reads.access reads.refresh).2
      (deleteExpired reads.first db) = (result, after)) :
    OthersTokens client reads none db after := by
  have fewer := fewer_swept reads.first db
  obtain ⟨stored, unexpired, hash, kind⟩ := loadTokenRow_live live
  have ownedNow := owned.fewer fewer
  have present : row ∈ (deleteExpired reads.first db).tokens.rows := mem_swept.2 ⟨stored, unexpired⟩
  cases rotateTokenPair_move call with
  | unrotated cause => exact othersTokens_swept owned
  | missing gone unspent =>
    refine ⟨?_, ?_, ownedNow.fewer (fewer_swept _ _)⟩
    · intro other kept _
      exact ⟨fewer.tokens other (mem_swept.1 kept).1, nofun⟩
    · intro other before _ within _
      exact mem_swept.2 ⟨mem_swept.2 ⟨before, within.1⟩, within.2⟩
  | replayed gone spent =>
    have none_ := @Owned.unfound _ reads.stored _ ownedNow _ _ present hash
    rw [none_] at spent
    cases spent
  | exhausted again =>
    cases loadTokenRow_same present hash again
    refine ⟨?_, ?_, ownedNow.fewer ((fewer_swept _ _).deleteFamily _)⟩
    · intro other kept _
      exact ⟨fewer.tokens other (mem_swept.1 (mem_deleteFamily.1 kept).1).1, nofun⟩
    · intro other before foreign within _
      refine mem_deleteFamily.2 ⟨mem_swept.2 ⟨mem_swept.2 ⟨before, within.1⟩, within.2⟩, ?_⟩
      intro family
      exact foreign ((owned.oneClient other before row stored family).trans own)
  | rotated again room expires history tokens =>
    cases loadTokenRow_same present hash again
    refine ⟨?_, ?_, ownedNow.rotated ((new.fewer fewer).pair client scopes) again history tokens⟩
    · intro other kept foreign
      rw [tokens, List.mem_append] at kept
      obtain left | made := kept
      · exact ⟨fewer.tokens other (mem_swept.1 (mem_deleteFamily.1 left).1).1, nofun⟩
      · exact absurd (pairRows_client made) foreign
    · intro other before foreign within _
      rw [tokens]
      refine List.mem_append_left _ (mem_deleteFamily.2
        ⟨mem_swept.2 ⟨mem_swept.2 ⟨before, within.1⟩, within.2⟩, ?_⟩)
      intro family
      exact foreign ((owned.oneClient other before row stored family).trans own)

/-! ## Whole calls -/

theorem checkCodeExchange_authenticated {request : CodeExchangeRequest}
    {loaded : Option StoredClient} (authenticated :
      authenticateClient setting.sha256 request.clientId request.clientSecret loaded = .ok ()) :
    checkCodeExchange setting.sha256 setting.config request loaded =
      if request.resource ≠ setting.config.resourceUrl then .error .invalidGrant else .ok () := by
  simp only [checkCodeExchange, authenticated]
  rfl

theorem checkRefreshExchange_authenticated {request : RefreshExchangeRequest}
    {loaded : Option StoredClient} (authenticated :
      authenticateClient setting.sha256 request.clientId request.clientSecret loaded = .ok ()) :
    checkRefreshExchange setting.sha256 setting.config request loaded =
      if request.resource ≠ setting.config.resourceUrl then .error .invalidGrant else .ok () := by
  simp only [checkRefreshExchange, authenticated]
  rfl

theorem claimed_client {after : OAuthState} {code : AuthorizationCodeRecord}
    (claim : claimValidCode setting.sha256 setting.codeChallengeOf now request state =
      (.ok code, after)) : code.clientId = request.clientId := by
  obtain ⟨failed, _⟩ | ⟨_, same, _, _, names, _⟩ := claimValidCode_cases claim
  · cases failed
  · cases same
    simp only [CodeExchangeRequest.names, decide_eq_true_eq] at names
    exact names.1

theorem exchangeCode_others (owned : Owned server.store.db)
    (new : NewReads setting reads server.store.db) :
    OthersTokens request.clientId reads none server.store.db
      (exchangeCode setting.sha256 setting.codeChallengeOf setting.config setting.limits reads
        request server).2.store.db := by
  simp only [exchangeCode]
  cases checkCodeExchange setting.sha256 setting.config request
      (getClientPayload request.clientId server.store) with
  | error error => exact othersTokens_same owned
  | ok _ =>
    cases claim : claimValidCode setting.sha256 setting.codeChallengeOf reads.first request
        server.state with
    | mk result state =>
      cases result with
      | error error => exact othersTokens_same owned
      | ok code =>
        cases saved : saveTokenPair setting.sha256 setting.limits reads.stored
            (newTokenPair setting.config reads.minted code.clientId code.scopes reads.access
              reads.refresh).1
            (newTokenPair setting.config reads.minted code.clientId code.scopes reads.access
              reads.refresh).2 reads.family server.store.db with
        | mk outcome db =>
          rw [← claimed_client claim]
          simp only [saved]
          exact saved_others owned new saved

theorem refreshScopes_client {request : RefreshExchangeRequest}
    {existing : Option OAuthTokenRecord} {record : OAuthTokenRecord}
    (checked : refreshScopes request existing = .ok (record, scopes)) :
    existing = some record ∧ record.clientId = request.clientId := by
  obtain ⟨rfl, _⟩ := refreshScopes_ok checked
  simp only [refreshScopes, ite_ok, reduceCtorEq, and_false, false_or] at checked
  exact ⟨rfl, by simpa using checked.1⟩

theorem exchangeRefresh_others {request : RefreshExchangeRequest} (owned : Owned server.store.db)
    (new : NewReads setting reads server.store.db)
    (authenticated : Authenticated setting (.exchangeRefresh request) server) :
    OthersTokens request.clientId reads
      (uncheckedFamily setting reads server (.exchangeRefresh request)) server.store.db
      (exchangeRefresh setting.sha256 setting.config setting.limits reads request
        server).2.store.db := by
  have passed := @checkRefreshExchange_authenticated setting request
    (getClientPayload request.clientId server.store) authenticated
  simp only [exchangeRefresh, passed, uncheckedFamily]
  by_cases resource : request.resource = setting.config.resourceUrl
  · simp only [resource, ne_eq, not_true_eq_false, if_false, true_and, loadRefreshToken]
    cases live : loadTokenRow setting.sha256 (deleteExpired reads.first server.store.db)
        request.refreshToken .refresh with
    | none =>
      cases spent : findHistoryFamily setting.sha256
          (deleteExpired reads.first server.store.db) request.refreshToken with
      | none =>
        simp only [if_true]
        exact othersTokens_swept owned
      | some familyId =>
        simp only [if_true]
        exact othersTokens_deleted owned
    | some row =>
      simp only [reduceCtorEq, if_false]
      cases checked : refreshScopes request (some (row.withPlaintext request.refreshToken)) with
      | error error => exact othersTokens_swept owned
      | ok found =>
        obtain ⟨record, scopes⟩ := found
        obtain ⟨same, own⟩ := refreshScopes_client checked
        cases same
        have client : row.clientId = request.clientId := own
        simp only [TokenRow.withPlaintext, client]
        cases rotated : rotateTokenPair setting.sha256 setting.limits reads.stored
            request.refreshToken
            (newTokenPair setting.config reads.minted request.clientId scopes reads.access
              reads.refresh).1
            (newTokenPair setting.config reads.minted request.clientId scopes reads.access
              reads.refresh).2 (deleteExpired reads.first server.store.db) with
        | mk outcome db => exact rotated_others owned new live client rotated
  · simp only [resource, ne_eq, not_false_eq_true, if_true, false_and, if_false]
    exact othersTokens_same owned

theorem revoke_others {clientId clientSecret token : String} (owned : Owned server.store.db)
    (authenticated : Authenticated setting (.revoke clientId clientSecret token) server) :
    OthersTokens clientId reads
      (uncheckedFamily setting reads server (.revoke clientId clientSecret token)) server.store.db
      (revoke setting.sha256 reads clientId clientSecret token server).2.store.db := by
  have passed : authenticateClient setting.sha256 clientId clientSecret
      (getClientPayload clientId server.store) = .ok () := authenticated
  simp only [revoke, passed, uncheckedFamily, revokeFamily]
  cases findTokenFamily setting.sha256 (deleteExpired reads.first server.store.db) token <|>
      findHistoryFamily setting.sha256 (deleteExpired reads.first server.store.db) token with
  | none => exact othersTokens_swept owned
  | some familyId => exact othersTokens_deleted owned

theorem perform_others {call : ClientCall} (owned : Owned server.store.db)
    (new : NewReads setting reads server.store.db)
    (authenticated : Authenticated setting call server) :
    OthersTokens call.clientId reads (uncheckedFamily setting reads server call) server.store.db
      (perform setting reads call server).2.store.db := by
  cases call with
  | exchangeCode request => exact exchangeCode_others owned new
  | exchangeRefresh request => exact exchangeRefresh_others owned new authenticated
  | revoke clientId clientSecret token => exact revoke_others owned authenticated

/-! ## Codes -/

/-- What a call of one client does to the codes of all others. -/
structure OthersCodes (client : String) (now : Int) (state after : OAuthState) : Prop where
  back : ∀ code ∈ after.codes.rows, code.clientId ≠ client → code ∈ state.codes.rows
  kept : ∀ code ∈ state.codes.rows, code.clientId ≠ client → now ≤ code.expiresAt →
    code ∈ after.codes.rows

theorem othersCodes_same :
    OthersCodes client now state state :=
  ⟨fun _ present _ => present, fun _ present _ _ => present⟩

theorem othersCodes_swept :
    OthersCodes client now state (state.discardExpired now) :=
  ⟨fun _ present _ => (mem_discard_codes.1 present).1,
    fun _ present _ unexpired => mem_discard_codes.2 ⟨present, unexpired⟩⟩

/-- A claim takes a code of its own client out, and a failed exchange brings the same code back. -/
theorem claimed_others {middle after : OAuthState}
    {code : AuthorizationCodeRecord} {result : Except OAuthStoreError Unit}
    {answer : Except OAuthProviderError Unit}
    (claim : claimValidCode setting.sha256 setting.codeChallengeOf now request state =
      (.ok code, middle))
    (completed : completeExchange code result middle = (answer, after)) :
    OthersCodes request.clientId now state after := by
  have own := claimed_client claim
  obtain ⟨failed, _⟩ | ⟨_, same, present, named, _, rfl⟩ := claimValidCode_cases claim
  · cases failed
  cases same
  -- the code of another client has another key than the claimed one
  have apart : ∀ other ∈ (state.discardExpired now).codes.rows, other.clientId ≠ request.clientId →
      other.code ≠ code.code := by
    intro other stored foreign key
    have one := Table.find_of_mem stored
    rw [key, Table.find_of_mem present] at one
    cases one
    exact foreign own
  have codes : ∀ other, other.clientId ≠ request.clientId →
      (other ∈ after.codes.rows ↔ other ∈ (state.discardExpired now).codes.rows) := by
    intro other foreign
    cases result with
    | ok _ =>
      cases completed
      simp only [Table.mem_remove, ← named]
      exact ⟨fun left => left.1, fun stored => ⟨stored, apart other stored foreign⟩⟩
    | error error =>
      cases completed
      simp only [Table.mem_put, Table.mem_remove, ← named]
      constructor
      · rintro (left | rfl)
        · exact left.1.1
        · exact absurd own foreign
      · intro stored
        have other_ := apart other stored foreign
        exact Or.inl ⟨⟨stored, other_⟩, other_⟩
  constructor
  · intro other stored foreign
    exact (mem_discard_codes.1 ((codes other foreign).1 stored)).1
  · intro other stored foreign unexpired
    exact (codes other foreign).2 (mem_discard_codes.2 ⟨stored, unexpired⟩)

theorem exchangeCode_codes :
    OthersCodes request.clientId reads.first server.state
      (exchangeCode setting.sha256 setting.codeChallengeOf setting.config setting.limits reads
        request server).2.state := by
  simp only [exchangeCode]
  cases checkCodeExchange setting.sha256 setting.config request
      (getClientPayload request.clientId server.store) with
  | error error => exact othersCodes_same
  | ok _ =>
    cases claim : claimValidCode setting.sha256 setting.codeChallengeOf reads.first request
        server.state with
    | mk result state =>
      cases result with
      | error error =>
        obtain ⟨_, rfl⟩ | ⟨_, failed, _⟩ := claimValidCode_cases claim
        · exact othersCodes_swept
        · cases failed
      | ok code => exact claimed_others claim rfl

theorem perform_codes {call : ClientCall} :
    OthersCodes call.clientId reads.first server.state (perform setting reads call server).2.state := by
  cases call with
  | exchangeCode request => exact exchangeCode_codes
  | exchangeRefresh request =>
    have same : (perform setting reads (.exchangeRefresh request) server).2.state =
        server.state := by
      simp only [perform, performCall, exchangeRefresh]
      split
      · rfl
      · split <;> rfl
    rw [same]
    exact othersCodes_same
  | revoke clientId clientSecret token =>
    have same : (perform setting reads (.revoke clientId clientSecret token) server).2.state =
        server.state := by
      simp only [perform, performCall, revoke]
      split <;> rfl
    rw [same]
    exact othersCodes_same

/-! ## Sequences of calls -/

def liveTokens (client : String) (now : Int) (server : TokenServer) : List TokenRow :=
  server.store.db.tokens.select fun row => row.clientId = client ∧ expired now row.expiresAt = false

def unexpiredCodes (client : String) (now : Int) (server : TokenServer) :
    List AuthorizationCodeRecord :=
  server.state.codes.select fun code => code.clientId = client ∧ now ≤ code.expiresAt

structure SameHoldings (client : String) (now : Int) (server next : TokenServer) : Prop where
  tokens : ∀ row, row ∈ liveTokens client now next ↔ row ∈ liveTokens client now server
  codes : ∀ code, code ∈ unexpiredCodes client now next ↔ code ∈ unexpiredCodes client now server

/-- A call that authenticates as the client, with new secrets. -/
structure By (setting : Setting) (client : String) (reads : CallReads) (call : ClientCall)
    (server : TokenServer) : Prop where
  client : call.clientId = client
  authenticated : Authenticated setting call server
  new : NewReads setting reads server.store.db

/-- The call happens before anything expires that the client has live at the given time. -/
structure Lasting (client : String) (now : Int) (reads : CallReads) (server : TokenServer) :
    Prop where
  tokens : ∀ row ∈ liveTokens client now server, Within reads row.expiresAt
  codes : ∀ code ∈ unexpiredCodes client now server, reads.first ≤ code.expiresAt

theorem mem_liveTokens {row : TokenRow} :
    row ∈ liveTokens client now server ↔
      row ∈ server.store.db.tokens.rows ∧ row.clientId = client ∧
        expired now row.expiresAt = false := by
  simp [liveTokens, Table.select]

theorem mem_unexpiredCodes {code : AuthorizationCodeRecord} :
    code ∈ unexpiredCodes client now server ↔
      code ∈ server.state.codes.rows ∧ code.clientId = client ∧ now ≤ code.expiresAt := by
  simp [unexpiredCodes, Table.select]

section

variable {other client : String} {now : Int} {call : ClientCall} {calls : Calls}

/-- One call of another client adds nothing to what a client holds. -/
theorem By.back (by_ : By setting other reads call server) (owned : Owned server.store.db)
    (apart : other ≠ client) :
    (∀ row ∈ liveTokens client now (perform setting reads call server).2,
      row ∈ liveTokens client now server ∧
        uncheckedFamily setting reads server call ≠ some row.familyId) ∧
    ∀ code ∈ unexpiredCodes client now (perform setting reads call server).2,
      code ∈ unexpiredCodes client now server := by
  have tokens := perform_others owned by_.new by_.authenticated
  have codes := @perform_codes setting reads server call
  rw [by_.client] at tokens codes
  constructor
  · intro row live
    obtain ⟨present, mine, unexpired⟩ := mem_liveTokens.1 live
    obtain ⟨before, spared⟩ := tokens.back row present (mine ▸ apart.symm)
    exact ⟨mem_liveTokens.2 ⟨before, mine, unexpired⟩, spared⟩
  · intro code live
    obtain ⟨present, mine, unexpired⟩ := mem_unexpiredCodes.1 live
    exact mem_unexpiredCodes.2 ⟨codes.back code present (mine ▸ apart.symm), mine, unexpired⟩

/-- One call that spares a client takes nothing from it. -/
theorem By.kept (by_ : By setting other reads call server) (owned : Owned server.store.db)
    (apart : other ≠ client) (lasting : Lasting client now reads server) :
    (∀ row ∈ liveTokens client now server,
      uncheckedFamily setting reads server call ≠ some row.familyId →
        row ∈ liveTokens client now (perform setting reads call server).2) ∧
    ∀ code ∈ unexpiredCodes client now server,
      code ∈ unexpiredCodes client now (perform setting reads call server).2 := by
  have tokens := perform_others owned by_.new by_.authenticated
  have codes := @perform_codes setting reads server call
  rw [by_.client] at tokens codes
  constructor
  · intro row live spared
    obtain ⟨present, mine, unexpired⟩ := mem_liveTokens.1 live
    exact mem_liveTokens.2 ⟨tokens.kept row present (mine ▸ apart.symm) (lasting.tokens row live)
      spared, mine, unexpired⟩
  · intro code live
    obtain ⟨present, mine, unexpired⟩ := mem_unexpiredCodes.1 live
    exact mem_unexpiredCodes.2 ⟨codes.kept code present (mine ▸ apart.symm)
      (lasting.codes code live), mine, unexpired⟩

theorem By.owned (by_ : By setting other reads call server) (owned : Owned server.store.db) :
    Owned (perform setting reads call server).2.store.db :=
  (perform_others owned by_.new by_.authenticated).owned

end

end CodexRemote.Verified.OAuthProvider

import CodexRemote.Verified.OAuthProvider.Isolation

/-! # Isolation of registered clients

The answer of a later call depends on the client's own holdings, on the client's
registration, and on limits that all clients share.
-/

namespace CodexRemote.Verified.OAuthProvider

open Foundations McpServer
open Verified.OAuthStore (Owned NewHash NewFamily fewer_swept saveTokenPair_new
  rotateTokenPair_new loadTokenRow_live loadTokenRow_mem loadTokenRow_same
  loadTokenRow_some mem_swept expired_mono)

variable {setting : Setting} {reads : CallReads} {server next : TokenServer} {client : String}
  {now : Int}

/-! ## What a call finds of its client's -/

/-- The live refresh token that a request presents, if it is the client's own. -/
def ownRefresh (setting : Setting) (reads : CallReads) (request : RefreshExchangeRequest)
    (server : TokenServer) : Option TokenRow :=
  (loadTokenRow setting.sha256 (deleteExpired reads.first server.store.db) request.refreshToken
    .refresh).filter fun row => row.clientId = request.clientId

def ownCode (setting : Setting) (reads : CallReads) (request : CodeExchangeRequest)
    (server : TokenServer) : Option AuthorizationCodeRecord :=
  ((server.state.discardExpired reads.first).codes.find request.code).filter
    (request.names setting.sha256 setting.codeChallengeOf)

/-- The record of the client's that an access token is accepted for. -/
def ownAccess (setting : Setting) (client : String) (at_ : Int) (token : String)
    (server : TokenServer) : Option OAuthTokenRecord :=
  (acceptAccess setting.config at_ (loadAccessToken setting.sha256 token server.store.db)).filter
    fun record => record.clientId = client

theorem expired_later {earlier : Int} {expiresAt : Option Int} (later : earlier ≤ now)
    (unexpired : expired now expiresAt = false) : expired earlier expiresAt = false := by
  cases before : expired earlier expiresAt with
  | false => rfl
  | true =>
    rw [expired_mono later before] at unexpired
    cases unexpired

variable {request : RefreshExchangeRequest} {call : ClientCall}

theorem ownRefresh_some {row : TokenRow} :
    ownRefresh setting reads request server = some row ↔
      row ∈ server.store.db.tokens.rows ∧ expired reads.first row.expiresAt = false ∧
        row.tokenHash = setting.sha256 request.refreshToken ∧ row.tokenKind = .refresh ∧
        row.clientId = request.clientId := by
  simp only [ownRefresh, Option.filter_eq_some_iff, decide_eq_true_eq]
  constructor
  · rintro ⟨live, own⟩
    obtain ⟨stored, unexpired, hash, kind⟩ := loadTokenRow_live live
    exact ⟨stored, unexpired, hash, kind, own⟩
  · rintro ⟨stored, unexpired, hash, kind, own⟩
    refine ⟨?_, own⟩
    rw [← kind]
    exact loadTokenRow_mem stored unexpired hash

theorem ownCode_some {request : CodeExchangeRequest} {code : AuthorizationCodeRecord} :
    ownCode setting reads request server = some code ↔
      code ∈ server.state.codes.rows ∧ reads.first ≤ code.expiresAt ∧ code.code = request.code ∧
        request.names setting.sha256 setting.codeChallengeOf code = true := by
  simp only [ownCode, Option.filter_eq_some_iff, Table.find_some_iff, mem_discard_codes]
  tauto

section

variable (same : SameHoldings client now server next)
include same

theorem SameHoldings.refresh (own : request.clientId = client) (later : now ≤ reads.first) :
    ownRefresh setting reads request next = ownRefresh setting reads request server := by
  ext row
  simp only [ownRefresh_some]
  have held := same.tokens row
  simp only [mem_liveTokens] at held
  constructor
  · rintro ⟨stored, unexpired, rest⟩
    have live := held.1 ⟨stored, rest.2.2.trans own, expired_later later unexpired⟩
    exact ⟨live.1, unexpired, rest⟩
  · rintro ⟨stored, unexpired, rest⟩
    have live := held.2 ⟨stored, rest.2.2.trans own, expired_later later unexpired⟩
    exact ⟨live.1, unexpired, rest⟩

theorem SameHoldings.code {request : CodeExchangeRequest} (own : request.clientId = client)
    (later : now ≤ reads.first) :
    ownCode setting reads request next = ownCode setting reads request server := by
  ext code
  simp only [ownCode_some]
  have held := same.codes code
  simp only [mem_unexpiredCodes] at held
  have mine : request.names setting.sha256 setting.codeChallengeOf code = true →
      code.clientId = client := by
    intro names
    simp only [CodeExchangeRequest.names, decide_eq_true_eq] at names
    exact names.1.trans own
  constructor
  · rintro ⟨stored, unexpired, key, names⟩
    exact ⟨(held.1 ⟨stored, mine names, later.trans unexpired⟩).1, unexpired, key, names⟩
  · rintro ⟨stored, unexpired, key, names⟩
    exact ⟨(held.2 ⟨stored, mine names, later.trans unexpired⟩).1, unexpired, key, names⟩

theorem SameHoldings.access {at_ : Int} {token : String} (later : now ≤ at_) :
    ownAccess setting client at_ token next = ownAccess setting client at_ token server := by
  have found : ∀ before after : TokenServer, (∀ row, row ∈ liveTokens client now before →
      row ∈ liveTokens client now after) → ∀ record,
      ownAccess setting client at_ token before = some record →
        ownAccess setting client at_ token after = some record := by
    intro before after held record accepted
    simp only [ownAccess, acceptAccess, loadAccessToken, Option.filter_eq_some_iff,
      Option.map_eq_some_iff, decide_eq_true_eq] at accepted ⊢
    obtain ⟨⟨⟨row, loaded, rfl⟩, accepted⟩, own⟩ := accepted
    refine ⟨⟨⟨row, ?_, rfl⟩, accepted⟩, own⟩
    obtain ⟨stored, hash, kind⟩ := loadTokenRow_some loaded
    have unexpired : expired now row.expiresAt = false := by
      simp only [TokenRow.withPlaintext, Bool.not_eq_true'] at accepted
      have valid := (not_or.1 (of_decide_eq_false accepted)).1
      cases expires : row.expiresAt with
      | none => rfl
      | some end_ =>
        simp only [expires, Option.any_some, decide_eq_true_eq] at valid
        simp only [expired, Option.any_some, decide_eq_false_iff_not]
        omega
    have live := (mem_liveTokens.1 (held row (mem_liveTokens.2 ⟨stored, own, unexpired⟩))).1
    have there : after.store.db.tokens.find (setting.sha256 token) = some row :=
      Table.find_some_iff.2 ⟨live, hash⟩
    simp [loadTokenRow, there, kind]
  ext record
  exact ⟨found next server (fun row => (same.tokens row).1) record,
    found server next (fun row => (same.tokens row).2) record⟩

end

/-! ## Answers -/

/-- The answer of `exchange_refresh`, from what it finds of its client's. -/
def refreshAnswer (setting : Setting) (reads : CallReads) (request : RefreshExchangeRequest)
    (own : Option TokenRow) : Except OAuthProviderError OAuthTokenResponse :=
  if request.resource ≠ setting.config.resourceUrl then .error .invalidGrant
  else
    match refreshScopes request (own.map (·.withPlaintext request.refreshToken)) with
    | .error error => .error error
    | .ok (existing, scopes) =>
      if expired reads.stored existing.expiresAt then .error .invalidGrant
      else
        let (access, refresh) := newTokenPair setting.config reads.minted existing.clientId scopes
          reads.access reads.refresh
        .ok (tokenResponse access refresh setting.config.accessTokenSeconds)

def codeAnswer (setting : Setting) (reads : CallReads) (request : CodeExchangeRequest)
    (own : Option AuthorizationCodeRecord) : Except OAuthProviderError OAuthTokenResponse :=
  if request.resource ≠ setting.config.resourceUrl then .error .invalidGrant
  else
    match own with
    | none => .error .invalidGrant
    | some code =>
      let (access, refresh) := newTokenPair setting.config reads.minted code.clientId code.scopes
        reads.access reads.refresh
      .ok (tokenResponse access refresh setting.config.accessTokenSeconds)

/-- A limit that the clients share refuses the call: the token families, or the spent tokens
that are kept on record. -/
def LimitReached (setting : Setting) (reads : CallReads) (server : TokenServer) : ClientCall → Prop
  | .exchangeCode request =>
    ensureFamilyRoom setting.limits request.clientId reads.family
      (deleteExpired reads.stored server.store.db) ≠ .ok ()
  | .exchangeRefresh request =>
    let db := deleteExpired reads.stored (deleteExpired reads.first server.store.db)
    ∃ row, loadTokenRow setting.sha256 db request.refreshToken .refresh = some row ∧
      historyAtCapacity setting.limits row.familyId db = true
  | .revoke _ _ _ => False

/-- A token of another client is as good as none. -/
theorem refreshScopes_own {found : Option TokenRow} :
    refreshScopes request (found.map (·.withPlaintext request.refreshToken)) =
      refreshScopes request ((found.filter fun row => row.clientId = request.clientId).map
        (·.withPlaintext request.refreshToken)) := by
  cases found with
  | none => rfl
  | some row =>
    by_cases own : row.clientId = request.clientId
    · simp [Option.filter, own]
    · simp [Option.filter, own, refreshScopes, TokenRow.withPlaintext]

theorem exchangeRefresh_answer (owned : Owned server.store.db)
    (new : NewReads setting reads server.store.db)
    (authenticated : Authenticated setting (.exchangeRefresh request) server)
    (room : ¬LimitReached setting reads server (.exchangeRefresh request)) :
    (exchangeRefresh setting.sha256 setting.config setting.limits reads request server).1 =
      refreshAnswer setting reads request (ownRefresh setting reads request server) := by
  have passed := @checkRefreshExchange_authenticated setting request
    (getClientPayload request.clientId server.store) authenticated
  have fewer := fewer_swept reads.first server.store.db
  simp only [exchangeRefresh, passed, refreshAnswer]
  by_cases resource : request.resource = setting.config.resourceUrl
  · simp only [resource, ne_eq, not_true_eq_false, if_false, ownRefresh, ← refreshScopes_own,
      loadRefreshToken]
    cases live : loadTokenRow setting.sha256 (deleteExpired reads.first server.store.db)
        request.refreshToken .refresh with
    | none =>
      cases findHistoryFamily setting.sha256 (deleteExpired reads.first server.store.db)
        request.refreshToken <;> rfl
    | some row =>
      simp only [Option.map_some]
      cases checked : refreshScopes request (some (row.withPlaintext request.refreshToken)) with
      | error error => rfl
      | ok found =>
        obtain ⟨record, scopes⟩ := found
        obtain ⟨same, own⟩ := refreshScopes_client checked
        cases same
        have present := (loadTokenRow_some live).1
        obtain ⟨stored, unexpired, hash, kind⟩ := loadTokenRow_live live
        cases lapsed : expired reads.stored row.expiresAt with
        | false =>
          have again : loadTokenRow setting.sha256 (deleteExpired reads.stored
              (deleteExpired reads.first server.store.db)) request.refreshToken .refresh =
                some row := by
            rw [← kind]
            exact loadTokenRow_mem present lapsed hash
          have space : historyAtCapacity setting.limits row.familyId (deleteExpired
              reads.stored (deleteExpired reads.first server.store.db)) = false := by
            cases full : historyAtCapacity setting.limits row.familyId (deleteExpired
                reads.stored (deleteExpired reads.first server.store.db)) with
            | false => rfl
            | true => exact absurd ⟨row, again, full⟩ room
          have rotated := rotateTokenPair_new (owned.fewer fewer)
            ((new.fewer fewer).pair row.clientId scopes) new.apart rfl again space
          simp only [TokenRow.withPlaintext, rotated, lapsed, Bool.false_eq_true, if_false]
        | true =>
          have gone : loadTokenRow setting.sha256 (deleteExpired reads.stored
              (deleteExpired reads.first server.store.db)) request.refreshToken .refresh =
                none := by
            cases found : loadTokenRow setting.sha256 (deleteExpired reads.stored
                (deleteExpired reads.first server.store.db)) request.refreshToken .refresh with
            | none => rfl
            | some other =>
              cases loadTokenRow_same present hash found
              have live_ := (loadTokenRow_live found).2.1
              rw [lapsed] at live_
              cases live_
          have unspent := @Owned.unfound _ reads.stored _ (owned.fewer fewer) _ _ present hash
          simp only [TokenRow.withPlaintext, lapsed, if_true]
          simp [rotateTokenPair, newTokenPair, tokenRecord, commit, commitWhen,
            rotateTokenPairIn, gone, unspent]
  · simp [resource]

theorem exchangeCode_answer {request : CodeExchangeRequest}
    (new : NewReads setting reads server.store.db)
    (authenticated : Authenticated setting (.exchangeCode request) server)
    (room : ¬LimitReached setting reads server (.exchangeCode request)) :
    (exchangeCode setting.sha256 setting.codeChallengeOf setting.config setting.limits reads request
        server).1 =
      codeAnswer setting reads request (ownCode setting reads request server) := by
  have passed := @checkCodeExchange_authenticated setting request
    (getClientPayload request.clientId server.store) authenticated
  simp only [exchangeCode, passed, codeAnswer]
  by_cases resource : request.resource = setting.config.resourceUrl
  · simp only [resource, ne_eq, not_true_eq_false, if_false]
    have claims : claimValidCode setting.sha256 setting.codeChallengeOf reads.first request
        server.state = match ownCode setting reads request server with
          | none => (.error .invalidGrant, server.state.discardExpired reads.first)
          | some code => (.ok code, { server.state.discardExpired reads.first with
              codes := (server.state.discardExpired reads.first).codes.remove request.code
              exchanging := (server.state.discardExpired reads.first).exchanging.put code }) := rfl
    rw [claims]
    cases own : ownCode setting reads request server with
    | none => rfl
    | some code =>
      obtain ⟨_, _, _, names⟩ := ownCode_some.1 own
      simp only [CodeExchangeRequest.names, decide_eq_true_eq] at names
      simp only [LimitReached, ne_eq, not_not] at room
      have saved := saveTokenPair_new (new.pair code.clientId code.scopes) new.apart
        (by rw [← names.1] at room; exact room)
      simp only [saved, completeExchange]
      rfl
  · simp [resource]

def refusal (error : OAuthProviderError) : ClientCall → ClientAnswer
  | .revoke _ _ _ => .revoked (.error error)
  | _ => .tokens (.error error)

theorem perform_refused {error : OAuthProviderError}
    (refused : authenticateClient setting.sha256 call.clientId call.clientSecret
      (getClientPayload call.clientId server.store) = .error error) :
    perform setting reads call server = (refusal error call, server) := by
  cases call with
  | exchangeCode request =>
    have failed : checkCodeExchange setting.sha256 setting.config request
        (getClientPayload request.clientId server.store) = .error error := by
      simp only [ClientCall.clientId, ClientCall.clientSecret] at refused
      simp only [checkCodeExchange, refused]
      rfl
    simp only [perform, performCall, exchangeCode, failed, refusal]
  | exchangeRefresh request =>
    have failed : checkRefreshExchange setting.sha256 setting.config request
        (getClientPayload request.clientId server.store) = .error error := by
      simp only [ClientCall.clientId, ClientCall.clientSecret] at refused
      simp only [checkRefreshExchange, refused]
      rfl
    simp only [perform, performCall, exchangeRefresh, failed, refusal]
  | revoke clientId clientSecret token =>
    simp only [ClientCall.clientId, ClientCall.clientSecret] at refused
    simp only [perform, performCall, revoke, refused, refusal]

/-- A call of the client: nothing but its own holdings and the shared limits decide the answer. -/
theorem SameHoldings.answer (same : SameHoldings client now server next)
    (clients : next.store.clients = server.store.clients) (own : call.clientId = client)
    (later : now ≤ reads.first) (owned : Owned server.store.db) (ownedNext : Owned next.store.db)
    (new : NewReads setting reads server.store.db) (newNext : NewReads setting reads next.store.db)
    (room : ¬LimitReached setting reads server call)
    (roomNext : ¬LimitReached setting reads next call) :
    (perform setting reads call next).1 = (perform setting reads call server).1 := by
  have loaded : getClientPayload call.clientId next.store =
      getClientPayload call.clientId server.store := by simp only [getClientPayload, clients]
  cases auth : authenticateClient setting.sha256 call.clientId call.clientSecret
      (getClientPayload call.clientId server.store) with
  | error error => rw [perform_refused auth, perform_refused (loaded ▸ auth)]
  | ok _ =>
    have authNext : Authenticated setting call next := by
      simp only [Authenticated, loaded]
      exact auth
    cases call with
    | exchangeCode request =>
      simp only [perform, performCall]
      rw [exchangeCode_answer newNext authNext roomNext, exchangeCode_answer new auth room,
        same.code own later]
    | exchangeRefresh request =>
      simp only [perform, performCall]
      rw [exchangeRefresh_answer ownedNext newNext authNext roomNext,
        exchangeRefresh_answer owned new auth room, same.refresh own later]
    | revoke clientId clientSecret token =>
      have passed : authenticateClient setting.sha256 clientId clientSecret
          (getClientPayload clientId server.store) = .ok () := auth
      have passedNext : authenticateClient setting.sha256 clientId clientSecret
          (getClientPayload clientId next.store) = .ok () := authNext
      simp only [perform, performCall, revoke, passed, passedNext]

/-! ## What another client's calls leave as it was -/

theorem Throughout.weaken {P Q : CallReads → ClientCall → TokenServer → Prop} {calls : Calls}
    (each : ∀ reads call server, P reads call server → Q reads call server)
    (all : Throughout setting P calls server) : Throughout setting Q calls server := by
  induction calls generalizing server with
  | nil => trivial
  | cons entry rest ih => exact ⟨each _ _ _ all.1, ih all.2⟩

end CodexRemote.Verified.OAuthProvider

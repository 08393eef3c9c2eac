import CodexRemote.Verified.OAuthProvider.Codes

/-! # Authorization codes are single-use and scopes never widen -/

namespace CodexRemote.Verified.OAuthProvider

open Foundations McpServer
open Verified.OAuthStore (loadTokenRow_some)

/-- Nothing that ends the claim of a code for good: no restart, and no other claim of it. -/
def Undisturbed (code : AuthorizationCodeRecord) (events : List ProviderEvent) : Prop :=
  ProviderEvent.restarted ∉ events ∧
    ∀ given request record, .advanced given (.claiming request) (.claimed (.ok record)) ∈ events →
      record.code ≠ code.code

variable {setting : Setting} {events past back : List ProviderEvent} {provider : Provider}

variable {given : Given} {outcome : Outcome}

/-- The task of a section is one of the provider's. -/
theorem advanced_task {next : Provider} {task : Task}
    (step : ProviderStep setting provider (.advanced given task outcome) next) :
    task ∈ provider.tasks := by
  cases step with
  | advanced => simp
  | unsaved => simp

/-- A pair is saved for a claim that named its code and found it before its expiry. -/
theorem saved_claimed {request : CodeExchangeRequest}
    {code : AuthorizationCodeRecord} {access refresh : OAuthTokenRecord} {familyId : String}
    (run : ProviderRun setting .empty
      (past ++ .advanced given (.saving request code access refresh familyId) outcome :: back)
      provider)
    (fresh : Fresh
      (past ++ .advanced given (.saving request code access refresh familyId) outcome :: back)) :
    ∃ claim ∈ (ledger past).claims, claim.request = request ∧ claim.record = code ∧
      ClaimValid setting (ledger past) claim := by
  obtain ⟨before, after, front, step, _⟩ := run.split_at
  obtain ⟨sound, consistent⟩ := run_consistent front fresh.front
  obtain ⟨⟨claim, known, named, same⟩, _⟩ := consistent.tasks _ (advanced_task step)
  exact ⟨claim, known, named, same, sound.claims claim known⟩

/-- What an access token may do was granted with the owner token, and registered. -/
theorem access_granted {token : String} {record : OAuthTokenRecord}
    (run : ProviderRun setting .empty
      (past ++ .called given (.authenticateAccess token) (.record (some record)) :: back) provider)
    (fresh : Fresh
      (past ++ .called given (.authenticateAccess token) (.record (some record)) :: back)) :
    ∃ grant ∈ (ledger past).grants, grant.record.clientId = record.clientId ∧
      constantTimeMatches setting.sha256 grant.candidate setting.config.ownerToken = true ∧
      (∀ scope ∈ record.scopes, scope ∈ grant.record.scopes) ∧
      Registered (ledger past) grant.record.clientId grant.record.scopes := by
  obtain ⟨before, after, front, step, _⟩ := run.split_at
  obtain ⟨sound, consistent⟩ := run_consistent front fresh.front
  cases step with
  | @called store _ _ _ _ _ _ _ ran =>
    simp only [direct, Prod.mk.injEq, DirectAnswer.record.injEq] at ran
    obtain ⟨loaded, _⟩ := Option.filter_eq_some_iff.1 ran.1
    obtain ⟨row, live, rfl⟩ := Option.map_eq_some_iff.1 loaded
    obtain ⟨grant, known, owner, within⟩ := consistent.rows row (loadTokenRow_some live).1
    obtain ⟨candidate, registered⟩ := sound.grants grant known
    exact ⟨grant, known, owner, candidate, within, registered⟩

/-- A code that is given back waits until something ends its claim. -/
theorem given_back {request : CodeExchangeRequest}
    {code : AuthorizationCodeRecord} {access refresh : OAuthTokenRecord} {error : OAuthStoreError}
    (run : ProviderRun setting .empty events provider) (fresh : Fresh events) :
    ∀ back, events = past ++
        .advanced given (.completing request code access refresh (.error error)) outcome :: back →
      Undisturbed code back → (∀ at_ ∈ (ledger events).sweeps, at_ ≤ code.expiresAt) →
      code ∈ provider.state.codes.rows := by
  refine run.records (fun events provider => Fresh events → ∀ back, events = past ++
      .advanced given (.completing request code access refresh (.error error)) outcome :: back →
    Undisturbed code back → (∀ at_ ∈ (ledger events).sweeps, at_ ≤ code.expiresAt) →
    code ∈ provider.state.codes.rows) ?_ ?_ fresh
  · intro sofar before event after front step ih fresh back split undisturbed unexpired
    cases back using List.reverseRecOn with
    | nil =>
      -- the completion itself
      obtain ⟨_, same⟩ := List.append_inj' split rfl
      cases same
      cases step with
      | advanced ran =>
        cases ran
        exact Table.mem_put.2 (Or.inr rfl)
    | append_singleton back last =>
      have whole : sofar ++ [event] = (past ++ .advanced given
          (.completing request code access refresh (.error error)) outcome :: back) ++ [last] := by
        simp [split]
      obtain ⟨earlier, same⟩ := List.append_inj' whole rfl
      cases same
      have grows := record_grows (ledger sofar) event
      rw [ledger_snoc] at unexpired
      have waiting := ih fresh.front back earlier
        ⟨fun restart => undisturbed.1 (List.mem_append_left _ restart),
          fun given request record claimed =>
            undisturbed.2 given request record (List.mem_append_left _ claimed)⟩
        (fun at_ known => unexpired at_ (grows.sweeps at_ known))
      obtain ⟨valid, settled⟩ := run_book front fresh.front
      obtain ⟨move, book, moved, ⟨more, same⟩, restarts, claims⟩ :=
        step_moves step (fun _ => fresh.last) settled
      obtain kept | restarted | ⟨at_, over_, known⟩ | ⟨now, record, rfl, named⟩ :=
        moved.waiting valid waiting
      · have codes : after.state.codes = book.waiting := congrArg CodeBook.waiting same
        rw [codes]
        exact kept
      · exact absurd (by simp [restarts restarted]) undisturbed.1
      · have sweeps : ((ledger sofar).record event).sweeps = book.sweeps :=
          congrArg CodeBook.sweeps same
        have bound := unexpired at_ (by rw [sweeps]; exact known)
        omega
      · obtain ⟨given', request', rfl⟩ := claims now record rfl
        exact absurd named (undisturbed.2 given' request' record (by simp))
  · intro _ back split
    simp at split

/-- A waiting code that has not expired is claimed by any request that names it. -/
theorem claimable {state : OAuthState} {code : AuthorizationCodeRecord}
    {request : CodeExchangeRequest} {now : Int} (waiting : code ∈ state.codes.rows)
    (unexpired : now ≤ code.expiresAt) (named : request.code = code.code)
    (names : request.names setting.sha256 setting.codeChallengeOf code = true) :
    (claimValidCode setting.sha256 setting.codeChallengeOf now request state).1 = .ok code := by
  have found : (state.discardExpired now).codes.find request.code = some code :=
    Table.find_some_iff.2 ⟨mem_discard_codes.2 ⟨waiting, unexpired⟩, named.symm⟩
  simp only [claimValidCode, found, Option.filter_some, names, if_true]

/-- Each code leads to at most one saved pair, for a claim that named it before it expired;
after a failed save it can be claimed again until it expires; the codes that have not
expired stay within the limits; and an access token carries at most the scopes of one
approval for its client, which that client registered. -/
theorem authorization_codes_single_use (run : ProviderRun setting .empty events provider)
    (fresh : Fresh events) :
    (ledger events).saved.Nodup ∧
    (∀ past given request code access refresh familyId back, events = past ++
        .advanced given (.saving request code access refresh familyId) (.saved (.ok ())) :: back →
      ∃ claim ∈ (ledger past).claims, claim.request = request ∧ claim.record = code ∧
        ClaimValid setting (ledger past) claim) ∧
    (∀ past given request code access refresh error outcome back, events = past ++
        .advanced given (.completing request code access refresh (.error error)) outcome :: back →
      Undisturbed code back → (∀ at_ ∈ (ledger events).sweeps, at_ ≤ code.expiresAt) →
      ∀ attempt now, now ≤ code.expiresAt → attempt.code = code.code →
        attempt.names setting.sha256 setting.codeChallengeOf code = true →
        (claimValidCode setting.sha256 setting.codeChallengeOf now attempt provider.state).1 =
          .ok code) ∧
    ((bookOf (ledger events) provider).retained (fun _ => true) ≤
        setting.config.authorizationCodeLimit ∧
      ∀ clientId, (bookOf (ledger events) provider).retained (fun code => code.clientId = clientId) ≤
        setting.config.authorizationCodePerClientLimit) ∧
    (∀ past given token record back, events = past ++
        .called given (.authenticateAccess token) (.record (some record)) :: back →
      ∃ grant ∈ (ledger past).grants, grant.record.clientId = record.clientId ∧
        constantTimeMatches setting.sha256 grant.candidate setting.config.ownerToken = true ∧
        (∀ scope ∈ record.scopes, scope ∈ grant.record.scopes) ∧
        Registered (ledger past) grant.record.clientId grant.record.scopes) := by
  have valid := (run_book run fresh).1
  refine ⟨?_, ?_, ?_, ⟨valid.total, valid.client⟩, ?_⟩
  · rw [List.nodup_iff_count_le_one]
    intro code
    have once := valid.once code
    simp only [CodeBook.places] at once
    have saved : (bookOf (ledger events) provider).saved = (ledger events).saved := rfl
    rw [← saved]
    omega
  · intro past given request code access refresh familyId back split
    subst split
    exact saved_claimed run fresh
  · intro past given request code access refresh error outcome back split undisturbed unexpired
      attempt now live named names
    exact claimable (given_back run fresh back split undisturbed unexpired) live named names
  · intro past given token record back split
    subst split
    exact access_granted run fresh

/-! ## A code from its request to an access token -/

def exampleSetting : Setting where
  config := { ownerToken := "owner" }
  limits := {}
  sha256 := id
  codeChallengeOf := id
  parsesUrl := fun _ => true

def exampleChallenge : String := "abcdefghijklmnopqrstuvwxyzabcdefghijklmnopqrstuvwxyz"

def exampleClient : StoredClient :=
  ⟨"client", "client-secret", ["https://client.example/cb"], "files:read files:write"⟩

def exampleRequest : AuthorizationRequest :=
  ⟨"client", "https://client.example/cb", none, exampleChallenge, "S256", ["files:read"],
    "http://127.0.0.1/mcp"⟩

def exampleExchange : CodeExchangeRequest :=
  ⟨"client", "client-secret", "code", "https://client.example/cb", exampleChallenge,
    "http://127.0.0.1/mcp"⟩

def exampleCode : AuthorizationCodeRecord :=
  ⟨"code", "client", "https://client.example/cb", exampleChallenge, ["files:read"],
    "http://127.0.0.1/mcp", 402⟩

def exampleAccess : OAuthTokenRecord :=
  tokenRecord "access" "client" ["files:read"] 3704 (some "http://127.0.0.1/mcp")

def exampleRefresh : OAuthTokenRecord :=
  tokenRecord "refresh" "client" ["files:read"] 2592104 none

def exampleEvents : List ProviderEvent :=
  [.called ⟨100, 100, "", "", ""⟩ (.registerClient exampleClient) (.registered (.ok ())),
    .entered (.beginAuthorization exampleRequest) (.ok (.authorizing exampleRequest ["files:read"])),
    .advanced ⟨101, 101, "request", "", ""⟩ (.authorizing exampleRequest ["files:read"])
      (.begun (.ok ⟨"request", "http://127.0.0.1/oauth/approve?request_id=request"⟩)),
    .called ⟨102, 102, "code", "", ""⟩ (.approve "request" "owner")
      (.approved (.ok ⟨"https://client.example/cb", "code", "http://127.0.0.1", none⟩)),
    .entered (.exchangeCode exampleExchange) (.ok (.claiming exampleExchange)),
    .advanced ⟨103, 103, "", "", ""⟩ (.claiming exampleExchange) (.claimed (.ok exampleCode)),
    .advanced ⟨104, 104, "access", "refresh", "family"⟩ (.claimed exampleExchange exampleCode) .minted,
    .advanced ⟨105, 105, "", "", ""⟩
      (.saving exampleExchange exampleCode exampleAccess exampleRefresh "family") (.saved (.ok ())),
    .called ⟨106, 106, "", "", ""⟩ (.authenticateAccess "access") (.record (some exampleAccess))]

theorem ProviderStep.alone {store next : OAuthStore} {state after : OAuthState}
    {task : Task} {left : Option Task}
    (ran : advance setting given task store state = (outcome, left, next, after)) :
    ProviderStep setting ⟨store, state, [task]⟩ (.advanced given task outcome)
      ⟨next, after, left.toList ++ []⟩ :=
  @ProviderStep.advanced _ _ _ _ _ [] [] _ _ _ _ ran

theorem exampleEvents_run :
    ∃ provider, ProviderRun exampleSetting .empty exampleEvents provider :=
  ⟨_, .cons (.called rfl) (.cons (.entered rfl) (.cons (.alone rfl) (.cons (.called rfl)
    (.cons (.entered rfl) (.cons (.alone rfl) (.cons (.alone rfl) (.cons (.alone rfl)
      (.cons (.called rfl) (.nil _)))))))))⟩

theorem exampleEvents_fresh : Fresh exampleEvents := by
  show (exampleEvents.flatMap (·.secrets)).Nodup
  decide

theorem exampleEvents_granted : ∃ provider,
    ProviderRun exampleSetting .empty exampleEvents provider ∧
      (ledger exampleEvents).saved = ["code"] ∧
      ∃ grant ∈ (ledger (exampleEvents.take 8)).grants, grant.record.clientId = "client" ∧
        "files:read" ∈ grant.record.scopes := by
  obtain ⟨provider, run⟩ := exampleEvents_run
  obtain ⟨_, _, _, _, granted⟩ := authorization_codes_single_use run exampleEvents_fresh
  obtain ⟨grant, known, client, _, within, _⟩ :=
    granted (exampleEvents.take 8) _ "access" exampleAccess [] rfl
  exact ⟨provider, run, rfl, grant, known, client, within _ (List.mem_cons_self ..)⟩

end CodexRemote.Verified.OAuthProvider

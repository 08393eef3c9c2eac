import CodexRemote.Verified.OAuthProvider.System

/-! # Scopes never widen

What an authorization asks for is within the registration of its client, a code carries
what was asked for, and a token at most what the code of its first pair carried.
-/

namespace CodexRemote.Verified.OAuthProvider

open Foundations McpServer
open Verified.OAuthStore (StoreMove member saveTokenPair_move rotateTokenPair_move
  loadRefreshToken_move revokeFamily_move mem_swept loadTokenRow_some)

/-- The client registered all of the scopes. -/
def Registered (ledger : Ledger) (clientId : String) (scopes : List String) : Prop :=
  ∃ client ∈ ledger.clients, client.clientId = clientId ∧
    ∀ scope ∈ scopes, scope ∈ splitWhitespace client.scope

/-- One approval for the client granted all of the scopes. -/
def Covered (ledger : Ledger) (clientId : String) (scopes : List String) : Prop :=
  ∃ grant ∈ ledger.grants, grant.record.clientId = clientId ∧
    ∀ scope ∈ scopes, scope ∈ grant.record.scopes

def Issued (ledger : Ledger) (code : AuthorizationCodeRecord) : Prop :=
  ∃ grant ∈ ledger.grants, grant.record = code

def Claimed (ledger : Ledger) (request : CodeExchangeRequest) (code : AuthorizationCodeRecord) :
    Prop :=
  ∃ claim ∈ ledger.claims, claim.request = request ∧ claim.record = code

/-- A claim names its code, finds it before its expiry, and the code was issued. -/
structure ClaimValid (setting : Setting) (ledger : Ledger) (claim : Claim) : Prop where
  code : claim.record.code = claim.request.code
  names : claim.request.names setting.sha256 setting.codeChallengeOf claim.record = true
  unexpired : claim.now ≤ claim.record.expiresAt
  issued : Issued ledger claim.record

def Task.Consistent (ledger : Ledger) : Task → Prop
  | .authorizing request scopes =>
    scopes = request.wanted ∧ Registered ledger request.clientId scopes
  | .claiming _ => True
  | .claimed request code => Claimed ledger request code ∧ Issued ledger code
  | .saving request code access refresh _ =>
    Claimed ledger request code ∧ Issued ledger code ∧
      ∀ kind, Covered ledger (member kind access refresh).clientId (member kind access refresh).scopes
  | .completing request code _ _ _ => Claimed ledger request code ∧ Issued ledger code
  | .loading _ => True
  | .rotating _ access refresh =>
    ∀ kind, Covered ledger (member kind access refresh).clientId (member kind access refresh).scopes

/-- What the ledger says about itself. -/
structure Ledger.Sound (setting : Setting) (ledger : Ledger) : Prop where
  asked : ∀ entry ∈ ledger.asked, Registered ledger entry.2.clientId entry.2.wanted ∧
    entry.1 ∈ ledger.secrets
  askedOnce : (ledger.asked.map (·.1)).Nodup
  grants : ∀ grant ∈ ledger.grants,
    constantTimeMatches setting.sha256 grant.candidate setting.config.ownerToken = true ∧
      Registered ledger grant.record.clientId grant.record.scopes
  claims : ∀ claim ∈ ledger.claims, ClaimValid setting ledger claim

/-- What the provider's data says of the ledger. -/
structure Consistent (ledger : Ledger) (provider : Provider) : Prop where
  clients : ∀ row ∈ provider.store.clients.rows,
    row.payload ∈ ledger.clients ∧ row.payload.clientId = row.clientId
  pending : ∀ item ∈ provider.state.pending.rows,
    (item.requestId, item.request) ∈ ledger.asked ∧ item.scopes = item.request.wanted
  codes : ∀ code ∈ provider.state.codes.rows, Issued ledger code
  tasks : ∀ task ∈ provider.tasks, task.Consistent ledger
  rows : ∀ row ∈ provider.store.db.tokens.rows, Covered ledger row.clientId row.scopes

variable {setting : Setting} {ledger next : Ledger} {store after : OAuthStore}
  {state then_ : OAuthState} {tasks front back : List Task} {now : Int}

/-! ## Growing ledgers -/

variable {clientId : String} {scopes : List String} {given : Given}

theorem Registered.grow (grows : Grows ledger next)
    (registered : Registered ledger clientId scopes) : Registered next clientId scopes := by
  obtain ⟨client, known, within⟩ := registered
  exact ⟨client, grows.clients client known, within⟩

theorem Covered.grow (grows : Grows ledger next)
    (covered : Covered ledger clientId scopes) : Covered next clientId scopes := by
  obtain ⟨grant, known, within⟩ := covered
  exact ⟨grant, grows.grants grant known, within⟩

theorem Issued.grow {code : AuthorizationCodeRecord} (grows : Grows ledger next)
    (issued : Issued ledger code) : Issued next code := by
  obtain ⟨grant, known, same⟩ := issued
  exact ⟨grant, grows.grants grant known, same⟩

theorem Claimed.grow {request : CodeExchangeRequest} {code : AuthorizationCodeRecord}
    (grows : Grows ledger next) (claimed : Claimed ledger request code) :
    Claimed next request code := by
  obtain ⟨claim, known, same⟩ := claimed
  exact ⟨claim, grows.claims claim known, same⟩

theorem ClaimValid.grow {claim : Claim} (grows : Grows ledger next)
    (valid : ClaimValid setting ledger claim) : ClaimValid setting next claim :=
  ⟨valid.code, valid.names, valid.unexpired, valid.issued.grow grows⟩

theorem Task.Consistent.grow {task : Task} (grows : Grows ledger next)
    (consistent : task.Consistent ledger) : task.Consistent next := by
  cases task with
  | authorizing _ _ => exact ⟨consistent.1, consistent.2.grow grows⟩
  | claiming _ => trivial
  | claimed _ _ => exact ⟨consistent.1.grow grows, consistent.2.grow grows⟩
  | saving _ _ _ _ _ =>
    exact ⟨consistent.1.grow grows, consistent.2.1.grow grows,
      fun kind => (consistent.2.2 kind).grow grows⟩
  | completing _ _ _ _ _ => exact ⟨consistent.1.grow grows, consistent.2.grow grows⟩
  | loading _ => trivial
  | rotating _ _ _ => exact fun kind => (consistent kind).grow grows

theorem Consistent.grow {provider : Provider} (grows : Grows ledger next)
    (consistent : Consistent ledger provider) : Consistent next provider := by
  constructor
  · intro row present
    obtain ⟨known, same⟩ := consistent.clients row present
    exact ⟨grows.clients _ known, same⟩
  · intro item present
    obtain ⟨known, wanted⟩ := consistent.pending item present
    exact ⟨grows.asked _ known, wanted⟩
  · intro code present
    exact (consistent.codes code present).grow grows
  · intro task present
    exact (consistent.tasks task present).grow grows
  · intro row present
    exact (consistent.rows row present).grow grows

/-- A ledger that records no new request, grant or claim stays sound. -/
theorem Ledger.Sound.grow (sound : ledger.Sound setting) (grows : Grows ledger next)
    (asked : next.asked = ledger.asked) (grants : next.grants = ledger.grants)
    (claims : next.claims = ledger.claims) : next.Sound setting := by
  constructor
  · intro entry known
    rw [asked] at known
    obtain ⟨registered, secret⟩ := sound.asked entry known
    exact ⟨registered.grow grows, grows.secrets _ secret⟩
  · rw [asked]
    exact sound.askedOnce
  · intro grant known
    rw [grants] at known
    obtain ⟨owner, registered⟩ := sound.grants grant known
    exact ⟨owner, registered.grow grows⟩
  · intro claim known
    rw [claims] at known
    exact (sound.claims claim known).grow grows

theorem Ledger.Sound.addAsked {requestId : String} {request : AuthorizationRequest}
    (sound : ledger.Sound setting) (grows : Grows ledger next)
    (asked : next.asked = (requestId, request) :: ledger.asked)
    (grants : next.grants = ledger.grants) (claims : next.claims = ledger.claims)
    (fresh : requestId ∉ ledger.secrets) (secret : requestId ∈ next.secrets)
    (registered : Registered ledger request.clientId request.wanted) : next.Sound setting := by
  constructor
  · intro entry known
    rw [asked, List.mem_cons] at known
    obtain rfl | earlier := known
    · exact ⟨registered.grow grows, secret⟩
    · obtain ⟨within, secret'⟩ := sound.asked entry earlier
      exact ⟨within.grow grows, grows.secrets _ secret'⟩
  · rw [asked, List.map_cons, List.nodup_cons]
    refine ⟨?_, sound.askedOnce⟩
    intro taken
    obtain ⟨entry, known, same⟩ := List.mem_map.1 taken
    have secret' := (sound.asked entry known).2
    rw [same] at secret'
    exact fresh secret'
  · intro grant known
    rw [grants] at known
    obtain ⟨owner, within⟩ := sound.grants grant known
    exact ⟨owner, within.grow grows⟩
  · intro claim known
    rw [claims] at known
    exact (sound.claims claim known).grow grows

theorem Ledger.Sound.addGrant {grant : Grant} (sound : ledger.Sound setting)
    (grows : Grows ledger next) (asked : next.asked = ledger.asked)
    (grants : next.grants = grant :: ledger.grants) (claims : next.claims = ledger.claims)
    (owner : constantTimeMatches setting.sha256 grant.candidate setting.config.ownerToken = true)
    (registered : Registered ledger grant.record.clientId grant.record.scopes) :
    next.Sound setting := by
  constructor
  · intro entry known
    rw [asked] at known
    obtain ⟨within, secret⟩ := sound.asked entry known
    exact ⟨within.grow grows, grows.secrets _ secret⟩
  · rw [asked]
    exact sound.askedOnce
  · intro other known
    rw [grants, List.mem_cons] at known
    obtain rfl | earlier := known
    · exact ⟨owner, registered.grow grows⟩
    · obtain ⟨owner', within⟩ := sound.grants other earlier
      exact ⟨owner', within.grow grows⟩
  · intro claim known
    rw [claims] at known
    exact (sound.claims claim known).grow grows

theorem Ledger.Sound.addClaim {claim : Claim} (sound : ledger.Sound setting)
    (grows : Grows ledger next) (asked : next.asked = ledger.asked)
    (grants : next.grants = ledger.grants) (claims : next.claims = claim :: ledger.claims)
    (valid : ClaimValid setting ledger claim) : next.Sound setting := by
  constructor
  · intro entry known
    rw [asked] at known
    obtain ⟨within, secret⟩ := sound.asked entry known
    exact ⟨within.grow grows, grows.secrets _ secret⟩
  · rw [asked]
    exact sound.askedOnce
  · intro grant known
    rw [grants] at known
    obtain ⟨owner, within⟩ := sound.grants grant known
    exact ⟨owner, within.grow grows⟩
  · intro other known
    rw [claims, List.mem_cons] at known
    obtain rfl | earlier := known
    · exact valid.grow grows
    · exact (sound.claims other earlier).grow grows

/-! ## Parts of a section -/

theorem Consistent.discard (consistent : Consistent ledger ⟨store, state, tasks⟩) :
    Consistent ledger ⟨store, state.discardExpired now, tasks⟩ := by
  refine { consistent with pending := ?_, codes := ?_ }
  · intro item present
    exact consistent.pending item (mem_discard_pending.1 present).1
  · intro code present
    exact consistent.codes code (mem_discard_codes.1 present).1

/-- A call's section ends, and leaves a task that agrees with the ledger. -/
theorem Consistent.advance {task : Task} {left : Option Task}
    (consistent : Consistent ledger ⟨store, state, front ++ task :: back⟩)
    (agrees : ∀ rest, left = some rest → rest.Consistent ledger) :
    Consistent ledger ⟨store, state, front ++ (left.toList ++ back)⟩ := by
  refine { consistent with tasks := ?_ }
  intro other present
  simp only [List.mem_append, Option.mem_toList] at present
  obtain before | here | behind := present
  · exact consistent.tasks other (List.mem_append_left _ before)
  · exact agrees other here
  · exact consistent.tasks other (List.mem_append_right _ (List.mem_cons_of_mem _ behind))

theorem Consistent.drop {task : Task}
    (consistent : Consistent ledger ⟨store, state, front ++ task :: back⟩) :
    Consistent ledger ⟨store, state, front ++ back⟩ := by
  refine @Consistent.advance _ _ _ _ _ _ none consistent ?_
  intro rest same
  cases same

theorem Consistent.task {task : Task}
    (consistent : Consistent ledger ⟨store, state, front ++ task :: back⟩) :
    task.Consistent ledger :=
  consistent.tasks task (by simp)

/-- The store's tokens change to ones that are covered. -/
theorem Consistent.tokens {db : OAuthDb} (consistent : Consistent ledger ⟨store, state, tasks⟩)
    (covered : ∀ row ∈ db.tokens.rows, row ∈ store.db.tokens.rows ∨
      Covered ledger row.clientId row.scopes) :
    Consistent ledger ⟨{ store with db := db }, state, tasks⟩ := by
  refine { consistent with rows := ?_ }
  intro row present
  cases covered row present with
  | inl known => exact consistent.rows row known
  | inr new => exact new

theorem Consistent.asks (consistent : Consistent ledger ⟨store, state, tasks⟩)
    (codes : then_.codes = state.codes) (asks : asksOnly state then_) :
    Consistent ledger ⟨store, then_, tasks⟩ := by
  refine { consistent with pending := ?_, codes := ?_ }
  · intro item present
    obtain ⟨before, known, id, request, scopes⟩ := asks item present
    rw [← id, ← request, ← scopes]
    exact consistent.pending before known
  · rw [codes]
    exact consistent.codes

/-! ## Sections that add to the ledger -/

theorem checkAuthorization_ok {request : AuthorizationRequest} {loaded : Option StoredClient}
    (result : checkAuthorization setting.config request loaded = .ok scopes) :
    ∃ client, loaded = some client ∧ scopes = request.wanted ∧
      ∀ scope ∈ request.wanted, scope ∈ splitWhitespace client.scope := by
  simp only [checkAuthorization, ite_ok, reduceCtorEq, and_false, false_or] at result
  obtain ⟨_, _, result⟩ := result
  cases loaded with
  | none => cases result
  | some client =>
    simp only [ite_ok, reduceCtorEq, and_false, false_or] at result
    obtain ⟨_, result⟩ := result
    obtain ⟨_, _, result⟩ := bind_ok.1 result
    simp only [ite_ok, reduceCtorEq, and_false, or_false, Except.ok.injEq] at result
    exact ⟨client, rfl, result.2.symm, result.1⟩

theorem getClientPayload_some {client : StoredClient}
    (consistent : Consistent ledger ⟨store, state, tasks⟩)
    (loaded : getClientPayload clientId store = some client) :
    client ∈ ledger.clients ∧ client.clientId = clientId := by
  obtain ⟨row, found, rfl⟩ := Option.map_eq_some_iff.1 loaded
  obtain ⟨known, same⟩ := consistent.clients row (Table.mem_of_find found)
  exact ⟨known, same.trans (Table.find_key found)⟩

/-- A call that passes its checks starts with a task that agrees with the ledger. -/
theorem enter_consistent {call : Call} {task : Task}
    (consistent : Consistent ledger ⟨store, state, tasks⟩)
    (entered : enter setting call (getClientPayload call.clientId store) = .ok task) :
    task.Consistent ledger := by
  cases call with
  | beginAuthorization request =>
    obtain ⟨scopes, checked, rfl⟩ := map_ok.1 entered
    obtain ⟨client, loaded, rfl, within⟩ := checkAuthorization_ok checked
    obtain ⟨known, same⟩ := getClientPayload_some consistent loaded
    exact ⟨rfl, client, known, same, within⟩
  | exchangeCode request =>
    obtain ⟨_, _, rfl⟩ := map_ok.1 entered
    trivial
  | exchangeRefresh request =>
    obtain ⟨_, _, rfl⟩ := map_ok.1 entered
    trivial

theorem begin_consistent {request : AuthorizationRequest}
    {result : Except OAuthProviderError PendingApproval}
    (fresh : given.first ∉ ledger.secrets) (sound : ledger.Sound setting)
    (consistent : Consistent ledger ⟨store, state, tasks⟩)
    (task : (Task.authorizing request scopes).Consistent ledger)
    (ran : beginAuthorization setting.config given.now given.first request scopes state =
      (result, then_)) :
    (ledger.record (.advanced given (.authorizing request scopes) (.begun result))).Sound setting ∧
      Consistent (ledger.record (.advanced given (.authorizing request scopes) (.begun result)))
        ⟨store, then_, tasks⟩ := by
  have grows := record_grows ledger (.advanced given (.authorizing request scopes) (.begun result))
  obtain ⟨error, rfl, rfl⟩ | ⟨approval, rfl, rfl⟩ := beginAuthorization_cases ran
  · exact ⟨sound.grow grows rfl rfl rfl, consistent.discard.grow grows⟩
  · obtain ⟨rfl, registered⟩ := task
    have swept := (@Consistent.discard _ _ _ _ given.now consistent).grow grows
    constructor
    · exact sound.addAsked grows rfl rfl rfl fresh (List.mem_cons_self ..) registered
    · refine { swept with pending := ?_ }
      intro item present
      obtain ⟨known, _⟩ | rfl := Table.mem_put.1 present
      · exact swept.pending item known
      · exact ⟨List.mem_cons_self .., rfl⟩

theorem claim_consistent {request : CodeExchangeRequest}
    {result : Except OAuthProviderError AuthorizationCodeRecord} (sound : ledger.Sound setting)
    (consistent : Consistent ledger ⟨store, state, front ++ .claiming request :: back⟩)
    (ran : claimValidCode setting.sha256 setting.codeChallengeOf given.now request state =
      (result, then_)) :
    (ledger.record (.advanced given (.claiming request) (.claimed result))).Sound setting ∧
      Consistent (ledger.record (.advanced given (.claiming request) (.claimed result)))
        ⟨store, then_, front ++ ((result.toOption.map (Task.claimed request)).toList ++ back)⟩ := by
  have grows := record_grows ledger (.advanced given (.claiming request) (.claimed result))
  have swept := (@Consistent.discard _ _ _ _ given.now consistent).grow grows
  obtain ⟨rfl, rfl⟩ | ⟨code, rfl, present, named, names, rfl⟩ := claimValidCode_cases ran
  · refine ⟨sound.grow grows rfl rfl rfl, swept.advance ?_⟩
    intro rest same
    exact absurd same.symm (Option.some_ne_none rest)
  · have issued := consistent.codes code (mem_discard_codes.1 present).1
    constructor
    · exact sound.addClaim grows rfl rfl rfl
        ⟨named, names, (mem_discard_codes.1 present).2, issued⟩
    · refine @Consistent.advance _ _ _ _ _ (.claiming request) _ { swept with codes := ?_ } ?_
      · intro other waiting
        exact swept.codes other (Table.mem_remove.1 waiting).1
      · intro rest same
        cases same
        exact ⟨⟨_, List.mem_cons_self .., rfl, rfl⟩, issued.grow grows⟩

theorem Ledger.Sound.grant {given : Given} {requestId candidate : String}
    {item : PendingAuthorization} (sound : ledger.Sound setting)
    (known : (item.requestId, item.request) ∈ ledger.asked) (wanted : item.scopes = item.request.wanted)
    (named : item.requestId = requestId) :
    ledger.grant given requestId candidate = [⟨candidate, codeRecord given.first given.now item⟩] := by
  have found : ledger.asked.find? (fun entry => entry.1 = requestId) =
      some (item.requestId, item.request) := by
    cases result : ledger.asked.find? (fun entry => entry.1 = requestId) with
    | none =>
      have absent := List.find?_eq_none.1 result _ known
      simp [named] at absent
    | some entry =>
      have same := List.find?_some result
      simp only [decide_eq_true_eq] at same
      rw [List.inj_on_of_nodup_map sound.askedOnce (List.mem_of_find?_eq_some result) known
        (same.trans named.symm)]
  simp only [Ledger.grant, found, codeRecord, wanted]

theorem approve_consistent {requestId candidate : String}
    {result : Except OAuthProviderError Callback} (sound : ledger.Sound setting)
    (consistent : Consistent ledger ⟨store, state, tasks⟩)
    (ran : approve setting.sha256 setting.parsesUrl setting.config given.now requestId candidate
      given.first state = (result, then_)) :
    (ledger.record (.called given (.approve requestId candidate) (.approved result))).Sound setting ∧
      Consistent (ledger.record (.called given (.approve requestId candidate) (.approved result)))
        ⟨store, then_, tasks⟩ := by
  have grows := record_grows ledger (.called given (.approve requestId candidate) (.approved result))
  have swept := @Consistent.discard _ _ _ _ given.now consistent
  obtain ⟨⟨error, rfl, other⟩, codes, _, asks⟩ | ⟨granted, owner, item, found, _, _, rfl⟩ :=
    approve_cases ran
  · have same : ∀ error, error ≠ .url →
        ledger.record (.called given (.approve requestId candidate) (.approved (.error error))) =
          { ledger.swept given.now with secrets := ledger.secrets } := by
      intro error other
      cases error <;> first | rfl | exact absurd rfl other
    rw [same error other] at grows ⊢
    exact ⟨sound.grow grows rfl rfl rfl, (swept.asks codes asks).grow grows⟩
  · obtain ⟨known, wanted⟩ := swept.pending item (Table.mem_of_find found)
    have entry := @Ledger.Sound.grant _ _ given requestId candidate item sound known wanted
      (Table.find_key found)
    -- both answers of a granted approval are recorded alike
    have recorded : ledger.record (.called given (.approve requestId candidate) (.approved result)) =
        { ledger.swept given.now with
          grants := ⟨candidate, codeRecord given.first given.now item⟩ :: ledger.grants
          secrets := given.first :: ledger.secrets } := by
      obtain ⟨callback, rfl⟩ | rfl := granted
      · simp only [Ledger.record, Ledger.note, entry, ProviderEvent.secrets, List.cons_append,
          List.nil_append]
      · simp only [Ledger.record, Ledger.note, entry, ProviderEvent.secrets, List.cons_append,
          List.nil_append]
    rw [recorded] at grows ⊢
    have grown := swept.grow grows
    constructor
    · refine sound.addGrant grows rfl rfl rfl owner ?_
      simp only [codeRecord, wanted]
      exact (sound.asked _ known).1
    · refine { grown with pending := ?_, codes := ?_ }
      · intro asked present
        exact grown.pending asked (Table.mem_remove.1 present).1
      · intro code present
        obtain ⟨waiting, _⟩ | rfl := Table.mem_put.1 present
        · exact grown.codes code waiting
        · exact ⟨_, List.mem_cons_self .., rfl⟩

/-! ## Sections on the store -/

theorem Issued.covered {code : AuthorizationCodeRecord} (issued : Issued ledger code) :
    Covered ledger code.clientId code.scopes := by
  obtain ⟨grant, known, rfl⟩ := issued
  exact ⟨grant, known, rfl, fun _ listed => listed⟩

theorem Covered.narrow {fewer : List String}
    (covered : Covered ledger clientId scopes) (within : ∀ scope ∈ fewer, scope ∈ scopes) :
    Covered ledger clientId fewer := by
  obtain ⟨grant, known, owner, all⟩ := covered
  exact ⟨grant, known, owner, fun scope listed => all scope (within scope listed)⟩

/-- Both tokens of a new pair have the client and the scopes it was made with. -/
theorem newTokenPair_covered {config : OAuthProviderConfig} {accessSecret : String}
    {refreshSecret : String} (covered : Covered ledger clientId scopes) (kind : TokenKind) :
    Covered ledger
      (member kind (newTokenPair config now clientId scopes accessSecret refreshSecret).1
        (newTokenPair config now clientId scopes accessSecret refreshSecret).2).clientId
      (member kind (newTokenPair config now clientId scopes accessSecret refreshSecret).1
        (newTokenPair config now clientId scopes accessSecret refreshSecret).2).scopes := by
  cases kind with
  | access => exact covered
  | refresh => exact covered

/-- A move on the store that is given a covered pair leaves covered rows. -/
theorem covered_of_move {limits : OAuthStoreLimits} {tokenHash : String → String}
    {db after : OAuthDb} {call : OAuthStore.StoreCall} {answer : OAuthStore.StoreAnswer}
    (move : StoreMove tokenHash limits now db call answer after)
    (pair : ∀ kind access refresh, ((∃ familyId, call = .saveTokenPair access refresh familyId) ∨
        ∃ old, call = .rotateTokenPair old access refresh) →
      Covered ledger (member kind access refresh).clientId (member kind access refresh).scopes) :
    ∀ row ∈ after.tokens.rows, row ∈ db.tokens.rows ∨ Covered ledger row.clientId row.scopes := by
  intro row present
  obtain known | ⟨kind, access, refresh, familyId, given_, rfl⟩ := move.rows present
  · exact Or.inl known
  · right
    refine pair kind access refresh ?_
    obtain saved | rotated := given_
    · exact Or.inl ⟨familyId, saved⟩
    · exact Or.inr rotated

theorem loadRefreshToken_some {tokenHash : String → String} {token : String} {db : OAuthDb}
    {record : OAuthTokenRecord} (loaded : (loadRefreshToken tokenHash now token db).1 = some record) :
    ∃ row ∈ db.tokens.rows, record.clientId = row.clientId ∧ record.scopes = row.scopes := by
  simp only [loadRefreshToken] at loaded
  split at loaded
  · next row live =>
    cases loaded
    exact ⟨row, (mem_swept.1 (loadTokenRow_some live).1).1, rfl, rfl⟩
  · split at loaded <;> cases loaded

theorem refreshScopes_ok {request : RefreshExchangeRequest} {existing : Option OAuthTokenRecord}
    {record : OAuthTokenRecord} (result : refreshScopes request existing = .ok (record, scopes)) :
    existing = some record ∧ ∀ scope ∈ scopes, scope ∈ record.scopes := by
  cases existing with
  | none => cases result
  | some found =>
    simp only [refreshScopes, ite_ok, reduceCtorEq, and_false, false_or] at result
    obtain ⟨_, result⟩ := result
    obtain ⟨_, _, result⟩ := bind_ok.1 result
    simp only [ite_ok, reduceCtorEq, and_false, or_false, Except.ok.injEq, Prod.mk.injEq] at result
    obtain ⟨within, rfl, rfl⟩ := result
    exact ⟨rfl, within⟩

/-- What refreshing leaves to rotate is covered, for it narrows a stored token. -/
theorem load_consistent {request : RefreshExchangeRequest} {outcome : Outcome} {left : Option Task}
    (consistent : Consistent ledger ⟨store, state, front ++ .loading request :: back⟩)
    (ran : advance setting given (.loading request) store state = (outcome, left, after, then_)) :
    Consistent ledger ⟨after, then_, front ++ (left.toList ++ back)⟩ := by
  have covered := @covered_of_move ledger _ _ _ _ _ _ _ (@loadRefreshToken_move setting.sha256
    setting.limits given.now request.refreshToken store.db) (by
      intro kind access refresh given_
      obtain ⟨_, same⟩ | ⟨_, same⟩ := given_ <;> cases same)
  simp only [advance] at ran
  split at ran
  · cases ran
    refine (consistent.tokens covered).advance ?_
    intro rest same
    cases same
  · next record scopes checked =>
    cases ran
    refine (consistent.tokens covered).advance ?_
    intro rest same
    cases same
    obtain ⟨loaded, within⟩ := refreshScopes_ok checked
    obtain ⟨row, present, client, all⟩ := loadRefreshToken_some loaded
    have narrowed : Covered ledger record.clientId scopes := by
      rw [client]
      refine (consistent.rows row present).narrow ?_
      rw [← all]
      exact within
    exact newTokenPair_covered narrowed

/-- Making room removes registrations only. -/
theorem makeClientRoom_ok {maxClients : Int} {made : OAuthStore}
    (room : makeClientRoom maxClients now store = .ok made) :
    (∀ row ∈ made.clients.rows, row ∈ store.clients.rows) ∧ made.db = store.db := by
  simp only [makeClientRoom] at room
  split at room
  · cases room
    exact ⟨fun _ present => present, rfl⟩
  · split at room
    · cases room
    · cases room
      exact ⟨fun _ present => List.mem_of_mem_filter present, rfl⟩

/-- A saved registration replaces its own row, or is added after others made room for it. -/
theorem saveClientPayload_ok {limits : OAuthStoreLimits} {client : StoredClient}
    (ran : saveClientPayload limits now client.clientId client store = (.ok (), after)) :
    (∀ row ∈ after.clients.rows, row ∈ store.clients.rows ∨
      row.payload = client ∧ row.clientId = client.clientId) ∧
    ∀ row ∈ after.db.tokens.rows, row ∈ store.db.tokens.rows := by
  have body := commit_ok ran
  simp only [saveClientPayloadIn, ite_ok, reduceCtorEq, and_false, false_or] at body
  obtain ⟨_, ⟨_, updated⟩ | ⟨_, body⟩⟩ := body
  · cases updated
    refine ⟨?_, fun _ present => (mem_swept.1 present).1⟩
    intro row present
    simp only [Table.update, List.mem_map] at present
    obtain ⟨before, known, rfl⟩ := present
    by_cases same : before.clientId = client.clientId
    · simp [same]
    · simp [same, known]
  · obtain ⟨made, room, inserted⟩ := bind_ok.1 body
    obtain ⟨fewer, db⟩ := makeClientRoom_ok room
    cases inserted
    constructor
    · intro row present
      simp only [Table.insertOrIgnore] at present
      split at present
      · exact Or.inl (fewer row present)
      · simp only [List.mem_append, List.mem_singleton] at present
        obtain known | rfl := present
        · exact Or.inl (fewer row known)
        · exact Or.inr ⟨rfl, rfl⟩
    · intro row present
      simp only [db] at present
      exact (mem_swept.1 present).1

theorem register_consistent {client : StoredClient} {result : Except OAuthStoreError Unit}
    (consistent : Consistent ledger ⟨store, state, tasks⟩)
    (ran : saveClientPayload setting.limits given.now client.clientId client store =
      (result, after)) :
    Consistent (ledger.record (.called given (.registerClient client) (.registered result)))
      ⟨after, state, tasks⟩ := by
  have grows := record_grows ledger (.called given (.registerClient client) (.registered result))
  cases result with
  | error error =>
    cases commit_error ran
    exact consistent.grow grows
  | ok _ =>
    obtain ⟨clients, tokens⟩ := saveClientPayload_ok ran
    have grown := consistent.grow grows
    refine { grown with clients := ?_, rows := ?_ }
    · intro row present
      obtain known | ⟨payload, named⟩ := clients row present
      · exact grown.clients row known
      · rw [payload]
        exact ⟨List.mem_cons_self .., named.symm⟩
    · intro row present
      exact grown.rows row (tokens row present)

/-! ## Every section -/

theorem advance_consistent {task : Task} {outcome : Outcome} {left : Option Task}
    (fresh : ∀ secret ∈ (ProviderEvent.advanced given task outcome).secrets,
      secret ∉ ledger.secrets) (sound : ledger.Sound setting)
    (consistent : Consistent ledger ⟨store, state, front ++ task :: back⟩)
    (ran : advance setting given task store state = (outcome, left, after, then_)) :
    (ledger.record (.advanced given task outcome)).Sound setting ∧
      Consistent (ledger.record (.advanced given task outcome))
        ⟨after, then_, front ++ (left.toList ++ back)⟩ := by
  have grows := record_grows ledger (.advanced given task outcome)
  have agrees := consistent.task
  cases task with
  | authorizing request scopes =>
    cases ran
    exact begin_consistent (fresh given.first (List.mem_cons_self ..)) sound
      consistent.drop agrees rfl
  | claiming request =>
    cases ran
    exact claim_consistent sound consistent rfl
  | claimed request code =>
    cases ran
    refine ⟨sound.grow grows rfl rfl rfl, (consistent.advance ?_).grow grows⟩
    intro rest same
    cases same
    exact ⟨agrees.1, agrees.2, newTokenPair_covered agrees.2.covered⟩
  | saving request code access refresh familyId =>
    simp only [advance] at ran
    generalize saved : saveTokenPair setting.sha256 setting.limits given.now access refresh
      familyId store.db = answer at ran
    obtain ⟨result, db⟩ := answer
    cases ran
    have covered := @covered_of_move ledger _ _ _ _ _ _ _ (saveTokenPair_move saved) (by
      intro kind access' refresh' given_
      obtain ⟨_, same⟩ | ⟨_, same⟩ := given_
      · cases same
        exact agrees.2.2 kind
      · cases same)
    refine ⟨?_, ((consistent.tokens covered).advance ?_).grow grows⟩
    · cases result with
      | ok _ => exact sound.grow grows rfl rfl rfl
      | error _ => exact sound.grow grows rfl rfl rfl
    · intro rest same
      cases same
      exact ⟨agrees.1, agrees.2.1⟩
  | completing request code access refresh result =>
    cases ran
    refine ⟨sound.grow grows rfl rfl rfl, ?_⟩
    have grown := consistent.drop.grow grows
    cases result with
    | ok _ => exact { grown with }
    | error error =>
      refine { grown with codes := ?_ }
      intro other present
      obtain ⟨waiting, _⟩ | rfl := Table.mem_put.1 present
      · exact grown.codes other waiting
      · exact agrees.2.grow grows
  | loading request =>
    refine ⟨?_, (load_consistent consistent ran).grow grows⟩
    simp only [advance] at ran
    split at ran <;> cases ran <;> exact sound.grow grows rfl rfl rfl
  | rotating oldRefresh access refresh =>
    simp only [advance] at ran
    generalize rotated : rotateTokenPair setting.sha256 setting.limits given.now oldRefresh access
      refresh store.db = answer at ran
    obtain ⟨result, db⟩ := answer
    cases ran
    have covered := @covered_of_move ledger _ _ _ _ _ _ _ (rotateTokenPair_move rotated) (by
      intro kind access' refresh' given_
      obtain ⟨_, same⟩ | ⟨_, same⟩ := given_
      · cases same
      · cases same
        exact agrees kind)
    exact ⟨sound.grow grows rfl rfl rfl, (consistent.tokens covered).drop.grow grows⟩

theorem direct_consistent {call : Direct} {answer : DirectAnswer}
    (sound : ledger.Sound setting) (consistent : Consistent ledger ⟨store, state, tasks⟩)
    (ran : direct setting given call store state = (answer, after, then_)) :
    (ledger.record (.called given call answer)).Sound setting ∧
      Consistent (ledger.record (.called given call answer)) ⟨after, then_, tasks⟩ := by
  have grows := record_grows ledger (.called given call answer)
  cases call with
  | registerClient client =>
    simp only [direct] at ran
    generalize registered : saveClientPayload setting.limits given.now client.clientId client
      store = result at ran
    obtain ⟨result, made⟩ := result
    cases ran
    refine ⟨?_, register_consistent consistent registered⟩
    cases result with
    | ok _ => exact sound.grow grows rfl rfl rfl
    | error _ => exact sound.grow grows rfl rfl rfl
  | pendingScopes requestId =>
    cases ran
    exact ⟨sound.grow grows rfl rfl rfl, consistent.discard.grow grows⟩
  | approve requestId candidate =>
    cases ran
    exact approve_consistent sound consistent rfl
  | authenticateAccess token =>
    cases ran
    exact ⟨sound.grow grows rfl rfl rfl, consistent.grow grows⟩
  | revoke token =>
    cases ran
    refine ⟨sound.grow grows rfl rfl rfl, (consistent.tokens ?_).grow grows⟩
    refine covered_of_move (@revokeFamily_move setting.sha256 setting.limits given.now token
      store.db) ?_
    intro kind access refresh given_
    obtain ⟨_, same⟩ | ⟨_, same⟩ := given_ <;> cases same

theorem step_consistent {provider next : Provider} {event : ProviderEvent}
    (step : ProviderStep setting provider event next)
    (fresh : ∀ secret ∈ event.secrets, secret ∉ ledger.secrets) (sound : ledger.Sound setting)
    (consistent : Consistent ledger provider) :
    (ledger.record event).Sound setting ∧ Consistent (ledger.record event) next := by
  have grows := record_grows ledger event
  cases step with
  | @entered _ call result checked =>
    refine ⟨sound.grow grows rfl rfl rfl, ?_⟩
    have grown := consistent.grow grows
    refine { grown with tasks := ?_ }
    intro task present
    rw [List.mem_append, Option.mem_toList] at present
    obtain started | running := present
    · cases result with
      | error _ => cases started
      | ok entered =>
        cases started
        exact (enter_consistent consistent checked).grow grows
    · exact grown.tasks task running
  | advanced ran => exact advance_consistent fresh sound consistent ran
  | called ran => exact direct_consistent sound consistent ran
  | @unsaved store state front back given request code access refresh familyId error =>
    have agrees := consistent.task
    refine ⟨sound.grow grows rfl rfl rfl, Consistent.grow grows (@Consistent.advance
      _ _ _ _ _ _ (some (.completing request code access refresh (.error error))) consistent ?_)⟩
    intro rest same
    cases same
    exact ⟨agrees.1, agrees.2.1⟩
  | restarted =>
    have grown := consistent.grow grows
    refine ⟨sound.grow grows rfl rfl rfl, { grown with pending := ?_, codes := ?_, tasks := ?_ }⟩
    · intro item present
      cases present
    · intro code present
      cases present
    · intro task present
      cases present

theorem run_consistent {events : List ProviderEvent} {provider : Provider}
    (run : ProviderRun setting .empty events provider) (fresh : Fresh events) :
    (OAuthProvider.ledger events).Sound setting ∧
      Consistent (OAuthProvider.ledger events) provider := by
  refine run.records (fun past provider => Fresh past →
    (OAuthProvider.ledger past).Sound setting ∧
      Consistent (OAuthProvider.ledger past) provider) ?_ ?_ fresh
  · intro past u event v _ step ih fresh
    obtain ⟨sound, consistent⟩ := ih fresh.front
    rw [ledger_snoc]
    exact step_consistent step (fun _ => fresh.last) sound consistent
  · intro _
    constructor
    · constructor <;> simp [OAuthProvider.ledger]
    · constructor <;> simp [Provider.empty, OAuthStore.empty, OAuthDb.empty, OAuthState.empty,
        Table.empty]

end CodexRemote.Verified.OAuthProvider

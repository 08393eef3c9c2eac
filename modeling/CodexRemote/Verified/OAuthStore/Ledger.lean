import CodexRemote.Foundations.Runs
import CodexRemote.McpServer.OAuthStore

/-! # What a call on the token store does

Events are the calls with their times and answers.  The inversion theorem says what
each call can do to the two tables; the theorems about runs only use that.
-/

namespace CodexRemote.Verified.OAuthStore

open Foundations McpServer

inductive StoreCall where
  | saveTokenPair (access refresh : OAuthTokenRecord) (familyId : String)
  | rotateTokenPair (oldRefreshToken : String) (access refresh : OAuthTokenRecord)
  | loadAccessToken (token : String)
  | loadRefreshToken (token : String)
  | revokeFamily (token : String)
  | countTokenFamilies (clientId : Option String)

inductive StoreAnswer where
  | saved (result : Except OAuthStoreError Unit)
  | rotation (result : Except OAuthStoreError RefreshRotationOutcome)
  | record (found : Option OAuthTokenRecord)
  | revoked
  | count (families : Int)

variable (tokenHash : String → String) (limits : OAuthStoreLimits)

def perform (now : Int) : StoreCall → OAuthDb → StoreAnswer × OAuthDb
  | .saveTokenPair access refresh familyId, db =>
    let (result, next) := saveTokenPair tokenHash limits now access refresh familyId db
    (.saved result, next)
  | .rotateTokenPair oldRefreshToken access refresh, db =>
    let (result, next) := rotateTokenPair tokenHash limits now oldRefreshToken access refresh db
    (.rotation result, next)
  | .loadAccessToken token, db => (.record (loadAccessToken tokenHash token db), db)
  | .loadRefreshToken token, db =>
    let (found, next) := loadRefreshToken tokenHash now token db
    (.record found, next)
  | .revokeFamily token, db => (.revoked, revokeFamily tokenHash now token db)
  | .countTokenFamilies clientId, db =>
    let (families, next) := countTokenFamilies now clientId db
    (.count families, next)

inductive StoreEvent where
  | called (now : Int) (call : StoreCall) (answer : StoreAnswer)
  | failed

/-- One call on the store.  A call may also fail in SQLite itself, which rolls it back. -/
inductive StoreStep : OAuthDb → StoreEvent → OAuthDb → Prop where
  | called {db next : OAuthDb} {now : Int} {call : StoreCall} {answer : StoreAnswer}
      (performed : perform tokenHash limits now call db = (answer, next)) :
      StoreStep db (.called now call answer) next
  | failed (db : OAuthDb) : StoreStep db .failed db

abbrev StoreRun (db : OAuthDb) (events : List StoreEvent) (next : OAuthDb) : Prop :=
  Run (StoreStep tokenHash limits) db events next

/-- The rows of a new pair of tokens. -/
def pairRows (access refresh : OAuthTokenRecord) (familyId : String) : List TokenRow :=
  [tokenRow tokenHash access .access familyId, tokenRow tokenHash refresh .refresh familyId]

/-- What each call can do, where every case but the refusals and the access lookup has
swept the expired rows first. -/
inductive StoreMove (now : Int) (db : OAuthDb) : StoreCall → StoreAnswer → OAuthDb → Prop where
  | unsaved {access refresh : OAuthTokenRecord} {familyId : String} {error : OAuthStoreError} :
      StoreMove now db (.saveTokenPair access refresh familyId) (.saved (.error error)) db
  | saved {next : OAuthDb} {access refresh : OAuthTokenRecord} {familyId : String}
      (room : ensureFamilyRoom limits access.clientId familyId (deleteExpired now db) = .ok ())
      (history : next.history = (deleteExpired now db).history)
      (tokens : next.tokens.rows =
        (deleteExpired now db).tokens.rows ++ pairRows tokenHash access refresh familyId) :
      StoreMove now db (.saveTokenPair access refresh familyId) (.saved (.ok ())) next
  | unrotated {old : String} {access refresh : OAuthTokenRecord} {error : OAuthStoreError}
      (cause : refresh.expiresAt = none ∨
        ∃ row, loadTokenRow tokenHash (deleteExpired now db) old .refresh = some row) :
      StoreMove now db (.rotateTokenPair old access refresh) (.rotation (.error error)) db
  | missing {old : String} {access refresh : OAuthTokenRecord}
      (gone : loadTokenRow tokenHash (deleteExpired now db) old .refresh = none)
      (unspent : findHistoryFamily tokenHash (deleteExpired now db) old = none) :
      StoreMove now db (.rotateTokenPair old access refresh) (.rotation (.ok .missing))
        (deleteExpired now db)
  | replayed {old familyId : String} {access refresh : OAuthTokenRecord}
      (gone : loadTokenRow tokenHash (deleteExpired now db) old .refresh = none)
      (spent : findHistoryFamily tokenHash (deleteExpired now db) old = some familyId) :
      StoreMove now db (.rotateTokenPair old access refresh) (.rotation (.ok .replayed))
        (deleteFamily familyId (deleteExpired now db))
  | exhausted {old : String} {access refresh : OAuthTokenRecord} {row : TokenRow}
      (live : loadTokenRow tokenHash (deleteExpired now db) old .refresh = some row) :
      StoreMove now db (.rotateTokenPair old access refresh) (.rotation (.ok .historyExhausted))
        (deleteFamily row.familyId (deleteExpired now db))
  | rotated {next : OAuthDb} {old : String} {access refresh : OAuthTokenRecord} {row : TokenRow}
      {successorExpiry : Int}
      (live : loadTokenRow tokenHash (deleteExpired now db) old .refresh = some row)
      (room : historyAtCapacity limits row.familyId (deleteExpired now db) = false)
      (expires : refresh.expiresAt = some successorExpiry)
      (history : next.history.rows =
        (extendHistory row.familyId successorExpiry (deleteExpired now db)).history.rows ++
          [⟨tokenHash old, row.familyId, successorExpiry, now⟩])
      (tokens : next.tokens.rows = (deleteFamily row.familyId (deleteExpired now db)).tokens.rows ++
        pairRows tokenHash access refresh row.familyId) :
      StoreMove now db (.rotateTokenPair old access refresh) (.rotation (.ok .rotated)) next
  | accessLoaded {token : String} :
      StoreMove now db (.loadAccessToken token) (.record (loadAccessToken tokenHash token db)) db
  | refreshLoaded {token : String} {row : TokenRow}
      (live : loadTokenRow tokenHash (deleteExpired now db) token .refresh = some row) :
      StoreMove now db (.loadRefreshToken token) (.record (some (row.withPlaintext token)))
        (deleteExpired now db)
  | refreshReplayed {token familyId : String}
      (gone : loadTokenRow tokenHash (deleteExpired now db) token .refresh = none)
      (spent : findHistoryFamily tokenHash (deleteExpired now db) token = some familyId) :
      StoreMove now db (.loadRefreshToken token) (.record none)
        (deleteFamily familyId (deleteExpired now db))
  | refreshMissing {token : String}
      (gone : loadTokenRow tokenHash (deleteExpired now db) token .refresh = none)
      (unspent : findHistoryFamily tokenHash (deleteExpired now db) token = none) :
      StoreMove now db (.loadRefreshToken token) (.record none) (deleteExpired now db)
  | revoked {token familyId : String}
      (found : (findTokenFamily tokenHash (deleteExpired now db) token <|>
        findHistoryFamily tokenHash (deleteExpired now db) token) = some familyId) :
      StoreMove now db (.revokeFamily token) .revoked
        (deleteFamily familyId (deleteExpired now db))
  | unrevoked {token : String}
      (unknown : (findTokenFamily tokenHash (deleteExpired now db) token <|>
        findHistoryFamily tokenHash (deleteExpired now db) token) = none) :
      StoreMove now db (.revokeFamily token) .revoked (deleteExpired now db)
  | counted {clientId : Option String} {families : Int} :
      StoreMove now db (.countTokenFamilies clientId) (.count families) (deleteExpired now db)

/-! ## Statements that insert -/

variable {db next : OAuthDb} {familyId : String} {access refresh : OAuthTokenRecord} {now : Int}

section

variable {tokenHash : String → String} {limits : OAuthStoreLimits}

theorem insertToken_ok {token : OAuthTokenRecord} {kind : TokenKind}
    (result : insertToken tokenHash token kind familyId db = .ok next) :
    next.history = db.history ∧
      next.tokens.rows = db.tokens.rows ++ [tokenRow tokenHash token kind familyId] := by
  simp only [insertToken] at result
  split at result
  · next inserted =>
    cases result
    exact ⟨rfl, (Table.insert_some inserted).1⟩
  · cases result

theorem insertHistory_ok {row : HistoryRow} (result : insertHistory row db = .ok next) :
    next.tokens = db.tokens ∧ next.history.rows = db.history.rows ++ [row] := by
  simp only [insertHistory] at result
  split at result
  · next inserted =>
    cases result
    exact ⟨rfl, (Table.insert_some inserted).1⟩
  · cases result

theorem insertPair_ok {middle : OAuthDb}
    (first : insertToken tokenHash access .access familyId db = .ok middle)
    (second : insertToken tokenHash refresh .refresh familyId middle = .ok next) :
    next.history = db.history ∧
      next.tokens.rows = db.tokens.rows ++ pairRows tokenHash access refresh familyId := by
  obtain ⟨oneHistory, oneTokens⟩ := insertToken_ok first
  obtain ⟨twoHistory, twoTokens⟩ := insertToken_ok second
  refine ⟨twoHistory.trans oneHistory, ?_⟩
  rw [twoTokens, oneTokens, List.append_assoc]
  rfl

/-! ## Calls -/

theorem saveTokenPair_move {result : Except OAuthStoreError Unit}
    (call : saveTokenPair tokenHash limits now access refresh familyId db = (result, next)) :
    StoreMove tokenHash limits now db (.saveTokenPair access refresh familyId) (.saved result)
      next := by
  cases result with
  | error e =>
    cases commit_error call
    exact .unsaved
  | ok _ =>
    have body := commit_ok call
    simp only [saveTokenPairIn] at body
    obtain ⟨_, room, body⟩ := bind_ok.1 body
    obtain ⟨middle, first, body⟩ := bind_ok.1 body
    obtain ⟨last, second, body⟩ := bind_ok.1 body
    cases body
    obtain ⟨history, tokens⟩ := insertPair_ok first second
    exact .saved room history tokens

theorem rotateFamily_ok {successorExpiry : Int} {old : String} {outcome : RefreshRotationOutcome}
    (result : rotateFamily tokenHash limits now successorExpiry old access refresh familyId db =
      .ok (outcome, next)) :
    (outcome = .historyExhausted ∧ next = deleteFamily familyId db) ∨
      (outcome = .rotated ∧ historyAtCapacity limits familyId db = false ∧
        next.history.rows = (extendHistory familyId successorExpiry db).history.rows ++
          [⟨tokenHash old, familyId, successorExpiry, now⟩] ∧
        next.tokens.rows = (deleteFamily familyId db).tokens.rows ++
          pairRows tokenHash access refresh familyId) := by
  simp only [rotateFamily] at result
  split at result
  · cases result
    exact Or.inl ⟨rfl, rfl⟩
  · next room =>
    obtain ⟨recorded, insert, result⟩ := bind_ok.1 result
    obtain ⟨middle, first, result⟩ := bind_ok.1 result
    obtain ⟨last, second, result⟩ := bind_ok.1 result
    cases result
    obtain ⟨sameTokens, addedHistory⟩ := insertHistory_ok insert
    obtain ⟨sameHistory, addedTokens⟩ := insertPair_ok first second
    refine Or.inr ⟨rfl, by simpa using room, ?_, ?_⟩
    · rw [sameHistory]
      exact addedHistory
    · rw [addedTokens]
      simp only [deleteFamily, sameTokens, extendHistory]

theorem rotateTokenPair_move {old : String} {result : Except OAuthStoreError RefreshRotationOutcome}
    (call : rotateTokenPair tokenHash limits now old access refresh db = (result, next)) :
    StoreMove tokenHash limits now db (.rotateTokenPair old access refresh) (.rotation result)
      next := by
  simp only [rotateTokenPair] at call
  split at call
  · next unending =>
    cases call
    exact .unrotated (Or.inl unending)
  · next successorExpiry expires =>
    cases result with
    | error e =>
      -- only the inserts of a live rotation can fail
      cases live : loadTokenRow tokenHash (deleteExpired now db) old .refresh with
      | some row =>
        cases commit_error call
        exact .unrotated (Or.inr ⟨row, live⟩)
      | none =>
        simp only [commit, commitWhen, rotateTokenPairIn, live] at call
        cases spent : findHistoryFamily tokenHash (deleteExpired now db) old <;>
          simp [spent] at call
    | ok outcome =>
      have body := commit_ok call
      simp only [rotateTokenPairIn] at body
      split at body
      · next row live =>
        obtain ⟨rfl, rfl⟩ | ⟨rfl, room, history, tokens⟩ := rotateFamily_ok body
        · exact .exhausted live
        · exact .rotated live room expires history tokens
      · next gone =>
        split at body
        · next familyId spent =>
          cases body
          exact .replayed gone spent
        · next unspent =>
          cases body
          exact .missing gone unspent

theorem loadRefreshToken_move {now : Int} {token : String} {db : OAuthDb} :
    StoreMove tokenHash limits now db (.loadRefreshToken token)
      (.record (loadRefreshToken tokenHash now token db).1)
      (loadRefreshToken tokenHash now token db).2 := by
  simp only [loadRefreshToken]
  cases live : loadTokenRow tokenHash (deleteExpired now db) token .refresh with
  | some row => exact .refreshLoaded live
  | none =>
    cases spent : findHistoryFamily tokenHash (deleteExpired now db) token with
    | some familyId => exact .refreshReplayed live spent
    | none => exact .refreshMissing live spent

theorem revokeFamily_move {now : Int} {token : String} {db : OAuthDb} :
    StoreMove tokenHash limits now db (.revokeFamily token) .revoked
      (revokeFamily tokenHash now token db) := by
  simp only [revokeFamily]
  split
  · next found => exact .revoked found
  · next unknown => exact .unrevoked unknown

theorem perform_move {call : StoreCall} {answer : StoreAnswer}
    (performed : perform tokenHash limits now call db = (answer, next)) :
    StoreMove tokenHash limits now db call answer next := by
  cases call with
  | saveTokenPair access refresh familyId =>
    cases performed
    exact saveTokenPair_move rfl
  | rotateTokenPair old access refresh =>
    cases performed
    exact rotateTokenPair_move rfl
  | loadAccessToken token =>
    cases performed
    exact .accessLoaded
  | loadRefreshToken token =>
    cases performed
    exact loadRefreshToken_move
  | revokeFamily token =>
    cases performed
    exact revokeFamily_move
  | countTokenFamilies clientId =>
    cases performed
    exact .counted

end

end CodexRemote.Verified.OAuthStore

/-! ## The tokens a run has issued

The ledger is read off the events alone: which tokens were handed out, to which
family, and which refresh tokens were rotated away.  It says what the families of a
run are without looking at the database.
-/

namespace CodexRemote.Verified.OAuthStore

open Foundations McpServer

structure Issued where
  token : String
  kind : TokenKind
  familyId : String
  clientId : String
  expiresAt : Option Int
deriving DecidableEq, Repr

def entry (kind : TokenKind) (familyId : String) (token : OAuthTokenRecord) : Issued :=
  ⟨token.token, kind, familyId, token.clientId, token.expiresAt⟩

def issue (familyId : String) (access refresh : OAuthTokenRecord) : List Issued :=
  [entry .refresh familyId refresh, entry .access familyId access]

/-- The tokens an event adds to the ledger: a rotation continues the family of the
presented token. -/
def StoreEvent.issues (known : List Issued) : StoreEvent → List Issued
  | .called _ (.saveTokenPair access refresh familyId) (.saved (.ok ())) =>
    issue familyId access refresh
  | .called _ (.rotateTokenPair old access refresh) (.rotation (.ok .rotated)) =>
    match known.find? fun i => i.token = old with
    | some presented => issue presented.familyId access refresh
    | none => []
  | _ => []

/-- Latest first. -/
def ledger (past : List StoreEvent) : List Issued :=
  past.foldl (fun known event => event.issues known ++ known) []

def latest (past : List StoreEvent) (kind : TokenKind) (familyId : String) : Option Issued :=
  (ledger past).find? fun i => i.familyId = familyId ∧ i.kind = kind

def Belongs (past : List StoreEvent) (token familyId : String) : Prop :=
  ∃ i ∈ ledger past, i.token = token ∧ i.familyId = familyId

/-- The refresh token that a call answered `Rotated`. -/
def StoreEvent.rotated? : StoreEvent → Option String
  | .called _ (.rotateTokenPair old _ _) (.rotation (.ok .rotated)) => some old
  | _ => none

def rotated (past : List StoreEvent) : List String := past.filterMap (·.rotated?)

/-- The token that a call found to be live. -/
def StoreEvent.found? : StoreEvent → Option String
  | .called _ (.loadAccessToken token) (.record (some _)) => some token
  | .called _ (.loadRefreshToken token) (.record (some _)) => some token
  | .called _ (.rotateTokenPair old _ _) (.rotation (.ok .rotated)) => some old
  | .called _ (.rotateTokenPair old _ _) (.rotation (.ok .historyExhausted)) => some old
  | _ => none

def StoreEvent.time? : StoreEvent → Option Int
  | .called now _ _ => some now
  | .failed => none

def StoreCall.newTokens : StoreCall → List String
  | .saveTokenPair access refresh _ => [access.token, refresh.token]
  | .rotateTokenPair _ access refresh => [access.token, refresh.token]
  | _ => []

def StoreCall.presented : StoreCall → List String
  | .rotateTokenPair old _ _ => [old]
  | .loadAccessToken token => [token]
  | .loadRefreshToken token => [token]
  | .revokeFamily token => [token]
  | _ => []

def StoreCall.newFamily : StoreCall → Option String
  | .saveTokenPair _ _ familyId => some familyId
  | _ => none

def StoreEvent.call? : StoreEvent → Option StoreCall
  | .called _ call _ => some call
  | .failed => none

def calls (past : List StoreEvent) : List StoreCall := past.filterMap (·.call?)

def newTokens (past : List StoreEvent) : List String := (calls past).flatMap (·.newTokens)

def strings (past : List StoreEvent) : List String :=
  (calls past).flatMap fun call => call.newTokens ++ call.presented

def newFamilies (past : List StoreEvent) : List String := (calls past).filterMap (·.newFamily)

/-! ## What the callers promise -/

/-- `new_token_pair` gives both tokens of a pair the same client: the one that the code was
issued to, or the one that the presented refresh token belongs to. -/
def OneClient (past : List StoreEvent) : StoreCall → Prop
  | .saveTokenPair access refresh _ => access.clientId = refresh.clientId
  | .rotateTokenPair old access refresh =>
    access.clientId = refresh.clientId ∧
      ∀ i ∈ ledger past, i.token = old → i.clientId = access.clientId
  | _ => True

structure FreshCall (past : List StoreEvent) (now : Int) (call : StoreCall) : Prop where
  later : ∀ earlier ∈ past.filterMap (·.time?), earlier ≤ now
  distinct : call.newTokens.Nodup
  fresh : ∀ token ∈ call.newTokens, token ∉ newTokens past
  freshFamily : ∀ familyId, call.newFamily = some familyId → familyId ∉ newFamilies past

structure FairCall (past : List StoreEvent) (now : Int) (call : StoreCall) : Prop
    extends FreshCall past now call where
  oneClient : OneClient past call

/-- Calls at non-decreasing times, with new families and new tokens, each family for one
client, and no collision of the hash among the strings that occur. -/
structure Fair (tokenHash : String → String) (events : List StoreEvent) : Prop where
  calls : ∀ past now call answer back, events = past ++ .called now call answer :: back →
    FairCall past now call
  injective : ∀ s ∈ strings events, ∀ t ∈ strings events, tokenHash s = tokenHash t → s = t

variable {tokenHash : String → String}

theorem strings_append (past back : List StoreEvent) :
    strings (past ++ back) = strings past ++ strings back := by
  simp [strings, calls]

theorem newTokens_append (past back : List StoreEvent) :
    newTokens (past ++ back) = newTokens past ++ newTokens back := by
  simp [newTokens, calls]

theorem newFamilies_append (past back : List StoreEvent) :
    newFamilies (past ++ back) = newFamilies past ++ newFamilies back := by
  simp [newFamilies, calls]

theorem rotated_append (past back : List StoreEvent) :
    rotated (past ++ back) = rotated past ++ rotated back := by
  simp [rotated]

theorem ledger_snoc (past : List StoreEvent) (event : StoreEvent) :
    ledger (past ++ [event]) = event.issues (ledger past) ++ ledger past := by
  simp [ledger]

theorem Fair.front {past back : List StoreEvent} (fair : Fair tokenHash (past ++ back)) :
    Fair tokenHash past := by
  constructor
  · intro front now call answer rest split
    exact fair.calls front now call answer (rest ++ back) (by simp [split])
  · intro s first t second
    apply fair.injective
    · rw [strings_append]
      exact List.mem_append_left _ first
    · rw [strings_append]
      exact List.mem_append_left _ second

theorem Fair.last {past : List StoreEvent} {now : Int} {call : StoreCall} {answer : StoreAnswer}
    (fair : Fair tokenHash (past ++ [.called now call answer])) : FairCall past now call :=
  fair.calls past now call answer [] rfl

/-! ## Facts about the ledger -/

/-- What the promises make of the ledger. -/
structure Sound (past : List StoreEvent) : Prop where
  tokens : ((ledger past).map (·.token)).Nodup
  made : ∀ i ∈ ledger past, i.token ∈ newTokens past
  families : ∀ i ∈ ledger past, i.familyId ∈ newFamilies past

variable {past : List StoreEvent}

theorem mem_strings_of_new {token : String}
    (new : token ∈ newTokens past) : token ∈ strings past := by
  simp only [newTokens, strings, List.mem_flatMap] at new ⊢
  obtain ⟨call, member, made⟩ := new
  exact ⟨call, member, List.mem_append_left _ made⟩

theorem mem_of_latest {kind : TokenKind} {familyId : String} {i : Issued}
    (found : latest past kind familyId = some i) :
    i ∈ ledger past ∧ i.familyId = familyId ∧ i.kind = kind := by
  have named := List.find?_some found
  simp only [decide_eq_true_eq] at named
  exact ⟨List.mem_of_find?_eq_some found, named⟩

/-- A token belongs to one entry of the ledger. -/
theorem Sound.same (sound : Sound past) {i j : Issued}
    (first : i ∈ ledger past) (second : j ∈ ledger past) (token : i.token = j.token) : i = j :=
  List.inj_on_of_nodup_map sound.tokens first second token

theorem Sound.presented (sound : Sound past) {i : Issued} {old : String}
    (member : i ∈ ledger past) (token : i.token = old) :
    (ledger past).find? (fun i => i.token = old) = some i := by
  cases found : (ledger past).find? (fun i => i.token = old) with
  | none =>
    have absent := List.find?_eq_none.1 found i member
    simp [token] at absent
  | some j =>
    have named := List.find?_some found
    simp only [decide_eq_true_eq] at named
    rw [sound.same (List.mem_of_find?_eq_some found) member (named.trans token.symm)]

/-- The entries that an event adds are those of one new pair, in a new family or in
that of the presented token. -/
theorem issues_cases {past : List StoreEvent} (event : StoreEvent) :
    event.issues (ledger past) = [] ∨
      ∃ now call answer familyId access refresh, event = .called now call answer ∧
        event.issues (ledger past) = issue familyId access refresh ∧
        call.newTokens = [access.token, refresh.token] ∧
        (call = .saveTokenPair access refresh familyId ∨
          ∃ presented ∈ ledger past, presented.familyId = familyId ∧
            call = .rotateTokenPair presented.token access refresh) := by
  unfold StoreEvent.issues
  split
  · exact Or.inr ⟨_, _, _, _, _, _, rfl, rfl, rfl, Or.inl rfl⟩
  · split
    · next presented found =>
      have named := List.find?_some found
      simp only [decide_eq_true_eq] at named
      exact Or.inr ⟨_, _, _, _, _, _, rfl, rfl, rfl,
        Or.inr ⟨presented, List.mem_of_find?_eq_some found, rfl, by rw [named]⟩⟩
    · exact Or.inl rfl
  · exact Or.inl rfl

theorem newTokens_snoc {now : Int} {call : StoreCall} {answer : StoreAnswer} :
    newTokens (past ++ [.called now call answer]) = newTokens past ++ call.newTokens := by
  rw [newTokens_append]
  simp [newTokens, calls, StoreEvent.call?]

theorem newFamilies_snoc {now : Int} {call : StoreCall} {answer : StoreAnswer} :
    newFamilies (past ++ [.called now call answer]) = newFamilies past ++ call.newFamily.toList := by
  rw [newFamilies_append]
  cases family : call.newFamily <;> simp [newFamilies, calls, StoreEvent.call?, family]

theorem strings_snoc {now : Int} {call : StoreCall} {answer : StoreAnswer} :
    strings (past ++ [.called now call answer]) =
      strings past ++ (call.newTokens ++ call.presented) := by
  rw [strings_append]
  simp [strings, calls, StoreEvent.call?]

theorem Sound.idle (sound : Sound past) {event : StoreEvent}
    (silent : event.issues (ledger past) = []) : Sound (past ++ [event]) := by
  have same : ledger (past ++ [event]) = ledger past := by rw [ledger_snoc, silent, List.nil_append]
  constructor
  · rw [same]
    exact sound.tokens
  · intro i member
    rw [same] at member
    rw [newTokens_append]
    exact List.mem_append_left _ (sound.made i member)
  · intro i member
    rw [same] at member
    rw [newFamilies_append]
    exact List.mem_append_left _ (sound.families i member)

/-- A new pair keeps the ledger sound: its tokens are new, and its family is new or known. -/
theorem Sound.issued {past : List StoreEvent} (sound : Sound past) {now : Int} {call : StoreCall}
    {answer : StoreAnswer} {familyId : String} {access refresh : OAuthTokenRecord}
    (added : ledger (past ++ [.called now call answer]) =
      issue familyId access refresh ++ ledger past)
    (made : call.newTokens = [access.token, refresh.token])
    (origin : call = .saveTokenPair access refresh familyId ∨
      ∃ presented ∈ ledger past, presented.familyId = familyId ∧
        call = .rotateTokenPair presented.token access refresh)
    (fair : FairCall past now call) : Sound (past ++ [.called now call answer]) := by
  have distinct := fair.distinct
  have fresh := fair.fresh
  rw [made] at distinct fresh
  constructor
  · rw [added]
    simp only [issue, List.cons_append, List.nil_append, List.map_cons, List.nodup_cons,
      List.mem_cons, List.mem_map, not_or, entry]
    refine ⟨⟨fun equal => ?_, ?_⟩, ?_, sound.tokens⟩
    · simp [equal] at distinct
    · intro ⟨i, known, same⟩
      exact fresh refresh.token (by simp) (same ▸ sound.made i known)
    · intro ⟨i, known, same⟩
      exact fresh access.token (by simp) (same ▸ sound.made i known)
  · intro i member
    rw [added, List.mem_append] at member
    rw [newTokens_snoc, made]
    cases member with
    | inl new =>
      apply List.mem_append_right
      simp only [issue, List.mem_cons, List.not_mem_nil, or_false] at new
      obtain rfl | rfl := new <;> simp [entry]
    | inr known => exact List.mem_append_left _ (sound.made i known)
  · intro i member
    rw [added, List.mem_append] at member
    rw [newFamilies_snoc]
    cases member with
    | inl new =>
      have same : i.familyId = familyId := by
        simp only [issue, List.mem_cons, List.not_mem_nil, or_false] at new
        obtain rfl | rfl := new <;> rfl
      obtain rfl | ⟨presented, known, rfl, rfl⟩ := origin
      · simp [StoreCall.newFamily, same]
      · rw [same]
        exact List.mem_append_left _ (sound.families presented known)
    | inr known => exact List.mem_append_left _ (sound.families i known)

theorem sound_of_fair {events : List StoreEvent} (fair : Fair tokenHash events) : Sound events := by
  induction events using List.reverseRecOn with
  | nil => constructor <;> simp [ledger]
  | append_singleton past event ih =>
    have sound := ih fair.front
    obtain silent | ⟨now, call, answer, familyId, access, refresh, rfl, added, made, origin⟩ :=
      @issues_cases past event
    · exact sound.idle silent
    · refine sound.issued ?_ made origin fair.last
      rw [ledger_snoc, added]

end CodexRemote.Verified.OAuthStore

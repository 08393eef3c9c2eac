import CodexRemote.Verified.OAuthStore.Ledger

/-! # Token families over whole runs

A family is dead when no token of it is stored.  The invariant ties the tables to the
ledger: stored tokens are the latest of their family, a latest token that is missing has
expired unless its family is dead, and a token that was rotated away is on record for as
long as its family can live.
-/

namespace CodexRemote.Verified.OAuthStore

open Foundations McpServer

def Dead (db : OAuthDb) (familyId : String) : Prop :=
  ∀ row ∈ db.tokens.rows, row.familyId ≠ familyId

/-- A call was made after the expiry. -/
def Lapsed (past : List StoreEvent) (expiresAt : Option Int) : Prop :=
  ∃ now ∈ past.filterMap (·.time?), expired now expiresAt

def Stored (tokenHash : String → String) (db : OAuthDb) (i : Issued) : Prop :=
  ∃ row ∈ db.tokens.rows, row.tokenHash = tokenHash i.token ∧ row.tokenKind = i.kind ∧
    row.familyId = i.familyId ∧ row.expiresAt = i.expiresAt

def OnRecord (tokenHash : String → String) (db : OAuthDb) (token : String) (i : Issued) : Prop :=
  ∃ row ∈ db.history.rows, row.tokenHash = tokenHash token ∧ row.familyId = i.familyId ∧
    some row.expiresAt = i.expiresAt

/-- A token that was rotated away is superseded in its family, and on record for as long as the
latest refresh token of the family can be used. -/
def Superseded (tokenHash : String → String) (past : List StoreEvent) (db : OAuthDb)
    (token : String) : Prop :=
  ∃ i, Belongs past token i.familyId ∧ latest past .refresh i.familyId = some i ∧ i.token ≠ token ∧
    (Dead db i.familyId ∨ Lapsed past i.expiresAt ∨ OnRecord tokenHash db token i)

structure Tracked (tokenHash : String → String) (past : List StoreEvent) (db : OAuthDb) : Prop where
  stored : ∀ row ∈ db.tokens.rows, ∃ i, latest past row.tokenKind row.familyId = some i ∧
    row.tokenHash = tokenHash i.token ∧ row.clientId = i.clientId ∧ row.expiresAt = i.expiresAt
  kept : ∀ kind familyId i, latest past kind familyId = some i →
    Dead db familyId ∨ Lapsed past i.expiresAt ∨ Stored tokenHash db i
  spent : ∀ token ∈ rotated past, Superseded tokenHash past db token
  once : (rotated past).Nodup

variable {tokenHash : String → String} {limits : OAuthStoreLimits}

variable {expiresAt : Option Int} {now : Int} {past : List StoreEvent} {call : StoreCall}
  {familyId token : String} {db next : OAuthDb} {row : TokenRow} {i : Issued}

theorem expired_mono {earlier : Int} (later : earlier ≤ now)
    (past : expired earlier expiresAt = true) : expired now expiresAt = true := by
  cases expiresAt with
  | none => exact past
  | some at_ =>
    simp only [expired, Option.any_some, decide_eq_true_eq] at past ⊢
    omega

theorem Lapsed.append {back : List StoreEvent}
    (lapsed : Lapsed past expiresAt) : Lapsed (past ++ back) expiresAt := by
  obtain ⟨now, member, over_⟩ := lapsed
  refine ⟨now, ?_, over_⟩
  rw [List.filterMap_append]
  exact List.mem_append_left _ member

theorem lapsed_now {answer : StoreAnswer} (over_ : expired now expiresAt = true) :
    Lapsed (past ++ [.called now call answer]) expiresAt :=
  ⟨now, by simp [StoreEvent.time?], over_⟩

/-- What has lapsed is expired at the next call. -/
theorem Lapsed.expired (lapsed : Lapsed past expiresAt) (fair : FairCall past now call) :
    expired now expiresAt = true := by
  obtain ⟨earlier, member, over_⟩ := lapsed
  exact expired_mono (fair.later earlier member) over_

theorem Belongs.append {back : List StoreEvent}
    (belongs : Belongs past token familyId) : Belongs (past ++ back) token familyId := by
  induction back using List.reverseRecOn with
  | nil => simpa using belongs
  | append_singleton back event ih =>
    obtain ⟨i, member, named⟩ := ih
    refine ⟨i, ?_, named⟩
    rw [← List.append_assoc, ledger_snoc]
    exact List.mem_append_right _ member

/-! ## The tables under the statements -/

theorem mem_swept :
    row ∈ (deleteExpired now db).tokens.rows ↔
      row ∈ db.tokens.rows ∧ expired now row.expiresAt = false := by
  simp [deleteExpired, Table.delete]

theorem mem_swept_history {row : HistoryRow} :
    row ∈ (deleteExpired now db).history.rows ↔
      row ∈ db.history.rows ∧ now ≤ row.expiresAt := by
  simp [deleteExpired, Table.delete]

theorem mem_deleteFamily :
    row ∈ (deleteFamily familyId db).tokens.rows ↔
      row ∈ db.tokens.rows ∧ row.familyId ≠ familyId := by
  simp [deleteFamily, Table.delete]

theorem deleteFamily_dead (familyId : String) (db : OAuthDb) :
    Dead (deleteFamily familyId db) familyId :=
  fun _ member => (mem_deleteFamily.1 member).2

theorem loadTokenRow_some {kind : TokenKind}
    (live : loadTokenRow tokenHash db token kind = some row) :
    row ∈ db.tokens.rows ∧ row.tokenHash = tokenHash token ∧ row.tokenKind = kind := by
  simp only [loadTokenRow, Option.filter_eq_some_iff, decide_eq_true_eq] at live
  exact ⟨Table.mem_of_find live.1, Table.find_key live.1, live.2⟩

/-- The three shapes of a move that issues nothing, and the two that issue a pair. -/
theorem StoreMove.shape {answer : StoreAnswer}
    (move : StoreMove tokenHash limits now db call answer next) (past : List StoreEvent) :
    ((StoreEvent.called now call answer).issues (ledger past) = [] ∧
      (StoreEvent.called now call answer).rotated? = none ∧
      (next = db ∨ next = deleteExpired now db ∨
        ∃ familyId, next = deleteFamily familyId (deleteExpired now db))) ∨
    (∃ access refresh familyId, call = .saveTokenPair access refresh familyId ∧
      answer = .saved (.ok ()) ∧ next.history = (deleteExpired now db).history ∧
      next.tokens.rows =
        (deleteExpired now db).tokens.rows ++ pairRows tokenHash access refresh familyId) ∨
    (∃ old access refresh row successorExpiry, call = .rotateTokenPair old access refresh ∧
      answer = .rotation (.ok .rotated) ∧
      loadTokenRow tokenHash (deleteExpired now db) old .refresh = some row ∧
      refresh.expiresAt = some successorExpiry ∧
      next.history.rows =
        (extendHistory row.familyId successorExpiry (deleteExpired now db)).history.rows ++
          [⟨tokenHash old, row.familyId, successorExpiry, now⟩] ∧
      next.tokens.rows = (deleteFamily row.familyId (deleteExpired now db)).tokens.rows ++
        pairRows tokenHash access refresh row.familyId) := by
  cases move with
  | saved room history tokens => exact Or.inr (Or.inl ⟨_, _, _, rfl, rfl, history, tokens⟩)
  | rotated live room expires history tokens =>
    exact Or.inr (Or.inr ⟨_, _, _, _, _, rfl, rfl, live, expires, history, tokens⟩)
  | unsaved => exact Or.inl ⟨rfl, rfl, Or.inl rfl⟩
  | unrotated cause => exact Or.inl ⟨rfl, rfl, Or.inl rfl⟩
  | accessLoaded => exact Or.inl ⟨rfl, rfl, Or.inl rfl⟩
  | missing gone unspent => exact Or.inl ⟨rfl, rfl, Or.inr (Or.inl rfl)⟩
  | refreshLoaded live => exact Or.inl ⟨rfl, rfl, Or.inr (Or.inl rfl)⟩
  | refreshMissing gone unspent => exact Or.inl ⟨rfl, rfl, Or.inr (Or.inl rfl)⟩
  | unrevoked unknown => exact Or.inl ⟨rfl, rfl, Or.inr (Or.inl rfl)⟩
  | counted => exact Or.inl ⟨rfl, rfl, Or.inr (Or.inl rfl)⟩
  | replayed gone spent => exact Or.inl ⟨rfl, rfl, Or.inr (Or.inr ⟨_, rfl⟩)⟩
  | exhausted live => exact Or.inl ⟨rfl, rfl, Or.inr (Or.inr ⟨_, rfl⟩)⟩
  | refreshReplayed gone spent => exact Or.inl ⟨rfl, rfl, Or.inr (Or.inr ⟨_, rfl⟩)⟩
  | revoked found => exact Or.inl ⟨rfl, rfl, Or.inr (Or.inr ⟨_, rfl⟩)⟩

/-! ## Moves that issue nothing -/

theorem quiet_ledger {event : StoreEvent}
    (silent : event.issues (ledger past) = []) : ledger (past ++ [event]) = ledger past := by
  rw [ledger_snoc, silent, List.nil_append]

theorem quiet_latest {event : StoreEvent}
    (silent : event.issues (ledger past) = []) (kind : TokenKind) (familyId : String) :
    latest (past ++ [event]) kind familyId = latest past kind familyId := by
  simp only [latest, quiet_ledger silent]

theorem quiet_rotated {past : List StoreEvent} {event : StoreEvent}
    (unrotated : event.rotated? = none) : rotated (past ++ [event]) = rotated past := by
  rw [rotated_append]
  simp [rotated, unrotated]

/-- Tables that only lost lapsed rows and the rows of families that are now dead. -/
structure Faded (past : List StoreEvent) (db next : OAuthDb) : Prop where
  tokens : ∀ row ∈ next.tokens.rows, row ∈ db.tokens.rows
  lost : ∀ row ∈ db.tokens.rows,
    Dead next row.familyId ∨ Lapsed past row.expiresAt ∨ row ∈ next.tokens.rows
  forgotten : ∀ row ∈ db.history.rows, Lapsed past (some row.expiresAt) ∨ row ∈ next.history.rows

theorem faded_self (past : List StoreEvent) (db : OAuthDb) : Faded past db db :=
  ⟨fun _ member => member, fun _ member => Or.inr (Or.inr member), fun _ member => Or.inr member⟩

theorem faded_swept {past : List StoreEvent} {now : Int} {call : StoreCall} {answer : StoreAnswer}
    {db : OAuthDb} : Faded (past ++ [.called now call answer]) db (deleteExpired now db) := by
  constructor
  · intro row member
    exact (mem_swept.1 member).1
  · intro row member
    cases over_ : expired now row.expiresAt with
    | true => exact Or.inr (Or.inl (lapsed_now over_))
    | false => exact Or.inr (Or.inr (mem_swept.2 ⟨member, over_⟩))
  · intro row member
    by_cases live : now ≤ row.expiresAt
    · exact Or.inr (mem_swept_history.2 ⟨member, live⟩)
    · refine Or.inl (lapsed_now ?_)
      simpa [expired] using live

theorem Faded.deleteFamily
    (faded : Faded past db next) (familyId : String) : Faded past db (deleteFamily familyId next) := by
  constructor
  · intro row member
    exact faded.tokens row (mem_deleteFamily.1 member).1
  · intro row member
    by_cases same : row.familyId = familyId
    · exact Or.inl (same ▸ deleteFamily_dead familyId next)
    · obtain dead | lapsed | still := faded.lost row member
      · exact Or.inl fun other present => dead other (mem_deleteFamily.1 present).1
      · exact Or.inr (Or.inl lapsed)
      · exact Or.inr (Or.inr (mem_deleteFamily.2 ⟨still, same⟩))
  · exact faded.forgotten

theorem Faded.dead (faded : Faded past db next) (dead : Dead db familyId) : Dead next familyId :=
  fun row member => dead row (faded.tokens row member)

theorem Faded.stored (faded : Faded past db next) (stored : Stored tokenHash db i) :
    Dead next i.familyId ∨ Lapsed past i.expiresAt ∨ Stored tokenHash next i := by
  obtain ⟨row, member, hash, kind, family, expiry⟩ := stored
  obtain dead | lapsed | still := faded.lost row member
  · exact Or.inl (family ▸ dead)
  · exact Or.inr (Or.inl (expiry ▸ lapsed))
  · exact Or.inr (Or.inr ⟨row, still, hash, kind, family, expiry⟩)

theorem Faded.onRecord (faded : Faded past db next) (known : OnRecord tokenHash db token i) :
    Lapsed past i.expiresAt ∨ OnRecord tokenHash next token i := by
  obtain ⟨row, member, hash, family, expiry⟩ := known
  obtain lapsed | still := faded.forgotten row member
  · exact Or.inl (expiry ▸ lapsed)
  · exact Or.inr ⟨row, still, hash, family, expiry⟩

theorem Tracked.faded {event : StoreEvent}
    (tracked : Tracked tokenHash past db) (silent : event.issues (ledger past) = [])
    (unrotated : event.rotated? = none) (faded : Faded (past ++ [event]) db next) :
    Tracked tokenHash (past ++ [event]) next := by
  have quiet := quiet_latest silent
  have same := @quiet_rotated past _ unrotated
  constructor
  · intro row member
    rw [quiet]
    exact tracked.stored row (faded.tokens row member)
  · intro kind familyId i found
    rw [quiet] at found
    obtain dead | lapsed | stored := tracked.kept kind familyId i found
    · exact Or.inl (faded.dead dead)
    · exact Or.inr (Or.inl lapsed.append)
    · exact (mem_of_latest found).2.1 ▸ faded.stored stored
  · intro token spent
    rw [same] at spent
    obtain ⟨i, belongs, found, other, state⟩ := tracked.spent token spent
    refine ⟨i, belongs.append, by rw [quiet]; exact found, other, ?_⟩
    obtain dead | lapsed | known := state
    · exact Or.inl (faded.dead dead)
    · exact Or.inr (Or.inl lapsed.append)
    · exact Or.inr (faded.onRecord known)
  · rw [same]
    exact tracked.once

/-! ## Moves that issue a pair -/

/-- The member of a pair. -/
def member (kind : TokenKind) (access refresh : OAuthTokenRecord) : OAuthTokenRecord :=
  match kind with
  | .access => access
  | .refresh => refresh

theorem mem_pairRows {access refresh : OAuthTokenRecord} :
    row ∈ pairRows tokenHash access refresh familyId ↔
      ∃ kind, row = tokenRow tokenHash (member kind access refresh) kind familyId := by
  simp only [pairRows, List.mem_cons, List.not_mem_nil, or_false]
  constructor
  · intro either
    cases either with
    | inl first => exact ⟨.access, first⟩
    | inr second => exact ⟨.refresh, second⟩
  · intro ⟨kind, same⟩
    cases kind with
    | access => exact Or.inl same
    | refresh => exact Or.inr same

/-- Every row that a move leaves was there, or belongs to the pair it was given. -/
theorem StoreMove.rows {answer : StoreAnswer}
    (move : StoreMove tokenHash limits now db call answer next) (present : row ∈ next.tokens.rows) :
    row ∈ db.tokens.rows ∨ ∃ kind access refresh familyId,
      (call = .saveTokenPair access refresh familyId ∨
        ∃ old, call = .rotateTokenPair old access refresh) ∧
      row = tokenRow tokenHash (member kind access refresh) kind familyId := by
  obtain ⟨_, _, rfl | rfl | ⟨familyId, rfl⟩⟩ | saved | rotated_ := move.shape []
  · exact Or.inl present
  · exact Or.inl (mem_swept.1 present).1
  · exact Or.inl (mem_swept.1 (mem_deleteFamily.1 present).1).1
  · obtain ⟨access, refresh, familyId, rfl, _, _, tokens⟩ := saved
    rw [tokens, List.mem_append] at present
    cases present with
    | inl old => exact Or.inl (mem_swept.1 old).1
    | inr new =>
      obtain ⟨kind, rfl⟩ := mem_pairRows.1 new
      exact Or.inr ⟨kind, access, refresh, familyId, Or.inl rfl, rfl⟩
  · obtain ⟨old, access, refresh, row_, _, rfl, _, _, _, _, tokens⟩ := rotated_
    rw [tokens, List.mem_append] at present
    cases present with
    | inl kept => exact Or.inl (mem_swept.1 (mem_deleteFamily.1 kept).1).1
    | inr new =>
      obtain ⟨kind, rfl⟩ := mem_pairRows.1 new
      exact Or.inr ⟨kind, access, refresh, row_.familyId, Or.inr ⟨old, rfl⟩, rfl⟩

section

variable {past : List StoreEvent} {event : StoreEvent} {familyId : String}
  {access refresh : OAuthTokenRecord}

theorem latest_issued (added : ledger (past ++ [event]) = issue familyId access refresh ++ ledger past)
    (kind : TokenKind) :
    latest (past ++ [event]) kind familyId = some (entry kind familyId (member kind access refresh)) := by
  cases kind <;> simp [latest, added, issue, entry, member]

theorem latest_issued_other
    (added : ledger (past ++ [event]) = issue familyId access refresh ++ ledger past)
    (kind : TokenKind) {other : String} (apart : familyId ≠ other) :
    latest (past ++ [event]) kind other = latest past kind other := by
  simp [latest, added, issue, entry, apart]

/-- Tables without the family of the new pair, and the tables with it. -/
structure Issues (tokenHash : String → String) (familyId : String)
    (access refresh : OAuthTokenRecord) (base next : OAuthDb) : Prop where
  apart : Dead base familyId
  tokens : next.tokens.rows = base.tokens.rows ++ pairRows tokenHash access refresh familyId

variable {base next : OAuthDb}

theorem Issues.dead (issues : Issues tokenHash familyId access refresh base next) {other : String}
    (apart : familyId ≠ other) (dead : Dead base other) : Dead next other := by
  intro row present
  rw [issues.tokens, List.mem_append] at present
  cases present with
  | inl old => exact dead row old
  | inr new =>
    obtain ⟨kind, rfl⟩ := mem_pairRows.1 new
    exact apart

theorem Issues.stored (issues : Issues tokenHash familyId access refresh base next)
    (stored : Stored tokenHash base i) : Stored tokenHash next i := by
  obtain ⟨row, present, same⟩ := stored
  exact ⟨row, by rw [issues.tokens]; exact List.mem_append_left _ present, same⟩

/-- What the tables track after a pair was issued, but for the history. -/
theorem Issues.tracked (issues : Issues tokenHash familyId access refresh base next)
    (tracked : Tracked tokenHash past db) (faded : Faded (past ++ [event]) db base)
    (added : ledger (past ++ [event]) = issue familyId access refresh ++ ledger past) :
    (∀ row ∈ next.tokens.rows, ∃ i, latest (past ++ [event]) row.tokenKind row.familyId = some i ∧
      row.tokenHash = tokenHash i.token ∧ row.clientId = i.clientId ∧
      row.expiresAt = i.expiresAt) ∧
    ∀ kind other i, latest (past ++ [event]) kind other = some i →
      Dead next other ∨ Lapsed (past ++ [event]) i.expiresAt ∨ Stored tokenHash next i := by
  constructor
  · intro row present
    rw [issues.tokens, List.mem_append] at present
    cases present with
    | inl old =>
      rw [latest_issued_other added _ (issues.apart row old).symm]
      exact tracked.stored row (faded.tokens row old)
    | inr new =>
      obtain ⟨kind, rfl⟩ := mem_pairRows.1 new
      exact ⟨_, latest_issued added kind, rfl, rfl, rfl⟩
  · intro kind other i found
    by_cases same : familyId = other
    · subst same
      rw [latest_issued added] at found
      cases found
      refine Or.inr (Or.inr ⟨tokenRow tokenHash (member kind access refresh) kind familyId, ?_, rfl,
        rfl, rfl, rfl⟩)
      rw [issues.tokens]
      exact List.mem_append_right _ (mem_pairRows.2 ⟨kind, rfl⟩)
    · rw [latest_issued_other added _ same] at found
      obtain dead | lapsed | stored := tracked.kept kind other i found
      · exact Or.inl (issues.dead same (faded.dead dead))
      · exact Or.inr (Or.inl lapsed.append)
      · obtain dead | lapsed | still := faded.stored stored
        · rw [(mem_of_latest found).2.1] at dead
          exact Or.inl (issues.dead same dead)
        · exact Or.inr (Or.inl lapsed)
        · exact Or.inr (Or.inr (issues.stored still))

/-- A token rotated away in another family is tracked as before. -/
theorem Issues.spent_other (issues : Issues tokenHash familyId access refresh base next)
    (faded : Faded (past ++ [event]) db base)
    (added : ledger (past ++ [event]) = issue familyId access refresh ++ ledger past)
    (apart : familyId ≠ i.familyId)
    (records : OnRecord tokenHash base token i → OnRecord tokenHash next token i)
    (belongs : Belongs past token i.familyId) (found : latest past .refresh i.familyId = some i)
    (other : i.token ≠ token)
    (state : Dead db i.familyId ∨ Lapsed past i.expiresAt ∨ OnRecord tokenHash db token i) :
    Superseded tokenHash (past ++ [event]) next token := by
  refine ⟨i, belongs.append, by rw [latest_issued_other added _ apart]; exact found, other, ?_⟩
  obtain dead | lapsed | known := state
  · exact Or.inl (issues.dead apart (faded.dead dead))
  · exact Or.inr (Or.inl lapsed.append)
  · obtain lapsed | still := faded.onRecord known
    · exact Or.inr (Or.inl lapsed)
    · exact Or.inr (Or.inr (records still))

/-- A token of the family of the new pair is superseded by it. -/
theorem superseded_issued
    (added : ledger (past ++ [event]) = issue familyId access refresh ++ ledger past)
    (fresh : ∀ i ∈ ledger past, refresh.token ≠ i.token) (belongs : Belongs past token familyId)
    (record : OnRecord tokenHash next token (entry .refresh familyId refresh)) :
    Superseded tokenHash (past ++ [event]) next token := by
  refine ⟨entry .refresh familyId refresh, belongs.append, latest_issued added .refresh, ?_,
    Or.inr (Or.inr record)⟩
  obtain ⟨i, known, named, _⟩ := belongs
  exact named ▸ fresh i known

end

end CodexRemote.Verified.OAuthStore

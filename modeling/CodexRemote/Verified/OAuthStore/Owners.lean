import CodexRemote.Verified.OAuthStore.Families

/-! # Whose tokens a call on the store can touch

In a store that the calls have built, the tokens of a family belong to one client and no
live token is also on record as spent.
-/

namespace CodexRemote.Verified.OAuthStore

open Foundations McpServer

structure Owned (db : OAuthDb) : Prop where
  oneClient : ∀ row ∈ db.tokens.rows, ∀ other ∈ db.tokens.rows,
    row.familyId = other.familyId → row.clientId = other.clientId
  unspent : ∀ row ∈ db.tokens.rows, ∀ spent ∈ db.history.rows, spent.tokenHash ≠ row.tokenHash

/-- A hash that no live or spent token has. -/
structure NewHash (db : OAuthDb) (hash : String) : Prop where
  tokens : ∀ row ∈ db.tokens.rows, row.tokenHash ≠ hash
  history : ∀ row ∈ db.history.rows, row.tokenHash ≠ hash

def NewFamily (db : OAuthDb) (familyId : String) : Prop :=
  ∀ row ∈ db.tokens.rows, row.familyId ≠ familyId

variable {tokenHash : String → String} {limits : OAuthStoreLimits}

/-- Tables that only lost rows. -/
structure Fewer (db next : OAuthDb) : Prop where
  tokens : ∀ row ∈ next.tokens.rows, row ∈ db.tokens.rows
  history : ∀ row ∈ next.history.rows, row ∈ db.history.rows

theorem fewer_swept (now : Int) (db : OAuthDb) : Fewer db (deleteExpired now db) :=
  ⟨fun _ present => (mem_swept.1 present).1, fun _ present => (mem_swept_history.1 present).1⟩

variable {db next : OAuthDb} {familyId : String} {now : Int} {row : TokenRow}
  {access refresh : OAuthTokenRecord}

theorem Fewer.deleteFamily (fewer : Fewer db next) (familyId : String) :
    Fewer db (deleteFamily familyId next) :=
  ⟨fun row present => fewer.tokens row (mem_deleteFamily.1 present).1, fewer.history⟩

theorem Owned.fewer (owned : Owned db) (fewer : Fewer db next) : Owned next := by
  constructor
  · intro row present other beside
    exact owned.oneClient row (fewer.tokens row present) other (fewer.tokens other beside)
  · intro row present spent recorded
    exact owned.unspent row (fewer.tokens row present) spent (fewer.history spent recorded)

theorem NewHash.fewer {hash : String} (new : NewHash db hash)
    (fewer : Fewer db next) : NewHash next hash :=
  ⟨fun row present => new.tokens row (fewer.tokens row present),
    fun row recorded => new.history row (fewer.history row recorded)⟩

theorem NewFamily.fewer (new : NewFamily db familyId)
    (fewer : Fewer db next) : NewFamily next familyId :=
  fun row present => new row (fewer.tokens row present)

theorem mem_extendHistory {expiresAt : Int} {row : HistoryRow}
    (recorded : row ∈ (extendHistory familyId expiresAt db).history.rows) :
    ∃ before ∈ db.history.rows, before.tokenHash = row.tokenHash := by
  simp only [extendHistory, Table.update, List.mem_map] at recorded
  obtain ⟨before, present, rfl⟩ := recorded
  refine ⟨before, present, ?_⟩
  split <;> rfl

/-- What lies behind a lookup of a live token. -/
theorem loadTokenRow_live {token : String} {kind : TokenKind}
    (live : loadTokenRow tokenHash (deleteExpired now db) token kind = some row) :
    row ∈ db.tokens.rows ∧ expired now row.expiresAt = false ∧ row.tokenHash = tokenHash token ∧
      row.tokenKind = kind := by
  obtain ⟨present, hash, named⟩ := loadTokenRow_some live
  obtain ⟨stored, unexpired⟩ := mem_swept.1 present
  exact ⟨stored, unexpired, hash, named⟩

/-- The same lookup after an earlier sweep. -/
theorem loadTokenRow_mem {token : String}
    (present : row ∈ db.tokens.rows) (unexpired : expired now row.expiresAt = false)
    (hash : row.tokenHash = tokenHash token) :
    loadTokenRow tokenHash (deleteExpired now db) token row.tokenKind = some row := by
  have found : (deleteExpired now db).tokens.find (tokenHash token) = some row :=
    Table.find_some_iff.2 ⟨mem_swept.2 ⟨present, unexpired⟩, hash⟩
  simp [loadTokenRow, found]

/-- A lookup can only find the row that has the hash. -/
theorem loadTokenRow_same {token : String} {kind : TokenKind}
    {found : TokenRow} (present : row ∈ db.tokens.rows) (hash : row.tokenHash = tokenHash token)
    (live : loadTokenRow tokenHash (deleteExpired now db) token kind = some found) :
    found = row := by
  obtain ⟨stored, _, same, _⟩ := loadTokenRow_live live
  have first := Table.find_of_mem stored
  rw [same, ← hash, Table.find_of_mem present] at first
  exact (Option.some.inj first).symm

/-- A token with a live row is not found among the spent ones. -/
theorem Owned.unfound {now : Int} {db : OAuthDb} (owned : Owned db) {token : String}
    {row : TokenRow} (present : row ∈ db.tokens.rows) (hash : row.tokenHash = tokenHash token) :
    findHistoryFamily tokenHash (deleteExpired now db) token = none := by
  simp only [findHistoryFamily, Option.map_eq_none_iff, Table.find_none_iff]
  intro spent recorded same
  exact owned.unspent row present spent (mem_swept_history.1 recorded).1 (same.trans hash.symm)

theorem owned_issued (owned : Owned db) (client : access.clientId = refresh.clientId)
    (unused : ∀ row ∈ db.tokens.rows, row.familyId ≠ familyId)
    (unspent : ∀ row ∈ next.tokens.rows, ∀ spent ∈ next.history.rows,
      spent.tokenHash ≠ row.tokenHash)
    (tokens : next.tokens.rows = db.tokens.rows ++ pairRows tokenHash access refresh familyId) :
    Owned next := by
  refine ⟨?_, unspent⟩
  have pair : ∀ row ∈ pairRows tokenHash access refresh familyId,
      row.familyId = familyId ∧ row.clientId = access.clientId := by
    intro row made
    simp only [pairRows, List.mem_cons, List.not_mem_nil, or_false] at made
    obtain rfl | rfl := made
    · exact ⟨rfl, rfl⟩
    · exact ⟨rfl, client.symm⟩
  intro row present other beside same
  rw [tokens, List.mem_append] at present beside
  obtain before | made := present
  · obtain earlier | made := beside
    · exact owned.oneClient row before other earlier same
    · exact absurd (same.trans (pair other made).1) (unused row before)
  · obtain earlier | also := beside
    · exact absurd (same.symm.trans (pair row made).1) (unused other earlier)
    · exact (pair row made).2.trans (pair other also).2.symm

/-- What is promised of the pair that a call brings. -/
def PairNew (tokenHash : String → String) (db : OAuthDb) (access refresh : OAuthTokenRecord) :
    Prop :=
  access.clientId = refresh.clientId ∧ NewHash db (tokenHash access.token) ∧
    NewHash db (tokenHash refresh.token)

theorem PairNew.rows (new : PairNew tokenHash db access refresh) :
    ∀ row ∈ pairRows tokenHash access refresh familyId, NewHash db row.tokenHash := by
  intro row made
  simp only [pairRows, List.mem_cons, List.not_mem_nil, or_false] at made
  obtain rfl | rfl := made
  · exact new.2.1
  · exact new.2.2

theorem Owned.saved {now : Int} {db next : OAuthDb} {access refresh : OAuthTokenRecord}
    {familyId : String} (owned : Owned db) (new : PairNew tokenHash db access refresh)
    (unused : NewFamily db familyId) (history : next.history = (deleteExpired now db).history)
    (tokens : next.tokens.rows =
      (deleteExpired now db).tokens.rows ++ pairRows tokenHash access refresh familyId) :
    Owned next := by
  have fewer := fewer_swept now db
  refine owned_issued (owned.fewer fewer) new.1 (unused.fewer fewer) ?_ tokens
  intro row present spent recorded
  rw [history] at recorded
  rw [tokens, List.mem_append] at present
  obtain before | made := present
  · exact (owned.fewer fewer).unspent row before spent recorded
  · exact (new.rows row made).history spent (fewer.history spent recorded)

theorem Owned.rotated {successorExpiry : Int} {old : String} (owned : Owned db)
    (new : PairNew tokenHash db access refresh)
    (live : loadTokenRow tokenHash (deleteExpired now db) old .refresh = some row)
    (history : next.history.rows =
      (extendHistory row.familyId successorExpiry (deleteExpired now db)).history.rows ++
        [⟨tokenHash old, row.familyId, successorExpiry, now⟩])
    (tokens : next.tokens.rows = (deleteFamily row.familyId (deleteExpired now db)).tokens.rows ++
      pairRows tokenHash access refresh row.familyId) : Owned next := by
  have fewer := (fewer_swept now db).deleteFamily row.familyId
  obtain ⟨stored, unexpired, hash, _⟩ := loadTokenRow_live live
  refine owned_issued (owned.fewer fewer) new.1 (deleteFamily_dead row.familyId _) ?_ tokens
  intro other present spent recorded
  rw [history, List.mem_append, List.mem_singleton] at recorded
  rw [tokens, List.mem_append] at present
  obtain before | rfl := recorded
  · obtain ⟨earlier, known, same⟩ := mem_extendHistory before
    rw [← same]
    have listed := (mem_swept_history.1 known).1
    obtain kept | made := present
    · exact owned.unspent other (fewer.tokens other kept) earlier listed
    · exact (new.rows other made).history earlier listed
  · obtain kept | made := present
    · -- the presented token was stored in the family that is gone
      intro same
      have one := Table.find_of_mem stored
      rw [hash, show tokenHash old = other.tokenHash from same,
        Table.find_of_mem (fewer.tokens other kept)] at one
      cases one
      exact (mem_deleteFamily.1 kept).2 rfl
    · intro same
      exact (new.rows other made).tokens row stored (hash.trans same)

/-! ## Calls that go through -/

theorem insertToken_new {token : OAuthTokenRecord} {kind : TokenKind}
    (new : ∀ row ∈ db.tokens.rows, row.tokenHash ≠ tokenHash token.token) :
    ∃ next, insertToken tokenHash token kind familyId db = .ok next := by
  have free : (tokenRow tokenHash token kind familyId).tokenHash ∉
      db.tokens.rows.map TokenRow.tokenHash := by
    intro taken
    obtain ⟨row, present, same⟩ := List.mem_map.1 taken
    exact new row present same
  simp [insertToken, Table.insert, free]

theorem insertPair_new {access refresh : OAuthTokenRecord} {familyId : String} {db : OAuthDb}
    (first : ∀ row ∈ db.tokens.rows, row.tokenHash ≠ tokenHash access.token)
    (second : ∀ row ∈ db.tokens.rows, row.tokenHash ≠ tokenHash refresh.token)
    (apart : tokenHash access.token ≠ tokenHash refresh.token) :
    ∃ middle next, insertToken tokenHash access .access familyId db = .ok middle ∧
      insertToken tokenHash refresh .refresh familyId middle = .ok next := by
  obtain ⟨middle, one⟩ := insertToken_new first
  obtain ⟨_, tokens⟩ := insertToken_ok one
  have rest : ∀ row ∈ middle.tokens.rows, row.tokenHash ≠ tokenHash refresh.token := by
    intro row present
    rw [tokens, List.mem_append, List.mem_singleton] at present
    obtain before | rfl := present
    · exact second row before
    · exact apart
  obtain ⟨next, two⟩ := insertToken_new rest
  exact ⟨middle, next, one, two⟩

/-- A new pair is saved where there is room for its family. -/
theorem saveTokenPair_new (new : PairNew tokenHash db access refresh)
    (apart : tokenHash access.token ≠ tokenHash refresh.token)
    (room : ensureFamilyRoom limits access.clientId familyId (deleteExpired now db) = .ok ()) :
    (saveTokenPair tokenHash limits now access refresh familyId db).1 = .ok () := by
  have fewer := fewer_swept now db
  obtain ⟨middle, next, one, two⟩ := @insertPair_new tokenHash access refresh familyId
    (deleteExpired now db) (new.2.1.fewer fewer).tokens (new.2.2.fewer fewer).tokens apart
  have body : saveTokenPairIn tokenHash limits now access refresh familyId db = .ok ((), next) := by
    simp only [saveTokenPairIn]
    exact bind_ok.2 ⟨(), room, bind_ok.2 ⟨middle, one, bind_ok.2 ⟨next, two, rfl⟩⟩⟩
  simp [saveTokenPair, commit, commitWhen, body]

/-- A live token is rotated where its family may have one more spent token. -/
theorem rotateTokenPair_new {successorExpiry : Int} {old : String} (owned : Owned db)
    (new : PairNew tokenHash db access refresh)
    (apart : tokenHash access.token ≠ tokenHash refresh.token)
    (expires : refresh.expiresAt = some successorExpiry)
    (live : loadTokenRow tokenHash (deleteExpired now db) old .refresh = some row)
    (room : historyAtCapacity limits row.familyId (deleteExpired now db) = false) :
    (rotateTokenPair tokenHash limits now old access refresh db).1 = .ok .rotated := by
  have fewer := (fewer_swept now db).deleteFamily row.familyId
  obtain ⟨stored, _, hash, _⟩ := loadTokenRow_live live
  have free : tokenHash old ∉ (extendHistory row.familyId successorExpiry
      (deleteExpired now db)).history.rows.map HistoryRow.tokenHash := by
    intro taken
    obtain ⟨spent, recorded, same⟩ := List.mem_map.1 taken
    obtain ⟨before, known, also⟩ := mem_extendHistory recorded
    refine owned.unspent row stored before (mem_swept_history.1 known).1 ?_
    rw [also, same, hash]
  obtain ⟨recorded, insert⟩ : ∃ recorded, insertHistory ⟨tokenHash old, row.familyId,
      successorExpiry, now⟩ (extendHistory row.familyId successorExpiry (deleteExpired now db)) =
        .ok recorded := by
    simp [insertHistory, Table.insert, free]
  obtain ⟨same, _⟩ := insertHistory_ok insert
  have left : (deleteFamily row.familyId recorded).tokens.rows =
      (deleteFamily row.familyId (deleteExpired now db)).tokens.rows := by
    simp only [deleteFamily, same, extendHistory]
  obtain ⟨middle, next, one, two⟩ := @insertPair_new tokenHash access refresh row.familyId
    (deleteFamily row.familyId recorded) (by rw [left]; exact (new.2.1.fewer fewer).tokens)
    (by rw [left]; exact (new.2.2.fewer fewer).tokens) apart
  have family : rotateFamily tokenHash limits now successorExpiry old access refresh row.familyId
      (deleteExpired now db) = .ok (.rotated, next) := by
    simp only [rotateFamily, room, Bool.false_eq_true, if_false]
    exact bind_ok.2 ⟨recorded, insert, bind_ok.2 ⟨middle, one, bind_ok.2 ⟨next, two, rfl⟩⟩⟩
  simp [rotateTokenPair, expires, commit, commitWhen, rotateTokenPairIn, live, family]

end CodexRemote.Verified.OAuthStore

import CodexRemote.Verified.OAuthStore.Families

/-! # Rotation keeps track of every family

The step lemmas of the two calls that issue a pair, and the invariant of a whole run.
-/

namespace CodexRemote.Verified.OAuthStore

open Foundations McpServer

variable {tokenHash : String → String} {limits : OAuthStoreLimits} {past : List StoreEvent}
  {now : Int} {call : StoreCall} {answer : StoreAnswer} {db next : OAuthDb}

theorem ledger_saved {access refresh : OAuthTokenRecord} {familyId : String} :
    ledger (past ++ [.called now (.saveTokenPair access refresh familyId) (.saved (.ok ()))]) =
      issue familyId access refresh ++ ledger past := by
  rw [ledger_snoc]
  rfl

theorem Sound.ledger_rotated (sound : Sound past) {access refresh : OAuthTokenRecord} {i : Issued}
    (known : i ∈ ledger past) :
    ledger (past ++ [.called now (.rotateTokenPair i.token access refresh)
      (.rotation (.ok .rotated))]) = issue i.familyId access refresh ++ ledger past := by
  rw [ledger_snoc]
  simp only [StoreEvent.issues, sound.presented known rfl]

variable {row : TokenRow}

/-- The row of a known token is the row of its entry. -/
theorem Tracked.row_of_token (tracked : Tracked tokenHash past db) (sound : Sound past)
    {token : String} (present : row ∈ db.tokens.rows) (hash : row.tokenHash = tokenHash token)
    (injective : ∀ s ∈ newTokens past, tokenHash s = tokenHash token → s = token) :
    ∃ i, i ∈ ledger past ∧ latest past row.tokenKind row.familyId = some i ∧ i.token = token ∧
      i.familyId = row.familyId ∧ row.expiresAt = i.expiresAt ∧ row.clientId = i.clientId := by
  obtain ⟨i, found, same, client, expiry⟩ := tracked.stored row present
  obtain ⟨known, family, _⟩ := mem_of_latest found
  have token_ : i.token = token := injective i.token (sound.made i known) (same.symm.trans hash)
  exact ⟨i, known, found, token_, family, expiry, client⟩

/-- A call's presented token collides with no earlier one. -/
theorem Fair.presented (fair : Fair tokenHash (past ++ [.called now call answer])) {token : String}
    (presented : token ∈ call.presented) :
    ∀ s ∈ newTokens past, tokenHash s = tokenHash token → s = token := by
  intro s new
  apply fair.injective
  · rw [strings_append]
    exact List.mem_append_left _ (mem_strings_of_new new)
  · rw [strings_snoc]
    exact List.mem_append_right _ (List.mem_append_right _ presented)

/-! ## Saving a pair -/

theorem Tracked.save {access refresh : OAuthTokenRecord} {familyId : String}
    (tracked : Tracked tokenHash past db) (fair : Fair tokenHash (past ++
      [.called now (.saveTokenPair access refresh familyId) (.saved (.ok ()))]))
    (history : next.history = (deleteExpired now db).history) (tokens : next.tokens.rows =
      (deleteExpired now db).tokens.rows ++ pairRows tokenHash access refresh familyId) :
    Tracked tokenHash
      (past ++ [.called now (.saveTokenPair access refresh familyId) (.saved (.ok ()))]) next := by
  have sound := sound_of_fair fair.front
  have fresh : ∀ i ∈ ledger past, familyId ≠ i.familyId := by
    intro i known same
    exact fair.last.freshFamily familyId rfl (same ▸ sound.families i known)
  have issues : Issues tokenHash familyId access refresh (deleteExpired now db) next := by
    refine ⟨?_, tokens⟩
    intro row present same
    obtain ⟨i, found, _⟩ := tracked.stored row (mem_swept.1 present).1
    obtain ⟨known, family, _⟩ := mem_of_latest found
    exact fresh i known (family.trans same).symm
  have added := @ledger_saved past now access refresh familyId
  have faded := @faded_swept past now (.saveTokenPair access refresh familyId) (.saved (.ok ())) db
  obtain ⟨stored, kept⟩ := issues.tracked tracked faded added
  have same : rotated (past ++ [.called now (.saveTokenPair access refresh familyId)
      (.saved (.ok ()))]) = rotated past := quiet_rotated rfl
  refine ⟨stored, kept, ?_, same ▸ tracked.once⟩
  intro token spent
  rw [same] at spent
  obtain ⟨i, belongs, found, other, state⟩ := tracked.spent token spent
  refine issues.spent_other faded added (fresh i (mem_of_latest found).1) ?_ belongs found other
    state
  intro ⟨row, present, named⟩
  exact ⟨row, history ▸ present, named⟩

/-! ## Rotating a pair -/

theorem extendHistory_other {familyId : String} {expiresAt : Int} {row : HistoryRow}
    (present : row ∈ db.history.rows) (apart : row.familyId ≠ familyId) :
    row ∈ (extendHistory familyId expiresAt db).history.rows := by
  simp only [extendHistory, Table.update, List.mem_map]
  exact ⟨row, present, by simp [apart]⟩

theorem extendHistory_same {familyId : String} {expiresAt : Int} {row : HistoryRow}
    (present : row ∈ db.history.rows) (same : row.familyId = familyId) :
    { row with expiresAt := expiresAt } ∈ (extendHistory familyId expiresAt db).history.rows := by
  simp only [extendHistory, Table.update, List.mem_map]
  exact ⟨row, present, by simp [same]⟩

/-- The presented token of a rotation is the latest refresh token of its family, is not
expired, and was not rotated before. -/
theorem Tracked.live_entry (tracked : Tracked tokenHash past db)
    (fair : Fair tokenHash (past ++ [.called now call answer])) {old : String}
    (presented : old ∈ call.presented)
    (live : loadTokenRow tokenHash (deleteExpired now db) old .refresh = some row) :
    ∃ i, i ∈ ledger past ∧ latest past .refresh row.familyId = some i ∧ i.token = old ∧
      i.familyId = row.familyId ∧ expired now i.expiresAt = false ∧ row.clientId = i.clientId ∧
      row ∈ db.tokens.rows := by
  have sound := sound_of_fair fair.front
  obtain ⟨present, hash, kind⟩ := loadTokenRow_some live
  obtain ⟨stored, unexpired⟩ := mem_swept.1 present
  obtain ⟨i, known, found, token, family, expiry, client⟩ :=
    tracked.row_of_token sound stored hash (fair.presented presented)
  rw [kind] at found
  exact ⟨i, known, found, token, family, expiry ▸ unexpired, client, stored⟩

theorem Tracked.live_unspent (tracked : Tracked tokenHash past db)
    (fair : Fair tokenHash (past ++ [.called now call answer])) {old : String}
    (presented : old ∈ call.presented)
    (live : loadTokenRow tokenHash (deleteExpired now db) old .refresh = some row) :
    old ∉ rotated past := by
  have sound := sound_of_fair fair.front
  obtain ⟨i, known, found, token, family, _⟩ := tracked.live_entry fair presented live
  intro spent
  obtain ⟨j, ⟨k, member_, token', family'⟩, found', other, _⟩ := tracked.spent old spent
  -- both are the latest refresh token of the family that the presented token belongs to
  have same := sound.same known member_ (token.trans token'.symm)
  rw [← family', ← same, family, found] at found'
  cases found'
  exact other token

theorem Tracked.rotate {old : String} {access refresh : OAuthTokenRecord}
    {successorExpiry : Int} (tracked : Tracked tokenHash past db) (fair : Fair tokenHash (past ++
      [.called now (.rotateTokenPair old access refresh) (.rotation (.ok .rotated))]))
    (live : loadTokenRow tokenHash (deleteExpired now db) old .refresh = some row)
    (expires : refresh.expiresAt = some successorExpiry) (history : next.history.rows =
      (extendHistory row.familyId successorExpiry (deleteExpired now db)).history.rows ++
        [⟨tokenHash old, row.familyId, successorExpiry, now⟩])
    (tokens : next.tokens.rows = (deleteFamily row.familyId (deleteExpired now db)).tokens.rows ++
      pairRows tokenHash access refresh row.familyId) :
    Tracked tokenHash
      (past ++ [.called now (.rotateTokenPair old access refresh) (.rotation (.ok .rotated))])
      next := by
  have sound := sound_of_fair fair.front
  have presented : old ∈ (StoreCall.rotateTokenPair old access refresh).presented := by
    simp [StoreCall.presented]
  obtain ⟨i, known, found, token, family, unexpired, _, stored_⟩ :=
    tracked.live_entry fair presented live
  have unspent := tracked.live_unspent fair presented live
  have issues : Issues tokenHash row.familyId access refresh
      (deleteFamily row.familyId (deleteExpired now db)) next :=
    ⟨deleteFamily_dead _ _, tokens⟩
  have added : ledger (past ++ [.called now (.rotateTokenPair old access refresh)
      (.rotation (.ok .rotated))]) = issue row.familyId access refresh ++ ledger past := by
    rw [← token, ← family]
    exact sound.ledger_rotated known
  have faded := (@faded_swept past now (.rotateTokenPair old access refresh)
    (.rotation (.ok .rotated)) db).deleteFamily row.familyId
  obtain ⟨stored, kept⟩ := issues.tracked tracked faded added
  have grown : rotated (past ++ [.called now (.rotateTokenPair old access refresh)
      (.rotation (.ok .rotated))]) = rotated past ++ [old] := by
    rw [rotated_append]
    rfl
  have fresh : ∀ j ∈ ledger past, refresh.token ≠ j.token := by
    intro j member_ same
    exact fair.last.fresh refresh.token (by simp [StoreCall.newTokens])
      (same ▸ sound.made j member_)
  refine ⟨stored, kept, ?_, ?_⟩
  · intro spent listed
    rw [grown, List.mem_append, List.mem_singleton] at listed
    cases listed with
    | inr last =>
      subst last
      refine superseded_issued added fresh ⟨i, known, token, family⟩
        ⟨⟨tokenHash spent, row.familyId, successorExpiry, now⟩, ?_, rfl, rfl, expires.symm⟩
      rw [history]
      simp
    | inl earlier =>
      obtain ⟨j, belongs, latest_, other, state⟩ := tracked.spent spent earlier
      by_cases apart : row.familyId = j.familyId
      · rw [← apart, found] at latest_
        cases latest_
        refine superseded_issued added fresh (apart ▸ belongs) ?_
        obtain dead | lapsed | ⟨record, member_, hash, home, expiry⟩ := state
        · exact absurd apart (dead row stored_)
        · rw [lapsed.expired fair.last] at unexpired
          cases unexpired
        · refine ⟨{ record with expiresAt := successorExpiry }, ?_, hash, home.trans family,
            expires.symm⟩
          rw [history]
          apply List.mem_append_left
          refine extendHistory_same (mem_swept_history.2 ⟨member_, ?_⟩) (home.trans family)
          rw [← expiry] at unexpired
          simpa [expired] using unexpired
      · refine issues.spent_other faded added apart ?_ belongs latest_ other state
        rintro ⟨record, member_, hash, home, expiry⟩
        refine ⟨record, ?_, hash, home, expiry⟩
        rw [history]
        apply List.mem_append_left
        refine extendHistory_other member_ ?_
        rw [home]
        exact Ne.symm apart
  · rw [grown, List.nodup_append]
    refine ⟨tracked.once, List.nodup_singleton old, ?_⟩
    intro spent listed other last same
    rw [List.mem_singleton] at last
    exact unspent (last ▸ same ▸ listed)

/-! ## Runs -/

theorem step_tracked {event : StoreEvent} (step : StoreStep tokenHash limits db event next)
    (fair : Fair tokenHash (past ++ [event])) (tracked : Tracked tokenHash past db) :
    Tracked tokenHash (past ++ [event]) next := by
  cases step with
  | failed => exact tracked.faded rfl rfl (faded_self _ _)
  | @called _ now call answer performed =>
    obtain ⟨silent, unrotated, rfl | rfl | ⟨familyId, rfl⟩⟩ | saved | rotated_ :=
      (perform_move performed).shape past
    · exact tracked.faded silent unrotated (faded_self _ _)
    · exact tracked.faded silent unrotated faded_swept
    · exact tracked.faded silent unrotated (faded_swept.deleteFamily familyId)
    · obtain ⟨access, refresh, familyId, rfl, rfl, history, tokens⟩ := saved
      exact tracked.save fair history tokens
    · obtain ⟨old, access, refresh, row, successorExpiry, rfl, rfl, live, expires, history,
        tokens⟩ := rotated_
      exact tracked.rotate fair live expires history tokens

theorem run_tracked {events : List StoreEvent}
    (run : StoreRun tokenHash limits .empty events db) (fair : Fair tokenHash events) :
    Tracked tokenHash events db := by
  refine run.records (fun past db => Fair tokenHash past → Tracked tokenHash past db) ?_ ?_ fair
  · intro past u event v _ step ih fair
    exact step_tracked step fair (ih fair.front)
  · intro _
    constructor <;> simp [OAuthDb.empty, Table.empty, latest, ledger, rotated]

end CodexRemote.Verified.OAuthStore

/-! ## The configured limits hold in every state -/

namespace CodexRemote.Verified.OAuthStore

open Foundations McpServer

structure WithinLimits (limits : OAuthStoreLimits) (db : OAuthDb) : Prop where
  client : ∀ clientId, familyCount db (some clientId) ≤ limits.maxTokenFamiliesPerClient
  total : familyCount db none ≤ limits.maxTokenFamilies
  family : ∀ familyId, historyCount db familyId ≤ limits.maxRefreshHistoryPerFamily
  history : (db.history.rows.length : Int) ≤ limits.maxRefreshHistoryGlobal

variable {tokenHash : String → String} {limits : OAuthStoreLimits} {past : List StoreEvent}
  {now : Int} {db next : OAuthDb}

variable {familyId : String}

theorem mem_families {clientId : Option String} :
    familyId ∈ families db clientId ↔
      ∃ row ∈ db.tokens.rows, (∀ c ∈ clientId, row.clientId = c) ∧ row.familyId = familyId := by
  cases clientId with
  | none => simp [families, Table.select]
  | some c => simp [families, Table.select, and_assoc]

theorem familyCount_mono {clientId : Option String}
    (fewer : families next clientId ⊆ families db clientId) :
    familyCount next clientId ≤ familyCount db clientId := by
  have counts := Finset.card_le_card fewer
  simp only [familyCount]
  omega

theorem families_subset (fewer : ∀ row ∈ next.tokens.rows, row ∈ db.tokens.rows)
    (clientId : Option String) : families next clientId ⊆ families db clientId := by
  intro familyId present
  obtain ⟨row, member, named⟩ := mem_families.1 present
  exact mem_families.2 ⟨row, fewer row member, named⟩

/-- Tables that lost rows stay within the limits. -/
theorem WithinLimits.shrunk (within : WithinLimits limits db)
    (tokens : ∀ row ∈ next.tokens.rows, row ∈ db.tokens.rows)
    (history : next.history.rows.Sublist db.history.rows) : WithinLimits limits next := by
  constructor
  · intro clientId
    exact le_trans (familyCount_mono (families_subset tokens _)) (within.client clientId)
  · exact le_trans (familyCount_mono (families_subset tokens _)) within.total
  · intro familyId
    have fewer : historyCount next familyId ≤ historyCount db familyId := by
      have counts := history.countP_le (p := fun row => row.familyId = familyId)
      simp only [historyCount, Table.count]
      omega
    exact le_trans fewer (within.family familyId)
  · have fewer := history.length_le
    have bound := within.history
    omega

theorem WithinLimits.swept (within : WithinLimits limits db) :
    WithinLimits limits (deleteExpired now db) :=
  within.shrunk (fun _ present => (mem_swept.1 present).1) List.filter_sublist

theorem WithinLimits.ended (within : WithinLimits limits db) (familyId : String) :
    WithinLimits limits (deleteFamily familyId db) :=
  within.shrunk (fun _ present => (mem_deleteFamily.1 present).1) (List.Sublist.refl _)

/-- The families of a client after a pair of its own was added. -/
theorem families_saved {access refresh : OAuthTokenRecord}
    (both : access.clientId = refresh.clientId)
    (tokens : next.tokens.rows = db.tokens.rows ++ pairRows tokenHash access refresh familyId)
    (clientId : Option String) :
    families next clientId ⊆ insert familyId (families db clientId) ∧
      ((∃ c ∈ clientId, c ≠ access.clientId) → families next clientId ⊆ families db clientId) := by
  have rows : ∀ row ∈ next.tokens.rows, row ∈ db.tokens.rows ∨
      (row.familyId = familyId ∧ row.clientId = access.clientId) := by
    intro row present
    rw [tokens, List.mem_append] at present
    cases present with
    | inl old => exact Or.inl old
    | inr new =>
      obtain ⟨kind, rfl⟩ := mem_pairRows.1 new
      cases kind with
      | access => exact Or.inr ⟨rfl, rfl⟩
      | refresh => exact Or.inr ⟨rfl, both.symm⟩
  constructor
  · intro family present
    obtain ⟨row, member_, owned, rfl⟩ := mem_families.1 present
    rw [Finset.mem_insert]
    cases rows row member_ with
    | inl old => exact Or.inr (mem_families.2 ⟨row, old, owned, rfl⟩)
    | inr new => exact Or.inl new.1
  · intro ⟨c, named, other⟩ family present
    obtain ⟨row, member_, owned, rfl⟩ := mem_families.1 present
    cases rows row member_ with
    | inl old => exact mem_families.2 ⟨row, old, owned, rfl⟩
    | inr new => exact absurd ((owned c named).symm.trans new.2) other

theorem ensureFamilyRoom_ok {clientId : String} (apart : Dead db familyId)
    (room : ensureFamilyRoom limits clientId familyId db = .ok ()) :
    familyCount db (some clientId) < limits.maxTokenFamiliesPerClient ∧
      familyCount db none < limits.maxTokenFamilies := by
  have absent : db.tokens.contains (fun row => row.familyId = familyId) = false := by
    simp only [Table.contains, List.any_eq_false, decide_eq_true_eq]
    exact apart
  simp only [ensureFamilyRoom, absent, Bool.false_eq_true, if_false] at room
  split at room
  · cases room
  · split at room
    · cases room
    · omega

theorem WithinLimits.save {access refresh : OAuthTokenRecord}
    (within : WithinLimits limits db) (apart : Dead db familyId)
    (both : access.clientId = refresh.clientId)
    (room : ensureFamilyRoom limits access.clientId familyId db = .ok ())
    (history : next.history = db.history)
    (tokens : next.tokens.rows = db.tokens.rows ++ pairRows tokenHash access refresh familyId) :
    WithinLimits limits next := by
  obtain ⟨ofClient, ofAll⟩ := ensureFamilyRoom_ok apart room
  have grown : ∀ clientId, familyCount next clientId ≤ familyCount db clientId + 1 := by
    intro clientId
    have more := Finset.card_le_card (families_saved both tokens clientId).1
    have one := Finset.card_insert_le familyId (families db clientId)
    simp only [familyCount]
    omega
  constructor
  · intro clientId
    by_cases same : clientId = access.clientId
    · subst same
      have more := grown (some access.clientId)
      omega
    · have fewer := (families_saved both tokens (some clientId)).2 ⟨clientId, rfl, same⟩
      exact le_trans (familyCount_mono fewer) (within.client clientId)
  · have more := grown none
    omega
  · intro family
    simp only [historyCount, history]
    exact within.family family
  · rw [history]
    exact within.history

theorem historyAtCapacity_false (room : historyAtCapacity limits familyId db = false) :
    historyCount db familyId < limits.maxRefreshHistoryPerFamily ∧
      (db.history.rows.length : Int) < limits.maxRefreshHistoryGlobal := by
  simp only [historyAtCapacity, decide_eq_false_iff_not, not_or, ge_iff_le, not_le] at room
  exact room

/-- Extending the expiry of history rows moves none to another family. -/
theorem extendHistory_count {expiresAt : Int} (family : String) :
    (extendHistory familyId expiresAt db).history.rows.countP (fun row => row.familyId = family) =
      db.history.rows.countP (fun row => row.familyId = family) := by
  simp only [extendHistory, Table.update, List.countP_map]
  apply List.countP_congr
  intro row _
  by_cases same : row.familyId = familyId <;> simp [same]

theorem WithinLimits.rotate {access refresh : OAuthTokenRecord} {row : TokenRow} {old : String}
    {successorExpiry : Int} (within : WithinLimits limits db) (present : row ∈ db.tokens.rows)
    (both : access.clientId = refresh.clientId) (owner : row.clientId = access.clientId)
    (room : historyAtCapacity limits row.familyId db = false)
    (history : next.history.rows = (extendHistory row.familyId successorExpiry db).history.rows ++
      [⟨tokenHash old, row.familyId, successorExpiry, now⟩])
    (tokens : next.tokens.rows = (deleteFamily row.familyId db).tokens.rows ++
      pairRows tokenHash access refresh row.familyId) : WithinLimits limits next := by
  obtain ⟨ofFamily, ofAll⟩ := historyAtCapacity_false room
  have same : ∀ clientId, families next clientId ⊆ families db clientId := by
    intro clientId family member_
    obtain ⟨other, listed, owned, rfl⟩ := mem_families.1 member_
    rw [tokens, List.mem_append] at listed
    cases listed with
    | inl kept => exact mem_families.2 ⟨other, (mem_deleteFamily.1 kept).1, owned, rfl⟩
    | inr new =>
      -- the pair replaces tokens of the same family and client
      obtain ⟨kind, rfl⟩ := mem_pairRows.1 new
      refine mem_families.2 ⟨row, present, ?_, rfl⟩
      intro c named
      rw [← owned c named, owner]
      cases kind with
      | access => rfl
      | refresh => exact both
  constructor
  · intro clientId
    exact le_trans (familyCount_mono (same _)) (within.client clientId)
  · exact le_trans (familyCount_mono (same _)) within.total
  · intro family
    have bound := within.family family
    simp only [historyCount, Table.count] at bound ofFamily ⊢
    rw [history, List.countP_append, extendHistory_count]
    by_cases here : row.familyId = family
    · subst here
      simp only [List.countP_singleton, decide_true, if_true]
      omega
    · simp only [List.countP_singleton, here, decide_false, Bool.false_eq_true, if_false]
      omega
  · rw [history, List.length_append]
    simp only [extendHistory, Table.update, List.length_map, List.length_singleton]
    omega

theorem step_within {event : StoreEvent} (step : StoreStep tokenHash limits db event next)
    (fair : Fair tokenHash (past ++ [event])) (tracked : Tracked tokenHash past db)
    (within : WithinLimits limits db) : WithinLimits limits next := by
  cases step with
  | failed => exact within
  | @called _ now call answer performed =>
    have move := perform_move performed
    obtain ⟨_, _, rfl | rfl | ⟨familyId, rfl⟩⟩ | saved | rotated_ := move.shape past
    · exact within
    · exact within.swept
    · exact within.swept.ended familyId
    · obtain ⟨access, refresh, familyId, rfl, rfl, history, tokens⟩ := saved
      cases move with
      | saved room _ _ =>
        refine within.swept.save ?_ fair.last.oneClient room history tokens
        intro row present same
        obtain ⟨i, found, _⟩ := tracked.stored row (mem_swept.1 present).1
        obtain ⟨known, family, _⟩ := mem_of_latest found
        refine fair.last.freshFamily familyId rfl ?_
        rw [← same, ← family]
        exact (sound_of_fair fair.front).families i known
    · obtain ⟨old, access, refresh, _, _, rfl, rfl, _, _, _, _⟩ := rotated_
      cases move with
      | rotated live room expires history tokens =>
        have presented : old ∈ (StoreCall.rotateTokenPair old access refresh).presented := by
          simp [StoreCall.presented]
        obtain ⟨i, known, _, token, _, _, client, _⟩ := tracked.live_entry fair presented live
        obtain ⟨both, follows⟩ := fair.last.oneClient
        exact within.swept.rotate (loadTokenRow_some live).1 both
          (client.trans (follows i known token)) room history tokens

theorem validate_ok {given valid : OAuthStoreLimits} (accepted : given.validate = .ok valid) :
    valid = given ∧ 1 ≤ given.maxTokenFamilies ∧ 1 ≤ given.maxTokenFamiliesPerClient ∧
      1 ≤ given.maxRefreshHistoryGlobal ∧ 1 ≤ given.maxRefreshHistoryPerFamily := by
  simp only [OAuthStoreLimits.validate, ite_ok, reduceCtorEq, and_false, false_or,
    Except.ok.injEq] at accepted
  obtain ⟨_, tokens, _, history, _, rfl⟩ := accepted
  refine ⟨rfl, ?_, ?_, ?_, ?_⟩ <;> omega

theorem run_within {given : OAuthStoreLimits} (accepted : given.validate = .ok limits)
    {events : List StoreEvent} (run : StoreRun tokenHash limits .empty events db)
    (fair : Fair tokenHash events) : WithinLimits limits db := by
  refine run.records (fun past db => Fair tokenHash past → WithinLimits limits db) ?_ ?_ fair
  · intro past u event v front step ih fair
    exact step_within step fair (run_tracked front fair.front) (ih fair.front)
  · intro _
    obtain ⟨rfl, _, _, _, _⟩ := validate_ok accepted
    constructor
    · intro clientId
      simp only [familyCount, families, OAuthDb.empty, Table.empty, Table.select, List.filter_nil,
        List.map_nil, List.toFinset_nil, Finset.card_empty]
      omega
    · simp only [familyCount, families, OAuthDb.empty, Table.empty, Table.select, List.filter_nil,
        List.map_nil, List.toFinset_nil, Finset.card_empty]
      omega
    · intro familyId
      simp only [historyCount, OAuthDb.empty, Table.empty, Table.count, List.countP_nil]
      omega
    · simp only [OAuthDb.empty, Table.empty, List.length_nil]
      omega

end CodexRemote.Verified.OAuthStore

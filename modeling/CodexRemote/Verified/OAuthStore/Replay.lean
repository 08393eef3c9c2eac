import CodexRemote.Verified.OAuthStore.Rotation

/-! # A replay ends its family for good -/

namespace CodexRemote.Verified.OAuthStore

open Foundations McpServer

/-- The token was rotated away in a family whose latest refresh token has not expired. -/
def Replays (past : List StoreEvent) (now : Int) (token familyId : String) : Prop :=
  token ∈ rotated past ∧ Belongs past token familyId ∧
    ∃ i, latest past .refresh familyId = some i ∧ expired now i.expiresAt = false

/-- The token is the latest of its kind in the family and has not expired. -/
def Current (past : List StoreEvent) (now : Int) (token familyId : String) : Prop :=
  ∃ kind i, latest past kind familyId = some i ∧ i.token = token ∧ expired now i.expiresAt = false

/-- The calls that end a family: a replay, a rotation that finds no room in the history, and
a revocation by a token that the family can still be told by.  A rotation whose successor
has no expiry is refused before the presented token is looked at. -/
inductive Ends (past : List StoreEvent) : StoreEvent → String → Prop where
  | rotatedAgain {now : Int} {old familyId : String} {access refresh : OAuthTokenRecord}
      {answer : StoreAnswer} (configured : refresh.expiresAt ≠ none)
      (replays : Replays past now old familyId) :
      Ends past (.called now (.rotateTokenPair old access refresh) answer) familyId
  | loadedAgain {now : Int} {token familyId : String} {answer : StoreAnswer}
      (replays : Replays past now token familyId) :
      Ends past (.called now (.loadRefreshToken token) answer) familyId
  | exhausted {now : Int} {old familyId : String} {access refresh : OAuthTokenRecord}
      (belongs : Belongs past old familyId) :
      Ends past (.called now (.rotateTokenPair old access refresh)
        (.rotation (.ok .historyExhausted))) familyId
  | revoked {now : Int} {token familyId : String} {answer : StoreAnswer}
      (known : Replays past now token familyId ∨ Current past now token familyId) :
      Ends past (.called now (.revokeFamily token) answer) familyId

def Ended (past : List StoreEvent) (familyId : String) : Prop :=
  ∃ front event back, past = front ++ event :: back ∧ Ends front event familyId

variable {tokenHash : String → String} {limits : OAuthStoreLimits} {past : List StoreEvent}
  {now : Int} {call : StoreCall} {answer : StoreAnswer} {db next : OAuthDb}
  {token familyId : String}

variable {event : StoreEvent}

theorem ended_snoc (ended : Ended (past ++ [event]) familyId) :
    Ended past familyId ∨ Ends past event familyId := by
  obtain ⟨front, last, back, split, ends⟩ := ended
  cases back using List.reverseRecOn with
  | nil =>
    obtain ⟨rfl, same⟩ := List.append_inj' split rfl
    cases same
    exact Or.inr ends
  | append_singleton back final =>
    have whole : past ++ [event] = (front ++ last :: back) ++ [final] := by simp [split]
    obtain ⟨rfl, _⟩ := List.append_inj' whole rfl
    exact Or.inl ⟨front, last, back, rfl, ends⟩

/-- The families of a sound ledger are told apart by their tokens. -/
theorem Sound.family (sound : Sound past) {other : String} (one : Belongs past token familyId)
    (two : Belongs past token other) : familyId = other := by
  obtain ⟨i, first, token_, rfl⟩ := one
  obtain ⟨j, second, token', rfl⟩ := two
  rw [sound.same first second (token_.trans token'.symm)]

/-! ## Dead families stay dead -/

theorem Dead.deleteFamily (dead : Dead db familyId) (other : String) :
    Dead (deleteFamily other db) familyId :=
  fun row present => dead row (mem_deleteFamily.1 present).1

theorem Dead.swept (dead : Dead db familyId) : Dead (deleteExpired now db) familyId :=
  fun row present => dead row (mem_swept.1 present).1

/-- A family that is in the ledger and dead stays dead. -/
theorem step_dead (step : StoreStep tokenHash limits db event next)
    (fair : Fair tokenHash (past ++ [event])) (known : ∃ i ∈ ledger past, i.familyId = familyId)
    (dead : Dead db familyId) : Dead next familyId := by
  cases step with
  | failed => exact dead
  | @called _ now call answer performed =>
    obtain ⟨_, _, rfl | rfl | ⟨other, rfl⟩⟩ | saved | rotated_ :=
      (perform_move performed).shape past
    · exact dead
    · exact dead.swept
    · exact dead.swept.deleteFamily other
    · obtain ⟨access, refresh, fresh, rfl, rfl, _, tokens⟩ := saved
      intro row present
      rw [tokens, List.mem_append] at present
      cases present with
      | inl old => exact dead.swept row old
      | inr new =>
        obtain ⟨kind, rfl⟩ := mem_pairRows.1 new
        intro same
        obtain ⟨i, member_, named⟩ := known
        refine fair.last.freshFamily fresh rfl ?_
        rw [show fresh = i.familyId from same.trans named.symm]
        exact (sound_of_fair fair.front).families i member_
    · obtain ⟨old, access, refresh, row, _, rfl, rfl, live, _, _, tokens⟩ := rotated_
      have alive : row.familyId ≠ familyId := dead.swept row (loadTokenRow_some live).1
      intro other present
      rw [tokens, List.mem_append] at present
      cases present with
      | inl kept => exact dead.swept.deleteFamily _ other kept
      | inr new =>
        obtain ⟨kind, rfl⟩ := mem_pairRows.1 new
        exact alive

/-! ## What ends a family -/

/-- A token that was rotated away is not found live again. -/
theorem Tracked.spent_gone (tracked : Tracked tokenHash past db)
    (fair : Fair tokenHash (past ++ [.called now call answer])) (presented : token ∈ call.presented)
    (spent : token ∈ rotated past) :
    loadTokenRow tokenHash (deleteExpired now db) token .refresh = none := by
  cases live : loadTokenRow tokenHash (deleteExpired now db) token .refresh with
  | none => rfl
  | some row => exact absurd spent (tracked.live_unspent fair presented live)

/-- A replay is recognised, unless its family is dead already. -/
theorem Tracked.replay (tracked : Tracked tokenHash past db)
    (fair : Fair tokenHash (past ++ [.called now call answer]))
    (replays : Replays past now token familyId) :
    Dead db familyId ∨
      findHistoryFamily tokenHash (deleteExpired now db) token = some familyId := by
  have sound := sound_of_fair fair.front
  obtain ⟨spent, belongs, i, found, unexpired⟩ := replays
  obtain ⟨j, belongs', found', _, state⟩ := tracked.spent token spent
  have same := sound.family belongs belongs'
  subst same
  rw [found] at found'
  cases found'
  obtain dead | lapsed | ⟨row, present, hash, family, expiry⟩ := state
  · exact Or.inl dead
  · rw [lapsed.expired fair.last] at unexpired
    cases unexpired
  · right
    have still : row ∈ (deleteExpired now db).history.rows := by
      refine mem_swept_history.2 ⟨present, ?_⟩
      rw [← expiry] at unexpired
      simpa [expired] using unexpired
    have here := Table.find_of_mem still
    rw [hash] at here
    simp only [findHistoryFamily, here, Option.map_some, family]

/-- The latest token of a family finds it, unless the family is dead already. -/
theorem Tracked.current (tracked : Tracked tokenHash past db)
    (fair : Fair tokenHash (past ++ [.called now call answer]))
    (current : Current past now token familyId) :
    Dead db familyId ∨ findTokenFamily tokenHash (deleteExpired now db) token = some familyId := by
  obtain ⟨kind, i, found, rfl, unexpired⟩ := current
  obtain dead | lapsed | ⟨row, present, hash, _, family, expiry⟩ :=
    tracked.kept kind familyId i found
  · exact Or.inl dead
  · rw [lapsed.expired fair.last] at unexpired
    cases unexpired
  · right
    have here := Table.find_of_mem (mem_swept.2 ⟨present, expiry ▸ unexpired⟩)
    rw [hash] at here
    simp only [findTokenFamily, here, Option.map_some, family, (mem_of_latest found).2.1]

/-- A stored token that hashes like a token of the family is in the family. -/
theorem Tracked.token_family (tracked : Tracked tokenHash past db)
    (fair : Fair tokenHash (past ++ [.called now call answer])) (presented : token ∈ call.presented)
    (belongs : Belongs past token familyId) {other : String}
    (found : findTokenFamily tokenHash (deleteExpired now db) token = some other) :
    other = familyId := by
  have sound := sound_of_fair fair.front
  obtain ⟨row, here, rfl⟩ := Option.map_eq_some_iff.1 found
  obtain ⟨stored, _⟩ := mem_swept.1 (Table.mem_of_find here)
  obtain ⟨i, known, _, token_, family, _⟩ :=
    tracked.row_of_token sound stored (Table.find_key here) (fair.presented presented)
  exact sound.family ⟨i, known, token_, family⟩ belongs

theorem ends_dead (step : StoreStep tokenHash limits db event next)
    (fair : Fair tokenHash (past ++ [event])) (tracked : Tracked tokenHash past db)
    (ends : Ends past event familyId) : Dead next familyId := by
  have sound := sound_of_fair fair.front
  cases ends with
  | @rotatedAgain now old _ access refresh answer configured replays =>
    cases step with
    | called performed =>
      have gone := tracked.spent_gone fair (by simp [StoreCall.presented]) replays.1
      have recognised := tracked.replay fair replays
      cases perform_move performed with
      | unrotated cause =>
        obtain unending | ⟨row, live⟩ := cause
        · exact absurd unending configured
        · rw [gone] at live
          cases live
      | missing _ unspent =>
        obtain dead | spent := recognised
        · exact dead.swept
        · rw [unspent] at spent
          cases spent
      | @replayed _ found _ _ _ spent' =>
        obtain dead | spent := recognised
        · exact dead.swept.deleteFamily found
        · rw [spent'] at spent
          cases spent
          exact deleteFamily_dead _ _
      | exhausted live =>
        rw [gone] at live
        cases live
      | rotated live _ _ _ _ =>
        rw [gone] at live
        cases live
  | @loadedAgain now token _ answer replays =>
    cases step with
    | called performed =>
      have gone := tracked.spent_gone fair (by simp [StoreCall.presented]) replays.1
      have recognised := tracked.replay fair replays
      cases perform_move performed with
      | refreshLoaded live =>
        rw [gone] at live
        cases live
      | @refreshReplayed _ found _ spent' =>
        obtain dead | spent := recognised
        · exact dead.swept.deleteFamily found
        · rw [spent'] at spent
          cases spent
          exact deleteFamily_dead _ _
      | refreshMissing _ unspent =>
        obtain dead | spent := recognised
        · exact dead.swept
        · rw [unspent] at spent
          cases spent
  | @exhausted now old _ access refresh belongs =>
    cases step with
    | called performed =>
      cases perform_move performed with
      | exhausted live =>
        obtain ⟨i, known, _, token_, family, _⟩ :=
          tracked.live_entry fair (by simp [StoreCall.presented]) live
        rw [sound.family belongs ⟨i, known, token_, family⟩]
        exact deleteFamily_dead _ _
  | @revoked now token _ answer known =>
    cases step with
    | called performed =>
      have belongs : Belongs past token familyId := by
        obtain ⟨_, belongs, _⟩ | ⟨kind, i, found, token_, _⟩ := known
        · exact belongs
        · obtain ⟨member_, family, _⟩ := mem_of_latest found
          exact ⟨i, member_, token_, family⟩
      have named : ∀ other, findTokenFamily tokenHash (deleteExpired now db) token =
          some other → other = familyId := fun other found =>
        tracked.token_family fair (by simp [StoreCall.presented]) belongs found
      have recognised : Dead db familyId ∨
          (findTokenFamily tokenHash (deleteExpired now db) token <|>
            findHistoryFamily tokenHash (deleteExpired now db) token) = some familyId := by
        cases stored : findTokenFamily tokenHash (deleteExpired now db) token with
        | some other => exact Or.inr (by rw [named other stored]; rfl)
        | none =>
          obtain replays | current := known
          · obtain dead | spent := tracked.replay fair replays
            · exact Or.inl dead
            · exact Or.inr (by simpa using spent)
          · obtain dead | found := tracked.current fair current
            · exact Or.inl dead
            · rw [stored] at found
              cases found
      cases perform_move performed with
      | @revoked _ other found =>
        obtain dead | found' := recognised
        · exact dead.swept.deleteFamily other
        · rw [found] at found'
          cases found'
          exact deleteFamily_dead _ _
      | unrevoked unknown =>
        obtain dead | found' := recognised
        · exact dead.swept
        · rw [unknown] at found'
          cases found'

/-! ## Runs -/

theorem Belongs.known (belongs : Belongs past token familyId) :
    ∃ i ∈ ledger past, i.familyId = familyId := by
  obtain ⟨i, member_, _, family⟩ := belongs
  exact ⟨i, member_, family⟩

theorem Ends.known (ends : Ends past event familyId) :
    ∃ i ∈ ledger past, i.familyId = familyId := by
  cases ends with
  | rotatedAgain _ replays => exact replays.2.1.known
  | loadedAgain replays => exact replays.2.1.known
  | exhausted belongs => exact belongs.known
  | revoked known =>
    obtain replays | ⟨kind, i, found, _⟩ := known
    · exact replays.2.1.known
    · obtain ⟨member_, family, _⟩ := mem_of_latest found
      exact ⟨i, member_, family⟩

/-- A family of the ledger stays in it. -/
theorem known_append {back : List StoreEvent} (known : ∃ i ∈ ledger past, i.familyId = familyId) :
    ∃ i ∈ ledger (past ++ back), i.familyId = familyId := by
  obtain ⟨i, member_, family⟩ := known
  exact (Belongs.append ⟨i, member_, rfl, family⟩ : Belongs (past ++ back) i.token familyId).known

theorem run_ended {events : List StoreEvent} (run : StoreRun tokenHash limits .empty events db)
    (fair : Fair tokenHash events) :
    ∀ familyId, Ended events familyId →
      Dead db familyId ∧ ∃ i ∈ ledger events, i.familyId = familyId := by
  refine run.records (fun past db => Fair tokenHash past → ∀ familyId, Ended past familyId →
    Dead db familyId ∧ ∃ i ∈ ledger past, i.familyId = familyId) ?_ ?_ fair
  · intro past u event v front step ih fair familyId ended
    obtain earlier | ends := ended_snoc ended
    · obtain ⟨dead, known⟩ := ih fair.front familyId earlier
      exact ⟨step_dead step fair known dead, known_append known⟩
    · exact ⟨ends_dead step fair (run_tracked front fair.front) ends, known_append ends.known⟩
  · intro _ familyId ⟨front, event, back, split, _⟩
    simp at split

/-- A call that finds a token live finds its row. -/
theorem found_stored (step : StoreStep tokenHash limits db event next)
    (found : event.found? = some token) :
    ∃ now call answer, event = .called now call answer ∧ token ∈ call.presented ∧
      ∃ row ∈ db.tokens.rows, row.tokenHash = tokenHash token := by
  cases step with
  | failed => cases found
  | @called _ now call answer performed =>
    refine ⟨now, call, answer, rfl, ?_⟩
    have swept : ∀ row, loadTokenRow tokenHash (deleteExpired now db) token .refresh = some row →
        ∃ row ∈ db.tokens.rows, row.tokenHash = tokenHash token := by
      intro row live
      obtain ⟨present, hash, _⟩ := loadTokenRow_some live
      exact ⟨row, (mem_swept.1 present).1, hash⟩
    cases perform_move performed with
    | @accessLoaded presented =>
      cases loaded : loadAccessToken tokenHash presented db with
      | none =>
        rw [loaded] at found
        cases found
      | some record =>
        rw [loaded] at found
        cases found
        obtain ⟨row, live, _⟩ := Option.map_eq_some_iff.1 loaded
        obtain ⟨present, hash, _⟩ := loadTokenRow_some live
        exact ⟨by simp [StoreCall.presented], row, present, hash⟩
    | refreshLoaded live =>
      cases found
      exact ⟨by simp [StoreCall.presented], swept _ live⟩
    | rotated live _ _ _ _ =>
      cases found
      exact ⟨by simp [StoreCall.presented], swept _ live⟩
    | exhausted live =>
      cases found
      exact ⟨by simp [StoreCall.presented], swept _ live⟩
    | _ => cases found

/-- No call finds a token of a family that has ended. -/
theorem ended_unfound {back : List StoreEvent}
    (run : StoreRun tokenHash limits .empty (past ++ event :: back) db)
    (fair : Fair tokenHash (past ++ event :: back)) (ended : Ended past familyId)
    (found : event.found? = some token) : ¬Belongs (past ++ event :: back) token familyId := by
  obtain ⟨before, after, front, step, _⟩ := run.split_at
  obtain ⟨now, call, answer, rfl, presented, row, stored, hash⟩ := found_stored step found
  have here : Fair tokenHash (past ++ [.called now call answer]) :=
    @Fair.front _ _ back (by simpa using fair)
  have tracked := run_tracked front fair.front
  obtain ⟨i, known, _, token_, family, _⟩ :=
    tracked.row_of_token (sound_of_fair fair.front) stored hash (here.presented presented)
  intro belongs
  have alive := (run_ended front fair.front familyId ended).1 row stored
  have home : Belongs past token row.familyId := ⟨i, known, token_, family⟩
  exact alive ((sound_of_fair fair).family home.append belongs)

/-- Two stored tokens of a family are of different kinds. -/
theorem Tracked.one_of_kind {events : List StoreEvent} (tracked : Tracked tokenHash events db)
    (kind : TokenKind) :
    (db.tokens.select fun row => row.familyId = familyId ∧ row.tokenKind = kind).length ≤ 1 := by
  have all : ∀ row ∈ db.tokens.select (fun row => row.familyId = familyId ∧ row.tokenKind = kind),
      ∀ other ∈ db.tokens.select (fun row => row.familyId = familyId ∧ row.tokenKind = kind),
      row = other := by
    intro row present other present'
    simp only [Table.select, List.mem_filter, decide_eq_true_eq] at present present'
    obtain ⟨i, found, hash, _⟩ := tracked.stored row present.1
    obtain ⟨j, found', hash', _⟩ := tracked.stored other present'.1
    rw [present.2.1, present.2.2] at found
    rw [present'.2.1, present'.2.2, found] at found'
    cases found'
    exact List.inj_on_of_nodup_map db.tokens.unique present.1 present'.1 (hash.trans hash'.symm)
  have distinct : (db.tokens.select fun row =>
      row.familyId = familyId ∧ row.tokenKind = kind).Nodup :=
    (List.Nodup.of_map _ db.tokens.unique).filter _
  generalize db.tokens.select (fun row => row.familyId = familyId ∧ row.tokenKind = kind) = rows
    at all distinct
  rcases rows with _ | ⟨first, _ | ⟨second, _⟩⟩
  · simp
  · simp
  · have same := all first (by simp) second (by simp)
    simp [same] at distinct

/-- Each refresh token is rotated at most once, a family stores at most one token of each
kind, a family that was ended stays without tokens and no call finds one of them, and the
configured limits hold.  The callers keep each family to one client, and a replay by a rotation
brings a successor that expires. -/
theorem refresh_rotation_single_use {given : OAuthStoreLimits}
    (accepted : given.validate = .ok limits) {events : List StoreEvent}
    (run : StoreRun tokenHash limits .empty events db) (fair : Fair tokenHash events) :
    (rotated events).Nodup ∧
    (∀ familyId kind, (db.tokens.select fun row =>
      row.familyId = familyId ∧ row.tokenKind = kind).length ≤ 1) ∧
    (∀ past event back, events = past ++ event :: back → ∀ familyId, Ended past familyId →
      ∀ token, event.found? = some token → ¬Belongs events token familyId) ∧
    (∀ familyId, Ended events familyId → Dead db familyId) ∧
    WithinLimits limits db := by
  have tracked := run_tracked run fair
  refine ⟨tracked.once, fun _ => tracked.one_of_kind, ?_, ?_, run_within accepted run fair⟩
  · intro past event back split familyId ended token found
    subst split
    exact ended_unfound run fair ended found
  · intro familyId ended
    exact (run_ended run fair familyId ended).1

/-- A pair is saved and rotated, and the rotated token is presented again. -/
def replayEvents : List StoreEvent :=
  [.called 10 (.saveTokenPair ⟨"access-first", "client-a", ["chat"], some 20, none, none⟩
      ⟨"refresh-first", "client-a", ["chat"], some 90, none, none⟩ "family-a") (.saved (.ok ())),
    .called 11 (.rotateTokenPair "refresh-first"
      ⟨"access-next", "client-a", ["chat"], some 21, none, none⟩
      ⟨"refresh-next", "client-a", ["chat"], some 91, none, none⟩) (.rotation (.ok .rotated)),
    .called 12 (.loadRefreshToken "refresh-first") (.record none),
    .called 12 (.loadAccessToken "access-next") (.record none)]

theorem replayEvents_fair : Fair id replayEvents := by
  constructor
  · intro past now call answer back split
    match past with
    | [] =>
      cases split
      refine ⟨⟨?_, ?_, ?_, ?_⟩, ?_⟩ <;> simp [StoreCall.newTokens, newTokens, calls, newFamilies, OneClient]
    | [_] =>
      cases split
      refine ⟨⟨?_, ?_, ?_, ?_⟩, ?_⟩ <;> simp [StoreCall.newTokens, newTokens, calls, newFamilies, OneClient,
        StoreEvent.call?, StoreEvent.time?, StoreCall.newFamily, ledger, StoreEvent.issues, issue, entry]
    | [_, _] =>
      cases split
      refine ⟨⟨?_, ?_, ?_, ?_⟩, ?_⟩ <;>
        simp [StoreCall.newTokens, OneClient, StoreEvent.time?, StoreCall.newFamily]
    | [_, _, _] =>
      cases split
      refine ⟨⟨?_, ?_, ?_, ?_⟩, ?_⟩ <;>
        simp [StoreCall.newTokens, OneClient, StoreEvent.time?, StoreCall.newFamily]
    | _ :: _ :: _ :: _ :: rest =>
      simp [replayEvents] at split
  · intro s _ t _ same
    exact same

theorem replayEvents_run :
    ∃ db, StoreRun id {} .empty replayEvents db :=
  ⟨_, .cons (.called rfl) (.cons (.called rfl) (.cons (.called rfl) (.cons (.called rfl)
    (.nil _))))⟩

theorem replay_ends_family : ∃ db, StoreRun id {} .empty replayEvents db ∧
    rotated replayEvents = ["refresh-first"] ∧ Dead db "family-a" := by
  obtain ⟨db, run⟩ := replayEvents_run
  obtain ⟨_, _, _, ended, _⟩ :=
    @refresh_rotation_single_use id {} db {} rfl replayEvents run replayEvents_fair
  refine ⟨db, run, rfl, ended "family-a" ⟨replayEvents.take 2, _, replayEvents.drop 3, rfl,
    .loadedAgain ⟨List.mem_singleton.2 rfl, ?_, _, rfl, rfl⟩⟩⟩
  exact ⟨entry .refresh "family-a"
    ⟨"refresh-first", "client-a", ["chat"], some 90, none, none⟩,
    List.mem_of_getElem? (i := 2) rfl, rfl, rfl⟩

/-! ## Without an expiry, and with another client -/

/-- The access token of a pair expires no later than its refresh token. -/
def Covered : StoreCall → Prop
  | .saveTokenPair access refresh _ | .rotateTokenPair _ access refresh =>
    ∀ last, refresh.expiresAt = some last → ∃ first, access.expiresAt = some first ∧ first ≤ last
  | _ => True

/-- `Fair` without the promise about clients, for pairs that expire in order. -/
structure Fresh (tokenHash : String → String) (events : List StoreEvent) : Prop where
  calls : ∀ past now call answer back, events = past ++ .called now call answer :: back →
    FreshCall past now call ∧ Covered call
  injective : ∀ s ∈ strings events, ∀ t ∈ strings events, tokenHash s = tokenHash t → s = t

/-- The replay of `replayEvents` with a successor that never expires. -/
def sparedEvents : List StoreEvent :=
  replayEvents.take 2 ++
  [.called 12 (.rotateTokenPair "refresh-first"
      ⟨"access-last", "client-a", ["chat"], some 22, none, none⟩
      ⟨"refresh-last", "client-a", ["chat"], none, none, none⟩)
      (.rotation (.error (.configuration "Rotated refresh tokens must expire."))),
    .called 12 (.loadAccessToken "access-next")
      (.record (some ⟨"access-next", "client-a", ["chat"], some 21, none, none⟩))]

/-- The family of a client is rotated to another one, which has its one family already. -/
def movedEvents : List StoreEvent :=
  [.called 10 (.saveTokenPair ⟨"access-a", "client-a", ["chat"], some 20, none, none⟩
      ⟨"refresh-a", "client-a", ["chat"], some 90, none, none⟩ "family-a") (.saved (.ok ())),
    .called 10 (.saveTokenPair ⟨"access-b", "client-b", ["chat"], some 20, none, none⟩
      ⟨"refresh-b", "client-b", ["chat"], some 90, none, none⟩ "family-b") (.saved (.ok ())),
    .called 11 (.rotateTokenPair "refresh-a"
      ⟨"access-c", "client-b", ["chat"], some 21, none, none⟩
      ⟨"refresh-c", "client-b", ["chat"], some 91, none, none⟩) (.rotation (.ok .rotated))]

theorem sparedEvents_fresh : Fresh id sparedEvents := by
  constructor
  · intro past now call answer back split
    rcases past with _ | ⟨_, _ | ⟨_, _ | ⟨_, _ | ⟨_, rest⟩⟩⟩⟩
    · cases split
      refine ⟨⟨?_, ?_, ?_, ?_⟩, ?_⟩ <;> simp [StoreCall.newTokens, newTokens, calls, newFamilies, Covered]
    · cases split
      refine ⟨⟨?_, ?_, ?_, ?_⟩, ?_⟩ <;> simp [StoreCall.newTokens, newTokens, calls, newFamilies, Covered,
        StoreEvent.call?, StoreEvent.time?, StoreCall.newFamily]
    · cases split
      refine ⟨⟨?_, ?_, ?_, ?_⟩, ?_⟩ <;> simp [StoreCall.newTokens, newTokens, calls, newFamilies, Covered,
        StoreEvent.call?, StoreEvent.time?, StoreCall.newFamily]
    · cases split
      refine ⟨⟨?_, ?_, ?_, ?_⟩, ?_⟩ <;>
        simp [StoreCall.newTokens, Covered, StoreEvent.time?, StoreCall.newFamily]
    · simp [sparedEvents, replayEvents] at split
  · intro s _ t _ same
    exact same

theorem movedEvents_fresh : Fresh id movedEvents := by
  constructor
  · intro past now call answer back split
    rcases past with _ | ⟨_, _ | ⟨_, _ | ⟨_, rest⟩⟩⟩
    · cases split
      refine ⟨⟨?_, ?_, ?_, ?_⟩, ?_⟩ <;> simp [StoreCall.newTokens, newTokens, calls, newFamilies, Covered]
    · cases split
      refine ⟨⟨?_, ?_, ?_, ?_⟩, ?_⟩ <;> simp [StoreCall.newTokens, newTokens, calls, newFamilies, Covered,
        StoreEvent.call?, StoreEvent.time?, StoreCall.newFamily]
    · cases split
      refine ⟨⟨?_, ?_, ?_, ?_⟩, ?_⟩ <;> simp [StoreCall.newTokens, newTokens, calls, newFamilies, Covered,
        StoreEvent.call?, StoreEvent.time?, StoreCall.newFamily]
    · simp [movedEvents] at split
  · intro s _ t _ same
    exact same

/-- Neither condition can be left out: a replay whose successor has no expiry is refused before its
token is looked at, and a rotation to another client counts against no limit. -/
theorem rotation_conditions_needed :
    (¬∀ (events : List StoreEvent) (db : OAuthDb), StoreRun id {} .empty events db → Fresh id events →
      ∀ past now old access refresh answer back familyId,
        events = past ++ .called now (.rotateTokenPair old access refresh) answer :: back →
        Replays past now old familyId → ∀ event ∈ back, ∀ token, event.found? = some token →
          ¬Belongs events token familyId) ∧
    ¬∀ (limits : OAuthStoreLimits) (events : List StoreEvent) (db : OAuthDb),
      limits.validate = .ok limits → StoreRun id limits .empty events db → Fresh id events →
      WithinLimits limits db := by
  constructor
  · intro ended
    have run : ∃ db, StoreRun id {} .empty sparedEvents db :=
      ⟨_, .cons (.called rfl) (.cons (.called rfl) (.cons (.called rfl) (.cons (.called rfl)
        (.nil _))))⟩
    obtain ⟨db, run⟩ := run
    -- the replay is refused for its successor, and the access token of the family is still found
    have replays : Replays (sparedEvents.take 2) 12 "refresh-first" "family-a" :=
      ⟨List.mem_singleton.2 rfl, ⟨entry .refresh "family-a"
        ⟨"refresh-first", "client-a", ["chat"], some 90, none, none⟩,
        List.mem_of_getElem? (i := 2) rfl, rfl, rfl⟩, _, rfl, rfl⟩
    refine ended _ db run sparedEvents_fresh (sparedEvents.take 2) 12 _ _ _ _ _ "family-a" rfl replays
      _ (List.mem_singleton_self _) "access-next" rfl ?_
    exact ⟨entry .access "family-a" ⟨"access-next", "client-a", ["chat"], some 21, none, none⟩,
      List.mem_of_getElem? (i := 1) rfl, rfl, rfl⟩
  · intro within
    -- one family for each client is allowed, and the second client gets another by the rotation
    have run : ∃ db, StoreRun id { maxTokenFamiliesPerClient := 1 } .empty movedEvents db ∧
        familyCount db (some "client-b") = 2 :=
      ⟨_, .cons (.called rfl) (.cons (.called rfl) (.cons (.called rfl) (.nil _))), by decide⟩
    obtain ⟨db, run, two⟩ := run
    have one := (within _ movedEvents db rfl run movedEvents_fresh).client "client-b"
    rw [two] at one
    exact absurd one (by decide)

end CodexRemote.Verified.OAuthStore

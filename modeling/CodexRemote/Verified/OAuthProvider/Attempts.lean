import CodexRemote.Verified.OAuthProvider.SingleUse

/-! # Guesses at the owner's token

What a request that waits for its approval has left of its attempts.
-/

namespace CodexRemote.Verified.OAuthProvider

open Foundations McpServer

variable {setting : Setting} {past : List ProviderEvent} {provider next : Provider}
  {event : ProviderEvent} {now : Int} {state after : OAuthState} {id : String}
  {item : PendingAuthorization}

def ProviderEvent.denies (id : String) : ProviderEvent → Bool
  | .called _ (.approve requestId _) (.approved (.error .approvalDenied)) => requestId = id
  | _ => false

def ProviderEvent.opens (id : String) : ProviderEvent → Bool
  | .advanced given (.authorizing _ _) (.begun (.ok _)) => given.first = id
  | _ => false

/-- What a step does to the request of one id -/
inductive AttemptMove (id : String) (event : ProviderEvent) (state after : OAuthState) : Prop where
  | kept (rest : ∀ item, after.pending.find id = some item → state.pending.find id = some item)
      (quiet : event.denies id = false)
  | opened (unused : ∀ item, after.pending.find id = some item → item.failedAttempts = 0)
      (opens : event.opens id = true) (quiet : event.denies id = false)
  | denied {item : PendingAuthorization} (there : state.pending.find id = some item)
      (left : ∀ more, after.pending.find id = some more →
        more.failedAttempts = item.failedAttempts + 1 ∧ more.failedAttempts < maxOwnerTokenAttempts)
      (denies : event.denies id = true)

theorem find_swept (there : (state.discardExpired now).pending.find id = some item) :
    state.pending.find id = some item := by
  rw [OAuthState.discardExpired, Table.find_delete, Option.filter_eq_some_iff] at there
  exact there.1

theorem countFailedAttempt_move {given : Given} {candidate : String}
    (found : (state.discardExpired now).pending.find id = some item) (other : String) :
    AttemptMove other (.called given (.approve id candidate) (.approved (.error .approvalDenied)))
      state (countFailedAttempt id item (state.discardExpired now)) := by
  simp only [countFailedAttempt]
  by_cases same : id = other
  · subst same
    refine .denied (find_swept found) (fun more there => ?_) (decide_eq_true rfl)
    -- the last attempt removes the request
    split at there
    · rw [Table.remove, Table.find_delete, found] at there
      simp [Option.filter, Table.find_key found] at there
    · next few =>
      rw [Table.find_update, found, Option.map_some,
        if_pos (by simp [Table.find_key found])] at there
      cases there
      exact ⟨rfl, Nat.not_le.1 few⟩
  · refine .kept (fun more there => @find_swept now _ _ _ ?_) (decide_eq_false same)
    split at there
    · rw [Table.remove, Table.find_delete, Option.filter_eq_some_iff] at there
      exact there.1
    · rwa [Table.find_update_ne _ fun row own => by simp [own, Ne.symm same]] at there

theorem approve_move {given : Given} {candidate : String}
    {answer : Except OAuthProviderError Callback} (other : String)
    (ran : approve setting.sha256 setting.parsesUrl setting.config given.now id candidate
      given.first state = (answer, after)) :
    AttemptMove other (.called given (.approve id candidate) (.approved answer)) state after := by
  simp only [approve] at ran
  split at ran
  · cases ran
    exact .kept (fun _ => find_swept) rfl
  · next item found =>
    split at ran
    · cases ran
      exact countFailedAttempt_move found other
    · split at ran
      · cases ran
        exact .kept (fun _ => find_swept) rfl
      · split at ran <;>
        · cases ran
          refine .kept (fun item there => @find_swept given.now _ _ _ ?_) rfl
          rw [Table.remove, Table.find_delete, Option.filter_eq_some_iff] at there
          exact there.1

theorem advance_move {given : Given} {task : Task} {outcome : Outcome} {left : Option Task}
    {store kept : OAuthStore}
    (ran : advance setting given task store state = (outcome, left, kept, after)) (id : String) :
    AttemptMove id (.advanced given task outcome) state after := by
  cases task with
  | authorizing request scopes =>
    cases begun : beginAuthorization setting.config given.now given.first request scopes
        state with
    | mk result waiting =>
      simp only [advance, begun] at ran
      cases ran
      obtain ⟨_, rfl, rfl⟩ | ⟨_, rfl, rfl⟩ := beginAuthorization_cases begun
      · exact .kept (fun _ => find_swept) rfl
      · by_cases same : given.first = id
        · refine .opened (fun item there => ?_) (decide_eq_true same) rfl
          rw [Table.find_put, if_pos same] at there
          cases there
          rfl
        · refine .kept (fun item there => @find_swept given.now _ _ _ ?_) rfl
          rwa [Table.find_put, if_neg same] at there
  | claiming request =>
    cases claimed : claimValidCode setting.sha256 setting.codeChallengeOf given.now request
        state with
    | mk result waiting =>
      simp only [advance, claimed] at ran
      cases ran
      obtain ⟨_, rfl⟩ | ⟨_, _, _, _, _, rfl⟩ := claimValidCode_cases claimed <;>
        exact .kept (fun _ => find_swept) rfl
  | completing _ _ _ _ result =>
    cases result <;> cases ran <;> exact .kept (fun _ there => there) rfl
  | loading request =>
    simp only [advance] at ran
    split at ran <;> cases ran <;> exact .kept (fun _ there => there) rfl
  | _ =>
    cases ran
    exact .kept (fun _ there => there) rfl

theorem step_attempts (step : ProviderStep setting provider event next) (id : String) :
    AttemptMove id event provider.state next.state := by
  cases step with
  | advanced ran => exact advance_move ran id
  | @called _ _ _ _ _ given call _ ran =>
    cases call with
    | approve =>
      cases ran
      exact approve_move id rfl
    | pendingScopes =>
      cases ran
      exact .kept (fun _ => find_swept) rfl
    | _ =>
      cases ran
      exact .kept (fun _ there => there) rfl
  | restarted => exact .kept nofun rfl
  | _ => exact .kept (fun _ there => there) rfl

/-- A request that waits has attempts left, and what it used was counted since it was opened. -/
structure Counted (id : String) (past : List ProviderEvent) (state : OAuthState) : Prop where
  spent : past.countP (·.denies id) ≤ maxOwnerTokenAttempts * past.countP (·.opens id)
  left : ∀ item, state.pending.find id = some item → item.failedAttempts < maxOwnerTokenAttempts ∧
    past.countP (·.denies id) + maxOwnerTokenAttempts ≤
      maxOwnerTokenAttempts * past.countP (·.opens id) + item.failedAttempts

theorem Counted.move (counted : Counted id past state) (move : AttemptMove id event state after) :
    Counted id (past ++ [event]) after := by
  obtain ⟨spent, left⟩ := counted
  rw [maxOwnerTokenAttempts] at spent left
  constructor <;> simp only [List.countP_append, List.countP_singleton, maxOwnerTokenAttempts]
  · cases move with
    | kept _ quiet | opened _ _ quiet =>
      simp only [quiet, Bool.false_eq_true, if_false]
      omega
    | denied there _ denies =>
      have := left _ there
      simp only [denies, if_true]
      omega
  · intro item there
    cases move with
    | kept rest quiet =>
      have := left item (rest item there)
      simp only [quiet, Bool.false_eq_true, if_false]
      omega
    | opened unused opens quiet =>
      -- what the request before it had left is lost
      simp only [quiet, opens, unused item there, Bool.false_eq_true, if_false, if_true]
      omega
    | denied before more denies =>
      have := left _ before
      obtain ⟨same, few⟩ := more item there
      rw [maxOwnerTokenAttempts] at few
      simp only [denies, if_true]
      omega

theorem run_attempts (run : ProviderRun setting .empty past provider) (id : String) :
    Counted id past provider.state :=
  run.records (fun past provider => Counted id past provider.state)
    (fun _ _ _ _ _ step counted => counted.move (step_attempts step id)) ⟨Nat.zero_le _, nofun⟩

/-- No more than five wrong tokens of the owner are counted for each time that a request is begun,
and after them it is not found any more. -/
theorem owner_token_attempts_bounded (run : ProviderRun setting .empty past provider) :
    (∀ id, past.countP (·.denies id) ≤ maxOwnerTokenAttempts * past.countP (·.opens id)) ∧
    ∀ front given id candidate answer back,
      past = front ++ .called given (.approve id candidate) (.approved answer) :: back →
      front.countP (·.denies id) = maxOwnerTokenAttempts * front.countP (·.opens id) →
      answer = .error .approvalNotFound := by
  refine ⟨fun id => (run_attempts run id).spent, ?_⟩
  rintro front given id candidate answer back rfl used
  obtain ⟨before, _, earlier, step, _⟩ := run.split_at
  cases step with
  | @called _ _ state _ _ _ _ _ ran =>
    have gone : (state.discardExpired given.now).pending.find id = none := by
      refine Option.eq_none_iff_forall_not_mem.2 fun item there => ?_
      -- a request that waits would have an attempt left
      obtain ⟨few, counted⟩ := (run_attempts earlier id).left item (find_swept there)
      omega
    simp only [direct, approve, gone] at ran
    cases ran
    rfl

def guessEvents : List ProviderEvent :=
  exampleEvents.take 3 ++ List.replicate 5 (.called ⟨102, 102, "code", "", ""⟩
    (.approve "request" "guess") (.approved (.error .approvalDenied)))

theorem guessEvents_bounded : ∃ provider, ProviderRun exampleSetting .empty guessEvents provider ∧
    guessEvents.countP (·.denies "request") ≤ 5 := by
  have run : ∃ provider, ProviderRun exampleSetting .empty guessEvents provider :=
    ⟨_, .cons (.called rfl) (.cons (.entered rfl) (.cons (.alone rfl) (.cons (.called rfl)
      (.cons (.called rfl) (.cons (.called rfl) (.cons (.called rfl) (.single (.called rfl))))))))⟩
  obtain ⟨provider, run⟩ := run
  exact ⟨provider, run, (owner_token_attempts_bounded run).1 "request"⟩

end CodexRemote.Verified.OAuthProvider

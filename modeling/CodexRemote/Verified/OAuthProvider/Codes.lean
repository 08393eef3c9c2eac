import CodexRemote.Verified.OAuthProvider.CodeBook
import CodexRemote.Verified.OAuthProvider.Grants

/-! # The provider keeps the book of codes

Every section of the provider is a move of the book, so what the moves keep holds of every
run, and with it the claims that the ledger records.
-/

namespace CodexRemote.Verified.OAuthProvider

open Foundations McpServer

/-- The code that a task would give back, or spend. -/
def Task.held? : Task → Option AuthorizationCodeRecord
  | .claimed _ code => some code
  | .saving _ code _ _ _ => some code
  | .completing _ code _ _ (.error _) => some code
  | _ => none

/-- A task whose pair was saved has spent its code. -/
def Task.Settled (ledger : Ledger) : Task → Prop
  | .completing _ code _ _ (.ok ()) => code.code ∈ ledger.saved
  | _ => True

def bookOf (ledger : Ledger) (provider : Provider) : CodeBook where
  waiting := provider.state.codes
  exchanging := provider.state.exchanging
  held := provider.tasks.filterMap (·.held?)
  saved := ledger.saved
  sweeps := ledger.sweeps
  secrets := ledger.secrets

variable {setting : Setting} {ledger : Ledger} {store after : OAuthStore}
  {state then_ : OAuthState} {tasks front back : List Task} {now : Int}

/-- The moves that no event shows -/
def CodeEvent.silent : CodeEvent → Bool
  | .restarted | .claimed .. => false
  | _ => true

/-- What a provider step does to the book, and which of its moves are visible as which events. -/
def Moves (setting : Setting) (ledger : Ledger) (provider next : Provider) (event : ProviderEvent) :
    Prop :=
  ∃ move book, CodeMove setting.config (bookOf ledger provider) move book ∧
    (∃ more, bookOf (ledger.record event) next = book.hears more) ∧
    (move = .restarted → event = .restarted) ∧
    ∀ now code, move = .claimed now code →
      ∃ given request, event = .advanced given (.claiming request) (.claimed (.ok code))

variable {provider : Provider}

theorem Moves.quiet {next : Provider} {event : ProviderEvent} {move : CodeEvent}
    {book : CodeBook} (moved : CodeMove setting.config (bookOf ledger provider) move book)
    (same : bookOf (ledger.record event) next = book.hears event.secrets)
    (silent : move.silent = true) : Moves setting ledger provider next event :=
  ⟨move, book, moved, ⟨_, same⟩, (by rintro rfl; cases silent), by rintro _ _ rfl; cases silent⟩

theorem advance_moves {given : Given} {task : Task} {outcome : Outcome} {left : Option Task}
    (settled : task.Settled ledger)
    (ran : advance setting given task store state = (outcome, left, after, then_)) :
    Moves setting ledger ⟨store, state, front ++ task :: back⟩
      ⟨after, then_, front ++ (left.toList ++ back)⟩ (.advanced given task outcome) := by
  cases task with
  | authorizing request scopes =>
    simp only [advance] at ran
    generalize begun : beginAuthorization setting.config given.now given.first request scopes
      state = result at ran
    obtain ⟨result, began⟩ := result
    cases ran
    refine Moves.quiet (.swept given.now) ?_ rfl
    obtain ⟨error, rfl, rfl⟩ | ⟨approval, rfl, rfl⟩ := beginAuthorization_cases begun
    · simp [bookOf, CodeBook.discard, CodeBook.hears, Ledger.record, Ledger.note, Ledger.swept,
        OAuthState.discardExpired, Task.held?]
    · simp [bookOf, CodeBook.discard, CodeBook.hears, Ledger.record, Ledger.note, Ledger.swept,
        OAuthState.discardExpired, Task.held?]
  | claiming request =>
    simp only [advance] at ran
    generalize claimed : claimValidCode setting.sha256 setting.codeChallengeOf given.now request
      state = result at ran
    obtain ⟨result, began⟩ := result
    cases ran
    obtain ⟨rfl, rfl⟩ | ⟨code, rfl, present, named, _, rfl⟩ := claimValidCode_cases claimed
    · refine Moves.quiet (.swept given.now) ?_ rfl
      simp [bookOf, CodeBook.discard, CodeBook.hears, Ledger.record, Ledger.note, Ledger.swept,
        OAuthState.discardExpired, Task.held?, Except.toOption]
    · refine ⟨.claimed given.now code, _, @CodeMove.claimed _ _ (front.filterMap (·.held?))
        (back.filterMap (·.held?)) _ _ present (by simp [bookOf, Task.held?]), ⟨[], ?_⟩,
        by rintro ⟨⟩, ?_⟩
      · simp [bookOf, CodeBook.discard, CodeBook.hears, Ledger.record, Ledger.note, Ledger.swept,
          OAuthState.discardExpired, Task.held?, Except.toOption, ProviderEvent.secrets, named]
      · intro now other same
        cases same
        exact ⟨given, request, rfl⟩
  | claimed request code =>
    cases ran
    refine Moves.quiet .idle ?_ rfl
    simp [bookOf, CodeBook.hears, Ledger.record, Ledger.note, Task.held?]
  | saving request code access refresh familyId =>
    simp only [advance] at ran
    generalize saved : saveTokenPair setting.sha256 setting.limits given.now access refresh
      familyId store.db = answer at ran
    obtain ⟨result, db⟩ := answer
    cases ran
    cases result with
    | ok _ =>
      refine Moves.quiet (@CodeMove.saved _ _ (front.filterMap (·.held?))
        (back.filterMap (·.held?)) code (by simp [bookOf, Task.held?])) ?_ rfl
      simp [bookOf, CodeBook.hears, Ledger.record, Ledger.note, Task.held?]
    | error _ =>
      refine Moves.quiet .idle ?_ rfl
      simp [bookOf, CodeBook.hears, Ledger.record, Ledger.note, Task.held?]
  | completing request code access refresh result =>
    cases ran
    cases result with
    | ok _ =>
      refine Moves.quiet (.finished settled) ?_ rfl
      simp [bookOf, CodeBook.hears, Ledger.record, Ledger.note, Task.held?]
    | error _ =>
      refine Moves.quiet (@CodeMove.returned _ _ (front.filterMap (·.held?))
        (back.filterMap (·.held?)) code (by simp [bookOf, Task.held?])) ?_ rfl
      simp [bookOf, CodeBook.hears, Ledger.record, Ledger.note, Task.held?]
  | loading request =>
    simp only [advance] at ran
    split at ran
    · cases ran
      refine Moves.quiet .idle ?_ rfl
      simp [bookOf, CodeBook.hears, Ledger.record, Ledger.note, Task.held?]
    · cases ran
      refine Moves.quiet .idle ?_ rfl
      simp [bookOf, CodeBook.hears, Ledger.record, Ledger.note, Task.held?]
  | rotating oldRefresh access refresh =>
    cases ran
    refine Moves.quiet .idle ?_ rfl
    simp [bookOf, CodeBook.hears, Ledger.record, Ledger.note, Task.held?]

theorem direct_moves {given : Given} {call : Direct} {answer : DirectAnswer}
    (fresh : ∀ secret ∈ (ProviderEvent.called given call answer).secrets, secret ∉ ledger.secrets)
    (ran : direct setting given call store state = (answer, after, then_)) :
    Moves setting ledger ⟨store, state, tasks⟩ ⟨after, then_, tasks⟩ (.called given call answer) := by
  cases call with
  | registerClient client =>
    simp only [direct] at ran
    generalize saveClientPayload setting.limits given.now client.clientId client store = result
      at ran
    obtain ⟨result, made⟩ := result
    cases ran
    refine Moves.quiet .idle ?_ rfl
    cases result <;> simp [bookOf, CodeBook.hears, Ledger.record, Ledger.note]
  | pendingScopes requestId =>
    cases ran
    refine Moves.quiet (.swept given.now) ?_ rfl
    simp [bookOf, CodeBook.discard, CodeBook.hears, Ledger.record, Ledger.note, Ledger.swept,
      OAuthState.discardExpired]
  | approve requestId candidate =>
    simp only [direct] at ran
    generalize approved : approve setting.sha256 setting.parsesUrl setting.config given.now
      requestId candidate given.first state = result at ran
    obtain ⟨result, began⟩ := result
    cases ran
    obtain ⟨⟨error, rfl, other⟩, codes, exchanging, _⟩ |
        ⟨granted, _, item, _, total, client, rfl⟩ := approve_cases approved
    · refine Moves.quiet (.swept given.now) ?_ rfl
      cases error <;> first
        | exact absurd rfl other
        | simp [bookOf, CodeBook.discard, CodeBook.hears, Ledger.record, Ledger.note,
            Ledger.swept, codes, exchanging, OAuthState.discardExpired]
    · have generated : (ProviderEvent.called given (.approve requestId candidate)
          (.approved result)).secrets = [given.first] := by
        obtain ⟨callback, rfl⟩ | rfl := granted <;> rfl
      rw [generated] at fresh
      refine ⟨.issued given.now (codeRecord given.first given.now item), _,
        .issued (fresh given.first (List.mem_cons_self ..)) total client, ⟨[], ?_⟩,
        by rintro ⟨⟩, by rintro _ _ ⟨⟩⟩
      obtain ⟨callback, rfl⟩ | rfl := granted <;>
        simp [bookOf, CodeBook.discard, CodeBook.hears, Ledger.record, Ledger.note, Ledger.swept,
          OAuthState.discardExpired, ProviderEvent.secrets, codeRecord]
  | authenticateAccess token =>
    cases ran
    refine Moves.quiet .idle ?_ rfl
    simp [bookOf, CodeBook.hears, Ledger.record, Ledger.note]
  | revoke token =>
    cases ran
    refine Moves.quiet .idle ?_ rfl
    simp [bookOf, CodeBook.hears, Ledger.record, Ledger.note]

/-- A call that passes its checks holds no code yet. -/
theorem enter_held {call : Call} {loaded : Option StoredClient} {task : Task}
    (entered : enter setting call loaded = .ok task) :
    task.held? = none ∧ task.Settled ledger := by
  cases call with
  | beginAuthorization request =>
    obtain ⟨_, _, rfl⟩ := map_ok.1 entered
    exact ⟨rfl, trivial⟩
  | exchangeCode request =>
    obtain ⟨_, _, rfl⟩ := map_ok.1 entered
    exact ⟨rfl, trivial⟩
  | exchangeRefresh request =>
    obtain ⟨_, _, rfl⟩ := map_ok.1 entered
    exact ⟨rfl, trivial⟩

theorem step_moves {next : Provider} {event : ProviderEvent}
    (step : ProviderStep setting provider event next)
    (fresh : ∀ secret ∈ event.secrets, secret ∉ ledger.secrets)
    (settled : ∀ task ∈ provider.tasks, task.Settled ledger) :
    Moves setting ledger provider next event := by
  cases step with
  | @entered _ call result checked =>
    refine Moves.quiet .idle ?_ rfl
    cases result with
    | error _ =>
      simp [bookOf, CodeBook.hears, Ledger.record, Ledger.note, Except.toOption]
    | ok task =>
      simp [bookOf, CodeBook.hears, Ledger.record, Ledger.note, Except.toOption,
        (@enter_held _ ledger _ _ _ checked).1]
  | advanced ran => exact advance_moves (settled _ (by simp)) ran
  | called ran => exact direct_moves fresh ran
  | unsaved error =>
    refine Moves.quiet .idle ?_ rfl
    simp [bookOf, CodeBook.hears, Ledger.record, Ledger.note, Task.held?]
  | restarted =>
    refine ⟨.restarted, _, .restarted, ⟨[], ?_⟩, fun _ => rfl, by rintro _ _ ⟨⟩⟩
    simp [bookOf, CodeBook.hears, Ledger.record, Ledger.note, ProviderEvent.secrets,
      OAuthState.empty]

/-! ## Runs -/

theorem Task.Settled.grow {task : Task} {next : Ledger} (grows : Grows ledger next)
    (settled : task.Settled ledger) : task.Settled next := by
  cases task with
  | completing request code access refresh result =>
    cases result with
    | ok _ => exact grows.saved _ settled
    | error _ => trivial
  | _ => trivial

theorem advance_settled {given : Given} {task rest : Task} {outcome : Outcome}
    (ran : advance setting given task store state = (outcome, some rest, after, then_)) :
    rest.Settled (ledger.record (.advanced given task outcome)) := by
  cases task with
  | saving request code access refresh familyId =>
    simp only [advance] at ran
    generalize saveTokenPair setting.sha256 setting.limits given.now access refresh familyId
      store.db = answer at ran
    obtain ⟨result, db⟩ := answer
    cases ran
    cases result with
    | ok _ => exact List.mem_cons_self ..
    | error _ => trivial
  | claiming request =>
    simp only [advance] at ran
    generalize claimValidCode setting.sha256 setting.codeChallengeOf given.now request state =
      answer at ran
    obtain ⟨result, began⟩ := answer
    cases result with
    | ok _ =>
      cases ran
      trivial
    | error _ => cases ran
  | loading request =>
    simp only [advance] at ran
    split at ran
    · cases ran
    · cases ran
      trivial
  | claimed request code =>
    cases ran
    trivial
  | authorizing request scopes => cases ran
  | completing request code access refresh result => cases ran
  | rotating oldRefresh access refresh => cases ran

theorem step_settled {next : Provider} {event : ProviderEvent}
    (step : ProviderStep setting provider event next)
    (settled : ∀ task ∈ provider.tasks, task.Settled ledger) :
    ∀ task ∈ next.tasks, task.Settled (ledger.record event) := by
  have grows := record_grows ledger event
  intro task present
  cases step with
  | @entered _ call result checked =>
    rw [List.mem_append, Option.mem_toList] at present
    obtain started | running := present
    · cases result with
      | error _ => cases started
      | ok entered =>
        cases started
        exact (enter_held checked).2
    · exact (settled task running).grow grows
  | @advanced _ _ _ _ front back given old outcome left ran =>
    simp only [List.mem_append, Option.mem_toList] at present
    obtain before | here | behind := present
    · exact (settled task (List.mem_append_left _ before)).grow grows
    · cases here
      exact advance_settled ran
    · exact (settled task (by simp [behind])).grow grows
  | called => exact (settled task present).grow grows
  | unsaved error =>
    simp only [List.mem_append, List.mem_cons] at present
    obtain before | rfl | behind := present
    · exact (settled task (List.mem_append_left _ before)).grow grows
    · trivial
    · exact (settled task (by simp [behind])).grow grows
  | restarted => cases present

theorem run_book {events : List ProviderEvent}
    (run : ProviderRun setting .empty events provider) (fresh : Fresh events) :
    (bookOf (OAuthProvider.ledger events) provider).Valid setting.config ∧
      ∀ task ∈ provider.tasks, task.Settled (OAuthProvider.ledger events) := by
  refine run.records (fun past provider => Fresh past →
    (bookOf (OAuthProvider.ledger past) provider).Valid setting.config ∧
      ∀ task ∈ provider.tasks, task.Settled (OAuthProvider.ledger past)) ?_ ?_ fresh
  · intro past u event v _ step ih fresh
    obtain ⟨valid, settled⟩ := ih fresh.front
    obtain ⟨_, book, move, ⟨more, same⟩, _⟩ := step_moves step (fun _ => fresh.last) settled
    rw [ledger_snoc]
    refine ⟨?_, step_settled step settled⟩
    rw [same]
    exact (move.valid valid).hears more
  · intro _
    constructor
    · constructor <;> simp [bookOf, Provider.empty, OAuthState.empty, Table.empty, CodeBook.places,
        CodeBook.retained, Table.count, OAuthProvider.ledger]
    · intro task present
      cases present

end CodexRemote.Verified.OAuthProvider

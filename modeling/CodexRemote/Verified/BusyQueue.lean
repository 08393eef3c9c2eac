import Mathlib.Tactic.Linarith
import CodexRemote.Store.BusyQueue
import CodexRemote.Verified.Queue.Inserts

/-! # A busy choice becomes an intake once

The claim of the choice is what a second call misses: nothing in these calls gives it back.
A confirmation key answers for its choice while its claim lasts, and only extends.
-/

namespace CodexRemote.Verified.BusyQueue

open Foundations Store Store.BusyQueue

variable {ρ : Type}

structure BusyEvent where
  call : BusyCall
  answer : Except StoreError BusyQueueAdmission

def BusyEvent.created (event : BusyEvent) : Bool :=
  match event.answer with
  | .ok admission => admission.intake.isSome
  | .error _ => false

inductive BusyStep (hooks : BusyHooks ρ) : BusyDb ρ → BusyEvent → BusyDb ρ → Prop where
  | call (call : BusyCall) (db : BusyDb ρ) :
      BusyStep hooks db ⟨call, (admitBusyQueue hooks call db).1⟩ (admitBusyQueue hooks call db).2

/-! ## The parts of the transaction -/

def ownerKey (choice : BusyChoice) : String := "busy-choice:" ++ choice.choiceId

/-- Only the owner of the call's choice was written down: in its receipt, when that was missing,
and in the rows of the journal that stand for the choice. -/
structure OwnersOnly (hooks : BusyHooks ρ) (call : BusyCall) (db next : BusyDb ρ) : Prop where
  frame : next = { db with
    ingress := next.ingress
    rest := { db.rest with receipts := next.rest.receipts } }
  receipts : ∀ key, next.rest.receipts.find key = db.rest.receipts.find key ∨
    (key = ownerKey call.choice ∧ db.rest.receipts.find key = none ∧
      ∃ receipt, next.rest.receipts.find key = some receipt ∧ receipt.ownerId = call.jobId)
  journal : ∀ key, next.ingress.find key = db.ingress.find key ∨
    ∃ row now, call.now = some now ∧ db.ingress.find key = some row ∧
      busyOwned hooks db call.choice row = true ∧
      next.ingress.find key = some (row.ownBusy call.jobId call.targetThreadId now)

theorem OwnersOnly.refl (hooks : BusyHooks ρ) (call : BusyCall) (db : BusyDb ρ) :
    OwnersOnly hooks call db db := ⟨rfl, fun _ => .inl rfl, fun _ => .inl rfl⟩

variable {db next : BusyDb ρ} {hooks : BusyHooks ρ} {call : BusyCall} {now : Rat}
  {event : BusyEvent}

theorem insertReceipt_ok {receipt : OwnerReceipt}
    (result : BusyQueue.insertReceipt hooks db receipt = .ok next) :
    next = { db with rest := { db.rest with receipts := next.rest.receipts } } ∧
      ∀ key, next.rest.receipts.find key = db.rest.receipts.find key ∨
        (key = receipt.ownerKey ∧ db.rest.receipts.find key = none ∧
          next.rest.receipts.find key = some receipt) := by
  rw [BusyQueue.insertReceipt] at result
  split at result
  · cases result
  · obtain ⟨_, same⟩ | ⟨_, inserted⟩ := ite_ok.1 result
    · cases same
      exact ⟨rfl, fun _ => .inl rfl⟩
    · cases inserted
      refine ⟨rfl, fun key => ?_⟩
      simp only [Table.find_insertOrIgnore]
      split
      · next same =>
        cases stands : db.rest.receipts.find key with
        | none => exact .inr ⟨same.symm, rfl, rfl⟩
        | some row => exact .inl rfl
      · exact .inl rfl

theorem recordBusyOwner_ok (read : call.now = some now)
    (result : recordBusyOwner hooks call.choice call.jobId call.targetThreadId now db = .ok next) :
    OwnersOnly hooks call db next := by
  obtain ⟨middle, inserted, result⟩ := bind_ok.1 result
  obtain ⟨⟨changed, after⟩, updated, result⟩ := bind_ok.1 result
  cases result
  obtain ⟨frame, receipts⟩ := insertReceipt_ok inserted
  obtain ⟨selected, meant, rfl⟩ := Queue.updateIngress_ok updated
  have ingress : middle.ingress = db.ingress := by rw [frame]
  have others : middle.rest.others = db.rest.others := by rw [frame]
  constructor
  · show _ = { db with rest := { db.rest with receipts := middle.rest.receipts }, ingress := _ }
    rw [frame]
  · intro key
    obtain same | ⟨here, missing, found⟩ := receipts key
    · exact .inl same
    · exact .inr ⟨here, missing, _, found, rfl⟩
  · intro key
    have found := @Table.find_update _ _ _ _ middle.ingress selected
      (fun row => row.ownBusy call.jobId call.targetThreadId now) (fun _ => rfl) key
    cases stands : db.ingress.find key with
    | none =>
      rw [show middle.ingress.find key = none from ingress ▸ stands] at found
      exact .inl found
    | some row =>
      rw [show middle.ingress.find key = some row from ingress ▸ stands, Option.map_some] at found
      cases marked : selected row with
      | false =>
        rw [marked] at found
        exact .inl found
      | true =>
        have owned := meant row marked
        rw [busyOwned, others] at owned
        rw [marked] at found
        exact .inr ⟨row, now, read, rfl, owned, found⟩

/-- The choice stood open, as the caller knew it, and is the only one that was claimed. -/
structure ChoiceClaimed (choice : BusyChoice) (now : Rat) (db next : BusyDb ρ) : Prop where
  frame : next = { db with rest := { db.rest with choices := next.rest.choices } }
  row : ∃ row, db.rest.choices.find choice.choiceId = some row ∧ row.choice = choice ∧
    row.claimedAt = none ∧ now < choice.expiresAt ∧
    next.rest.choices.find choice.choiceId = some (row.claim now)
  others : ∀ id, id ≠ choice.choiceId → next.rest.choices.find id = db.rest.choices.find id

theorem claimChoice_ok {choice : BusyChoice}
    (result : claimChoice hooks choice now db = .ok (1, next)) :
    ChoiceClaimed choice now db next := by
  unfold claimChoice at result
  dsimp only at result
  split at result
  · cases result
  · simp only [Except.ok.injEq, Prod.mk.injEq] at result
    obtain ⟨counted, rfl⟩ := result
    -- the condition names one key, so at most that row is claimed
    have named : ∀ row : BusyChoiceRow, (row.choice == choice && row.claimedAt.isNone &&
        decide (now < row.choice.expiresAt) && !hooks.choiceFrozen db choice.choiceId) = true →
        row.choiceId = choice.choiceId := by
      intro row holds
      simp only [Bool.and_eq_true, beq_iff_eq] at holds
      rw [BusyChoiceRow.choiceId, holds.1.1.1]
    obtain ⟨none, _⟩ | ⟨_, row, found, holds, updated, others⟩ :=
      @Table.update_keyed _ _ _ _ db.rest.choices _ (fun row => row.claim now) (fun _ => rfl) _ named
    · rw [none] at counted
      cases counted
    · simp only [Bool.and_eq_true, beq_iff_eq, decide_eq_true_eq] at holds
      exact ⟨rfl, ⟨row, found, holds.1.1.1, by simpa using holds.1.1.2,
        holds.1.1.1 ▸ holds.1.2, updated⟩, others⟩

theorem insertIntake_ok {hooks : QueueHooks ρ} {db next : QueueDb ρ} {intake : PromptIntake}
    (result : insertIntake hooks db intake = .ok next) :
    next.intakes = db.intakes ∨ next = { db with
      intakes := db.intakes.insertOrIgnore intake
      archive := next.archive } := by
  unfold insertIntake at result
  obtain ⟨_, result⟩ := guard_ok.1 result
  split at result
  · cases result
  · obtain ⟨_, result⟩ | ⟨_, result⟩ := ite_ok.1 result
    · cases result
      exact .inl rfl
    · obtain ⟨_, result⟩ := guard_ok.1 result
      cases result
      exact .inr rfl

theorem changedIntake_ok {db : QueueDb ρ} {jobId : String} {intake : PromptIntake}
    (result : changedIntake db jobId = .ok intake) : db.intakes.find jobId = some intake := by
  unfold changedIntake at result
  split at result
  · cases result
  · next found =>
    cases result
    exact found

/-- The row asked for was created, and nothing stood under its id before. -/
structure IntakeCreated (new : NewPromptIntake) (target : String) (db next : QueueDb ρ)
    (intake : PromptIntake) : Prop where
  row : intake = new.row target
  missing : db.intakes.find new.jobId = none
  frame : next = { db with
    intakes := db.intakes.insertOrIgnore intake
    archive := next.archive }

theorem admitIn_created {hooks : QueueHooks ρ} {new : NewPromptIntake} {db next : QueueDb ρ}
    {admitted : PromptIntakeAdmission} (unnamed : new.discordMessageId = none)
    (result : Store.admitIn hooks new db = .ok (admitted, next))
    (created : admitted.created = true) :
    ∃ target, IntakeCreated new target db next admitted.intake := by
  unfold Store.admitIn at result
  obtain ⟨_, _, result⟩ := bind_ok.1 result
  obtain ⟨existing, identity, result⟩ := bind_ok.1 result
  cases existing with
  | some intake =>
    obtain ⟨after, _, result⟩ := bind_ok.1 result
    cases result
    cases created
  | none =>
    obtain ⟨target, _, result⟩ := bind_ok.1 result
    obtain ⟨inserted, insertion, result⟩ := bind_ok.1 result
    obtain ⟨intake, read, result⟩ := bind_ok.1 result
    obtain ⟨after, link, result⟩ := bind_ok.1 result
    cases result
    have missing : db.intakes.find new.jobId = none := by
      unfold existingIdentity at identity
      rw [unnamed] at identity
      cases stands : db.intakes.find new.jobId with
      | none => rfl
      | some row =>
        simp only [stands, Option.bind_none] at identity
        obtain ⟨_, identity⟩ | ⟨_, identity⟩ := ite_ok.1 identity <;> cases identity
    have found := changedIntake_ok read
    obtain same | frame := insertIntake_ok insertion
    · rw [same, missing] at found
      cases found
    · rw [frame] at found
      simp only [Table.find_insertOrIgnore, missing] at found
      have row : intake = new.row target := by
        simpa [show (new.row target).jobId = new.jobId from rfl] using found.symm
      have linked : next = inserted := by
        unfold linkPromptOwner at link
        rw [show intake.discordMessageId = none from row ▸ unnamed] at link
        cases link
        rfl
      exact ⟨target, row, missing, by rw [linked, row]; exact frame⟩

/-- The open choice was taken up: its row is claimed, its prompt is the only new intake, and the
confirmation is the only new claim. -/
structure TakenUp (call : BusyCall) (now : Rat) (db next : BusyDb ρ) (intake : PromptIntake) :
    Prop where
  unanswered : confirmed db call.confirmationKey now = false
  open_row : ∃ row, db.rest.choices.find call.choice.choiceId = some row ∧
    row.choice = call.choice ∧ row.claimedAt = none ∧ now < call.choice.expiresAt ∧
    next.rest.choices.find call.choice.choiceId = some (row.claim now)
  choices : ∀ id, id ≠ call.choice.choiceId →
    next.rest.choices.find id = db.rest.choices.find id
  row : intake = (call.intake now).row call.targetThreadId
  missing : db.intakes.find call.jobId = none
  intakes : next.intakes = db.intakes.insertOrIgnore intake
  claims : next.rest.claims = db.rest.claims.put (call.confirmation now)
  jobs : next.jobs = db.jobs

theorem takeUpIn_ok {admission : BusyQueueAdmission} (read : call.now = some now)
    (unanswered : confirmed db call.confirmationKey now = false)
    (result : takeUpIn hooks call now db = .ok (admission, next)) :
    ∃ intake, admission = ⟨call.jobId, some intake⟩ ∧ TakenUp call now db next intake := by
  unfold takeUpIn at result
  obtain ⟨_, _, result⟩ := bind_ok.1 result
  obtain ⟨⟨claimed, held⟩, claim, result⟩ := bind_ok.1 result
  obtain ⟨one, result⟩ := guard_ok.1 result
  cases (not_not.1 one : claimed = 1)
  have choice := claimChoice_ok claim
  obtain ⟨⟨admitted, saved⟩, admission, result⟩ := bind_ok.1 result
  obtain ⟨targets, result⟩ := guard_ok.1 result
  obtain ⟨created, result⟩ := guard_ok.1 result
  obtain ⟨final, owners, result⟩ := bind_ok.1 result
  cases result
  obtain ⟨target, made⟩ := admitIn_created rfl admission (by simpa using created)
  have only := recordBusyOwner_ok read owners
  -- the target that the intake was given is the one that the caller named
  have given : target = call.targetThreadId := by
    have same := not_not.1 targets
    rw [made.row] at same
    exact same
  subst given
  refine ⟨admitted.intake, rfl, ?_⟩
  have choices : next.rest.choices = held.rest.choices := by rw [only.frame, made.frame]; rfl
  have unsaved : held.intakes = db.intakes := by rw [choice.frame]
  exact {
    unanswered := unanswered
    open_row := by rw [choices]; exact choice.row
    choices := by rw [choices]; exact choice.others
    row := made.row
    missing := unsaved ▸ made.missing
    intakes := by rw [only.frame, ← unsaved]; show saved.intakes = _; rw [made.frame]
    claims := by
      rw [only.frame]
      show saved.rest.claims.put _ = _
      rw [made.frame, choice.frame]
    jobs := by
      rw [only.frame]
      show saved.jobs = _
      rw [made.frame, choice.frame] }

/-! ## What a call does -/

inductive BusyMove (hooks : BusyHooks ρ) (call : BusyCall) (db : BusyDb ρ) :
    Except StoreError BusyQueueAdmission → BusyDb ρ → Prop where
  | refused (error : StoreError) : BusyMove hooks call db (.error error) db
  | repeated (now : Rat) (next : BusyDb ρ) (read : call.now = some now)
      (live : confirmed db call.confirmationKey now = true)
      (owners : OwnersOnly hooks call db next) :
      BusyMove hooks call db (.ok ⟨call.jobId, none⟩) next
  | taken (now : Rat) (next : BusyDb ρ) (intake : PromptIntake) (read : call.now = some now)
      (took : TakenUp call now db next intake) :
      BusyMove hooks call db (.ok ⟨call.jobId, some intake⟩) next

theorem admitBusyQueueIn_ok {admission : BusyQueueAdmission} (read : call.now = some now)
    (result : admitBusyQueueIn hooks call now db = .ok (admission, next)) :
    BusyMove hooks call db (.ok admission) next := by
  unfold admitBusyQueueIn at result
  obtain ⟨_, result⟩ := guard_ok.1 result
  obtain ⟨live, result⟩ | ⟨unanswered, result⟩ := ite_ok.1 result
  · obtain ⟨after, owners, result⟩ := bind_ok.1 result
    cases result
    exact .repeated now next read live (recordBusyOwner_ok read owners)
  · obtain ⟨intake, rfl, took⟩ := takeUpIn_ok read (by simpa using unanswered) result
    exact .taken now next intake read took

theorem admitBusyQueue_moves (hooks : BusyHooks ρ) (call : BusyCall) (db : BusyDb ρ) :
    BusyMove hooks call db (admitBusyQueue hooks call db).1 (admitBusyQueue hooks call db).2 := by
  unfold admitBusyQueue
  cases read : call.now with
  | none => exact .refused _
  | some now =>
    simp only
    split
    · exact .refused _
    · generalize ran : commit (admitBusyQueueIn hooks call now) db = outcome
      obtain ⟨answer, next⟩ := outcome
      cases answer with
      | error e => exact commit_error ran ▸ .refused e
      | ok admission => exact admitBusyQueueIn_ok read (commit_ok ran)

theorem BusyMove.uncreated
    {answer : Except StoreError BusyQueueAdmission} (move : BusyMove hooks call db answer next)
    (uncreated : (BusyEvent.mk call answer).created = false) : OwnersOnly hooks call db next := by
  cases move with
  | refused error => exact .refl hooks call db
  | repeated now next read live owners => exact owners
  | taken now next intake read took => cases uncreated

/-! ## A claimed choice stays claimed -/

def openChoice (db : BusyDb ρ) (id : String) : Bool :=
  (db.rest.choices.find id).any (·.claimedAt.isNone)

/-- An open choice is spent by the call that takes it up, and no call opens one. -/
theorem BusyStep.spends (step : BusyStep hooks db event next) (id : String) :
    (event.created && event.call.choice.choiceId == id).toNat + (openChoice next id).toNat ≤
      (openChoice db id).toNat := by
  cases step with
  | call call db =>
    have move := admitBusyQueue_moves hooks call db
    generalize (admitBusyQueue hooks call db).2 = next at move ⊢
    generalize (admitBusyQueue hooks call db).1 = answer at move ⊢
    cases move with
    | refused error => simp [BusyEvent.created]
    | repeated now next read live owners =>
      have choices : next.rest.choices = db.rest.choices := by rw [owners.frame]
      simp [BusyEvent.created, openChoice, choices]
    | taken now next intake read took =>
      obtain ⟨row, stood, _, unclaimed, _, claimed⟩ := took.open_row
      by_cases here : call.choice.choiceId = id
      · subst here
        have was : openChoice db call.choice.choiceId = true := by
          simp [openChoice, stood, unclaimed]
        have left : openChoice next call.choice.choiceId = false := by
          simp [openChoice, claimed, BusyChoiceRow.claim]
        simpa [was, left] using Bool.toNat_le _
      · have same := took.choices id (fun other => here other.symm)
        simp [openChoice, same, here]

theorem opens_none {events : List BusyEvent}
    (run : Run (BusyStep hooks) db events next) (id : String) :
    events.countP (fun e => e.created && e.call.choice.choiceId == id) +
      (openChoice next id).toNat ≤ (openChoice db id).toNat := by
  have spent := run.spends_le (fun db => (openChoice db id).toNat)
    (fun e => e.created && e.call.choice.choiceId == id) (fun _ => false)
    (fun _ _ _ step => step.spends id)
  simpa using spent

/-! ## A confirmation only extends -/

/-- The key answers for its choice at every time before this one. -/
def AnsweredUntil (db : BusyDb ρ) (key : String) (expiry : Rat) : Prop :=
  ∃ claim, db.rest.claims.find key = some claim ∧ expiry ≤ claim.expiresAt

theorem BusyStep.answered {key : String} {expiry : Rat} (step : BusyStep hooks db event next)
    (answered : AnsweredUntil db key expiry) : AnsweredUntil next key expiry := by
  obtain ⟨claim, stands, lasts⟩ := answered
  cases step with
  | call call db =>
    have move := admitBusyQueue_moves hooks call db
    generalize (admitBusyQueue hooks call db).2 = next at move ⊢
    generalize (admitBusyQueue hooks call db).1 = answer at move
    cases move with
    | refused error => exact ⟨claim, stands, lasts⟩
    | repeated now next read live owners => exact ⟨claim, by rw [owners.frame]; exact stands, lasts⟩
    | taken now next intake read took =>
      rw [AnsweredUntil, took.claims]
      simp only [Table.find_put]
      split
      · next same =>
        -- the older claim of the key had ended, and the new one ends later
        have ended := took.unanswered
        rw [confirmed, show call.confirmationKey = key from same, stands] at ended
        simp only [Option.any_some, decide_eq_false_iff_not, not_lt] at ended
        refine ⟨_, rfl, ?_⟩
        have later : now + 1800 ≤ (call.confirmation now).expiresAt := le_max_right _ _
        show expiry ≤ (call.confirmation now).expiresAt
        linarith
      · exact ⟨claim, stands, lasts⟩

theorem confirmed_of_answered {key : String} {expiry : Rat}
    (answered : AnsweredUntil db key expiry) (early : now < expiry) :
    confirmed db key now = true := by
  obtain ⟨claim, stands, lasts⟩ := answered
  simp only [confirmed, stands, Option.any_some, decide_eq_true_eq]
  exact lt_of_lt_of_le early lasts

/-! ## The calls of a run -/

structure BusyAdmission (hooks : BusyHooks ρ) : Prop where
  /-- A choice becomes an intake in one call at most. -/
  once : ∀ {db final : BusyDb ρ} {events : List BusyEvent} (id : String),
    Run (BusyStep hooks) db events final →
    events.countP (fun e => e.created && e.call.choice.choiceId == id) ≤ 1
  /-- The call that does it claims the choice, saves the intake and confirms, and no more. -/
  taken : ∀ {db next : BusyDb ρ} {event : BusyEvent}, BusyStep hooks db event next →
    event.created = true → ∃ now intake, event.call.now = some now ∧
      event.answer = .ok ⟨event.call.jobId, some intake⟩ ∧ TakenUp event.call now db next intake
  /-- After it no call for the choice finds a new intake, whatever its key. -/
  repeated : ∀ {db first late final : BusyDb ρ} {accepted again : BusyEvent}
    {between : List BusyEvent}, BusyStep hooks db accepted first → accepted.created = true →
    Run (BusyStep hooks) first between late → BusyStep hooks late again final →
    again.call.choice.choiceId = accepted.call.choice.choiceId →
    again.created = false ∧ OwnersOnly hooks again.call late final
  /-- Nor does a call with its key while the confirmation lasts, whatever its choice. -/
  answered : ∀ {db first late final : BusyDb ρ} {accepted again : BusyEvent}
    {between : List BusyEvent} {start now : Rat}, BusyStep hooks db accepted first →
    accepted.created = true → Run (BusyStep hooks) first between late →
    BusyStep hooks late again final →
    again.call.confirmationKey = accepted.call.confirmationKey →
    accepted.call.now = some start → again.call.now = some now →
    now < (accepted.call.confirmation start).expiresAt →
    again.created = false ∧ OwnersOnly hooks again.call late final
  /-- An error leaves the store as it was. -/
  refused : ∀ {db next : BusyDb ρ} {event : BusyEvent} {error : StoreError},
    BusyStep hooks db event next → event.answer = .error error → next = db

theorem BusyStep.taken (step : BusyStep hooks db event next) (created : event.created = true) :
    ∃ now intake, event.call.now = some now ∧
      event.answer = .ok ⟨event.call.jobId, some intake⟩ ∧
      TakenUp event.call now db next intake := by
  cases step with
  | call call db =>
    have move := admitBusyQueue_moves hooks call db
    generalize (admitBusyQueue hooks call db).2 = next at move ⊢
    generalize (admitBusyQueue hooks call db).1 = answer at move created ⊢
    cases move with
    | refused error => cases created
    | repeated now next read live owners => cases created
    | taken now next intake read took => exact ⟨now, intake, read, rfl, took⟩

theorem BusyStep.uncreated
    (step : BusyStep hooks db event next) (uncreated : event.created = false) :
    OwnersOnly hooks event.call db next := by
  cases step with
  | call call db => exact (admitBusyQueue_moves hooks call db).uncreated uncreated

theorem busy_choice_admitted_once (hooks : BusyHooks ρ) : BusyAdmission hooks where
  once := by
    intro db final events id run
    have spent := opens_none run id
    have one := Bool.toNat_le (openChoice db id)
    omega
  taken step created := step.taken created
  repeated := by
    intro db first late final accepted again between accepts created run step same
    -- the accepted call left the choice claimed, so there is none to spend
    have spent := accepts.spends accepted.call.choice.choiceId
    rw [created, beq_self_eq_true] at spent
    have kept := opens_none run accepted.call.choice.choiceId
    have spends := step.spends accepted.call.choice.choiceId
    rw [same, beq_self_eq_true, Bool.and_true] at spends
    have one := Bool.toNat_le (openChoice db accepted.call.choice.choiceId)
    have uncreated : again.created = false := by
      cases holds : again.created with
      | false => rfl
      | true =>
        simp only [holds, Bool.and_self, Bool.toNat_true] at spent spends
        omega
    exact ⟨uncreated, step.uncreated uncreated⟩
  answered := by
    intro db first late final accepted again between start now accepts created run step key read
      readAgain early
    obtain ⟨_, intake, reads, _, took⟩ := accepts.taken created
    cases read.symm.trans reads
    have granted : AnsweredUntil first accepted.call.confirmationKey
        (accepted.call.confirmation start).expiresAt := by
      refine ⟨accepted.call.confirmation start, ?_, le_rfl⟩
      rw [took.claims, Table.find_put]
      exact if_pos rfl
    have lasts := run.preserves (AnsweredUntil · _ _) (fun _ _ _ step => step.answered) granted
    have live := confirmed_of_answered lasts early
    have uncreated : again.created = false := by
      cases holds : again.created with
      | false => rfl
      | true =>
        obtain ⟨_, _, takes, _, taken⟩ := step.taken holds
        cases readAgain.symm.trans takes
        have unanswered := taken.unanswered
        rw [key, live] at unanswered
        cases unanswered
    exact ⟨uncreated, step.uncreated uncreated⟩
  refused := by
    intro db next event error step failed
    cases step with
    | call call db =>
      have move := admitBusyQueue_moves hooks call db
      generalize (admitBusyQueue hooks call db).2 = next at move ⊢
      generalize (admitBusyQueue hooks call db).1 = answer at move failed
      cases failed
      cases move
      rfl

/-! ## A repeated call may still write -/

def quietBusy : BusyHooks Unit where
  queue :=
    { fenceUpdate := fun _ _ _ => none
      fenceInsert := fun _ _ => none
      fenceDelete := fun _ _ => none
      fenceIntakeUpdate := fun _ _ _ => none
      fenceIntakeInsert := fun _ _ => none
      fenceIntakeDelete := fun _ _ => none
      fenceIngress := fun _ _ _ => none
      fenceNotice := fun _ _ => none
      asyncAdmission := fun _ _ => .ok ()
      asyncDispatchHeld := fun _ _ => false
      beforeEnqueue := fun db _ => .ok db.rest
      bindRunning := fun db _ => .ok db.rest
      recordJobOrigin := fun db _ => .ok db.rest
      bindLateStart := fun db _ _ _ => .ok db.rest
      stageStartNotice := fun db _ _ => .ok db.rest
      newExecutionPrompt := fun row => .ok row.newCommandPrompt
      promoteNewReply := fun db _ _ _ => .ok db.rest
      recordRecovery := fun db _ _ _ _ _ => .ok db.rest
      sha256Hex := id
      jobJson := fun job => job.jobId
      requestEvidence := fun _ _ => ""
      ingressEvidence := fun row => row.ingressId }
  choiceJson choice := choice.prompt
  fenceChoice _ _ _ := none
  choiceFrozen _ _ := false
  fenceReceipt _ _ := none
  receiptIgnored _ _ := false
  canonicalOwner _ key := if key = "component-9" then some "busy-choice:c" else none

def shownChoice : BusyChoice := ⟨"c", 1, 7, some "thread", "continue", false, 0, 100⟩

/-- The click of the choice as the journal holds it. -/
def clickedRow : IngressRow where
  ingressId := "component-9"
  kind := .interaction
  eventId := some 9
  channelId := 7
  ownerUserId := 1
  payload := .object []
  state := .staged
  phase := "staged"
  targetThreadId := none
  ownerKind := none
  ownerId := none
  outcome := none
  createdAt := 5
  updatedAt := 5

def oneChoice : BusyDb Unit where
  archive := ⟨[], [], [⟨"thread", 3, 7⟩]⟩
  jobs := .empty
  intakes := .empty
  cancellations := .empty
  holds := .empty
  handoffs := .empty
  ingress := ⟨[clickedRow], List.nodup_singleton _⟩
  outbox := .empty
  deadTargets := []
  incidents := []
  runtime := none
  exactRouting := true
  rest := ⟨⟨[⟨shownChoice, none, some true⟩], List.nodup_singleton _⟩, .empty, .empty, ()⟩

def click (now : Rat) : BusyCall := ⟨shownChoice, "thread", true, "click", some now⟩

def clicked : BusyDb Unit := (admitBusyQueue quietBusy (click 10) oneChoice).2

/-- The second click finds no new intake, and marks the row of the journal anew. -/
theorem repeated_click_writes :
    (BusyEvent.mk (click 10) (admitBusyQueue quietBusy (click 10) oneChoice).1).created = true ∧
      (BusyEvent.mk (click 20) (admitBusyQueue quietBusy (click 20) clicked).1).created = false ∧
      (clicked.ingress.find "component-9").map (·.updatedAt) = some 10 ∧
      ((admitBusyQueue quietBusy (click 20) clicked).2.ingress.find "component-9").map
        (·.updatedAt) = some 20 := by
  decide +kernel

end CodexRemote.Verified.BusyQueue

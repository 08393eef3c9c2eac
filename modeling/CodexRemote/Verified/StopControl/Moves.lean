import CodexRemote.Verified.StopControl.System

/-! # What each operation does to the controls -/

namespace CodexRemote.Verified.StopControl

open Foundations Store Store.Stop Store.Stop.Control
open Verified.Stop

variable {σ : Type}

/-! ## Updates of the controls -/

/-- Only the controls differ. -/
def OnlyControls (db next : StopDb σ) : Prop :=
  ∃ controls, next = { db with rest := { db.rest with controls := controls } }

variable {db next : StopDb σ} {hooks : StopHooks σ} {control : StopControl}

theorem updateControls_only {condition : ControlRow → Bool}
    {assign : ControlRow → ControlRow} {keeps : ∀ row, (assign row).control = row.control}
    {changed : Nat} (update : updateControls db condition assign keeps = (changed, next)) :
    OnlyControls db next := by
  cases update
  exact ⟨_, rfl⟩

theorem updateControls_moves {middle : StopDb σ}
    {event : ControlEvent} {condition : ControlRow → Bool} {assign : ControlRow → ControlRow}
    {keeps : ∀ row, (assign row).control = row.control} {changed : Nat}
    (update : updateControls middle condition assign keeps = (changed, next))
    (same : middle.rest.controls = db.rest.controls)
    (moves : ∀ row ∈ db.rest.controls.rows, condition row = true →
      RowMove hooks db event row (assign row)) : ControlsMove hooks db event next := by
  cases update
  refine @ControlsMove.of_update σ hooks db _ event
    (fun row => condition row && !frozen middle row.operationId) assign
    (fun row => congrArg StopControl.operationId (keeps row)) (by rw [← same]) ?_
  intro row member chosen
  exact moves row member (Bool.and_eq_true _ _ ▸ chosen).1

/-- An update of one control that changes a row changes that of this control. -/
theorem updateControls_one {operation : String}
    {condition : ControlRow → Bool} {assign : ControlRow → ControlRow}
    {keeps : ∀ row, (assign row).control = row.control} {changed : Nat}
    (update : updateControls db condition assign keeps = (changed, next)) (some_ : ¬changed ≠ 1)
    (named : ∀ row, condition row = true → row.operationId = operation) :
    ∃ row, db.rest.controls.find operation = some row ∧ condition row = true ∧
      next.rest.controls.find operation = some (assign row) := by
  cases update
  obtain ⟨zero, _⟩ | ⟨_, row, found, chosen, after, _⟩ := @Table.update_keyed _ _ _ _
    db.rest.controls _ assign (fun row => congrArg StopControl.operationId (keeps row)) operation
    (fun row chosen => named row (Bool.and_eq_true _ _ ▸ chosen).1)
  · rw [zero] at some_
    exact absurd some_ (by decide)
  · exact ⟨row, found, (Bool.and_eq_true _ _ ▸ chosen).1, after⟩

theorem retained_row (kept : retained db control = true) :
    ∃ row, db.rest.controls.find control.operationId = some row ∧ row.control = control := by
  simp only [retained, Table.contains, List.any_eq_true, decide_eq_true_eq] at kept
  obtain ⟨row, member, own⟩ := kept
  refine ⟨row, Table.find_some_iff.2 ⟨member, ?_⟩, own⟩
  exact congrArg StopControl.operationId own

/-- A row under the id of a retained control is the row of this control. -/
theorem retained_own {row : ControlRow}
    (kept : retained db control = true) (member : row ∈ db.rest.controls.rows)
    (named : row.operationId = control.operationId) : row.control = control := by
  obtain ⟨other, found, own⟩ := retained_row kept
  have same := Table.eq_of_key member (Table.mem_of_find found)
    (named.trans (congrArg StopControl.operationId own).symm)
  rw [same, own]

/-! ## Claims -/

theorem validateOriginal_retained
    (valid : validateOriginal hooks db control = .ok ()) : retained db control = true := by
  simp only [validateOriginal] at valid
  obtain ⟨_, valid⟩ := guard_ok.1 valid
  obtain ⟨kept, _⟩ := guard_ok.1 valid
  simpa using kept

theorem validateClaim_ok
    {value : Except StoreError StopClaim} {owner : String × Int} {params : Json} {claim : StopClaim}
    (valid : validateClaim hooks db value owner params = .ok claim) :
    value = .ok claim ∧ validateOriginal hooks db claim.control = .ok () := by
  simp only [validateClaim] at valid
  obtain ⟨found, given, valid⟩ := bind_ok.1 valid
  obtain ⟨_, valid⟩ := guard_ok.1 valid
  obtain ⟨_, original, valid⟩ := bind_ok.1 valid
  obtain ⟨_, valid⟩ := guard_ok.1 valid
  cases valid
  exact ⟨given, original⟩

/-- A claim that succeeds is the first of its turn, on a control that is still accepted. -/
structure Claimed (hooks : StopHooks σ) (control : StopControl) (token : String)
    (db next : StopDb σ) : Prop where
  only : OnlyControls db next
  valid : validateOriginal hooks db control = .ok ()
  unclaimed : keyClaimed db control.key = false
  after : keyClaimed next control.key = true
  moves : ControlsMove hooks db (.claimed control (.ok (some ⟨control, token⟩))) next

theorem keyClaimed_iff {key : InterruptKey} : keyClaimed db key = true ↔
    ∃ row ∈ db.rest.controls.rows, row.control.key = key ∧ row.claimToken.isSome := by
  simp [keyClaimed, Table.contains]

theorem claim_spec {selectedBefore selectedAfter : Except StoreError Unit} {token : String}
    {found : StopClaim}
    (ran : claim hooks control selectedBefore selectedAfter token db = (.ok (some found), next)) :
    found = ⟨control, token⟩ ∧ Claimed hooks control token db next := by
  obtain ⟨after, result, same⟩ := commitWhen_ok ran
  rw [Option.isSome_some, if_pos rfl] at same
  subst same
  simp only [claimIn] at result
  obtain ⟨_, valid, result⟩ := bind_ok.1 result
  obtain ⟨_, _, result⟩ := bind_ok.1 result
  generalize update : updateControls db _ _ _ = answer at result
  obtain ⟨changed, middle⟩ := answer
  obtain ⟨_, result⟩ | ⟨one, result⟩ := ite_ok.1 result
  · cases result
  · obtain ⟨_, _, result⟩ := bind_ok.1 result
    obtain ⟨_, _, result⟩ := bind_ok.1 result
    cases result
    have kept := validateOriginal_retained valid
    have conditions : ∀ row : ControlRow, (row.operationId = control.operationId &&
        row.phase = .accepted && !keyClaimed db control.key) = true →
        row.operationId = control.operationId ∧ row.phase = .accepted ∧
          keyClaimed db control.key = false := by
      intro row chosen
      simpa [and_assoc] using chosen
    obtain ⟨row, found, chosen, later⟩ := updateControls_one update one
      (fun row chosen => (conditions row chosen).1)
    have own := retained_own kept (Table.mem_of_find found) (Table.find_key found)
    refine ⟨rfl, updateControls_only update, valid, (conditions row chosen).2.2, ?_, ?_⟩
    · refine keyClaimed_iff.2 ⟨_, Table.mem_of_find later, ?_, rfl⟩
      exact congrArg StopControl.key own
    · refine updateControls_moves update rfl ?_
      intro other member chosen
      obtain ⟨named, accepted, free⟩ := conditions other chosen
      exact .claim (retained_own kept member named) accepted free

/-! ## The wire -/

/-- A request that goes on the wire is the first of its claim. -/
structure Began (hooks : StopHooks σ) (found : StopClaim) (db next : StopDb σ) : Prop where
  only : OnlyControls db next
  valid : validateOriginal hooks db found.control = .ok ()
  row : ∃ row ∈ db.rest.controls.rows, row.control = found.control ∧
    row.claimToken = some found.token ∧ row.wireAttempt = none
  after : ∃ row ∈ next.rest.controls.rows, row.control = found.control ∧ row.wireAttempt.isSome
  moves : ControlsMove hooks db (.began (.ok found) (.ok ())) next

theorem beginWire_spec {value : Except StoreError StopClaim}
    {owner : String × Int} {request : WireRequest} {params : Json}
    (ran : beginWire hooks value owner request params db = (.ok (), next)) :
    ∃ found, value = .ok found ∧ Began hooks found db next := by
  have result := commit_ok ran
  simp only [beginWireIn] at result
  obtain ⟨found, valid, result⟩ := bind_ok.1 result
  obtain ⟨given, original⟩ := validateClaim_ok valid
  obtain ⟨_, result⟩ := guard_ok.1 result
  generalize update : updateControls db _ _ _ = answer at result
  obtain ⟨changed, middle⟩ := answer
  obtain ⟨one, result⟩ := guard_ok.1 result
  obtain ⟨_, _, result⟩ := bind_ok.1 result
  obtain ⟨_, result⟩ := guard_ok.1 result
  cases result
  have kept := validateOriginal_retained original
  have conditions : ∀ row : ControlRow, (row.operationId = found.control.operationId &&
      row.claimToken = some found.token && row.phase = .dispatching &&
      row.wireAttempt = none && row.wireId = none) = true →
      row.operationId = found.control.operationId ∧ row.claimToken = some found.token ∧
        row.wireAttempt = none := by
    intro row chosen
    simp only [Bool.and_eq_true, decide_eq_true_eq] at chosen
    exact ⟨chosen.1.1.1.1, chosen.1.1.1.2, chosen.1.2⟩
  obtain ⟨row, there, chosen, later⟩ := updateControls_one update one
    (fun row chosen => (conditions row chosen).1)
  have own := retained_own kept (Table.mem_of_find there) (Table.find_key there)
  refine ⟨found, given, updateControls_only update, original,
    ⟨row, Table.mem_of_find there, own, (conditions row chosen).2⟩,
    ⟨_, Table.mem_of_find later, own, rfl⟩, ?_⟩
  refine updateControls_moves update rfl ?_
  intro other member chosen
  obtain ⟨named, token, unsent⟩ := conditions other chosen
  exact .begin (retained_own kept member named) token unsent

theorem finishWire_spec {hooks : StopHooks σ} {value : Except StoreError StopClaim}
    {owner : String × Int} {request : WireRequest} {outcome : String} {db next : StopDb σ}
    {answer : Except StoreError Unit}
    (ran : finishWire value owner request outcome db = (answer, next)) :
    OnlyControls db next ∧ ControlsMove hooks db (.finished value outcome answer) next := by
  cases answer with
  | error error =>
    have same : next = db := commit_error ran
    rw [same]
    exact ⟨⟨_, rfl⟩, .of_same rfl⟩
  | ok done =>
    have result := commit_ok ran
    simp only [finishWireIn] at result
    obtain ⟨_, result⟩ := guard_ok.1 result
    obtain ⟨found, _, result⟩ := bind_ok.1 result
    obtain ⟨_, result⟩ := guard_ok.1 result
    generalize update : updateControls db _ _ _ = moved at result
    obtain ⟨changed, middle⟩ := moved
    obtain ⟨_, result⟩ := guard_ok.1 result
    cases result
    refine ⟨updateControls_only update, updateControls_moves update rfl ?_⟩
    intro row _ _
    refine .note _ _ ?_
    split
    · next settled => simp [settled]
    · next unsettled => split <;> simp [unsettled]

theorem recordError_spec {hooks : StopHooks σ} (found : StopClaim) (error : String)
    (db : StopDb σ) : OnlyControls db (recordError found error db) ∧
      ControlsMove hooks db (.erred found) (recordError found error db) := by
  generalize update : updateControls db (fun row => row.operationId = found.control.operationId &&
    row.claimToken = some found.token && row.phase = .dispatching)
    (fun row => { row with
      phase := .unknown
      lastError := String.ofList (error.toList.take 1000) }) (fun _ => rfl) = moved
  have answer : recordError found error db = moved.2 := congrArg Prod.snd update
  obtain ⟨changed, middle⟩ := moved
  rw [answer]
  refine ⟨updateControls_only update, updateControls_moves update rfl ?_⟩
  intro row _ chosen
  simp only [Bool.and_eq_true, decide_eq_true_eq] at chosen
  exact .note _ _ (by simp [chosen.2])

/-! ## Terminals of the resident -/

/-- Completions only accumulate, and the one of an owned turn is there. -/
theorem recordCompletion_ok (thread turn : String) (generation : Int) (payload : String)
    (db : StopDb σ) : ∃ completions,
      (recordCompletion thread turn generation payload db).2 =
        { db with rest := { db.rest with completions := completions } } ∧
      (∀ key, (db.rest.completions.find key).isSome → (completions.find key).isSome) ∧
      (ownedTurn db thread turn generation = true → (completions.find (thread, turn)).isSome) := by
  unfold recordCompletion
  split
  · refine ⟨_, rfl, ?_, ?_⟩
    · intro key there
      rw [Table.find_insertOrIgnore]
      split
      · rfl
      · exact there
    · intro _
      simp [Table.find_insertOrIgnore, CompletionRow.turn]
  · next unowned => exact ⟨db.rest.completions, rfl, fun _ there => there, fun owned => absurd owned unowned⟩

theorem recordTerminal_ok {hooks : StopHooks σ} (thread turn : String) (generation : Int)
    (resident payload : String) (db : StopDb σ) (recorded : Bool) :
    OnlyControls db (recordTerminal hooks thread turn generation resident payload db) ∧
      ControlsMove hooks db (.observed thread turn payload recorded)
        (recordTerminal hooks thread turn generation resident payload db) := by
  unfold recordTerminal
  split
  · exact ⟨⟨_, rfl⟩, .of_same rfl⟩
  · next value parsed =>
    split
    · exact ⟨⟨_, rfl⟩, .of_same rfl⟩
    · next notice =>
      generalize update : updateControls db _ _ _ = moved
      obtain ⟨changed, middle⟩ := moved
      refine ⟨updateControls_only update, updateControls_moves update rfl ?_⟩
      intro row _ chosen
      simp only [Bool.and_eq_true, decide_eq_true_eq] at chosen
      exact .observe chosen.1 parsed (by simpa using notice)

/-- What a notification leaves, besides the controls. -/
structure Observed (hooks : StopHooks σ) (thread turn payload : String) (recorded : Bool)
    (db next : StopDb σ) : Prop where
  jobs : next.jobs = db.jobs
  holds : next.holds = db.holds
  observed : ∀ key, (db.rest.completions.find key).isSome → (next.rest.completions.find key).isSome
  terminal : recorded = true → terminalObserved next thread turn = true
  moves : ControlsMove hooks db (.observed thread turn payload recorded) next

theorem ControlsMove.of_completions {event : ControlEvent} {completions : Table CompletionRow.turn}
    (moves : ControlsMove hooks { db with rest := { db.rest with completions := completions } }
      event next) : ControlsMove hooks db event next where
  moved id row found := by
    obtain ⟨later, there, move⟩ := moves.moved id row found
    refine ⟨later, there, ?_⟩
    cases move with
    | still => exact .still
    | claim own accepted free => exact .claim own accepted free
    | begin own token unsent => exact .begin own token unsent
    | note phase error settled => exact .note phase error settled
    | observe own parsed notice => exact .observe own parsed notice
    | recover own settles seen held => exact .recover own settles seen held
  fresh := moves.fresh

theorem recordForResident_spec {thread turn payload resident : String}
    {generation : Int} {answer : Except StoreError Bool}
    (ran : recordForResident hooks thread turn generation payload resident db = (answer, next)) :
    Observed hooks thread turn payload (answer.toBool &&
      recordsTerminal hooks db thread turn generation payload resident) db next := by
  have unchanged : ∀ recorded : Bool, (recorded = true → False) →
      Observed hooks thread turn payload recorded db db := by
    intro recorded none_
    exact ⟨rfl, rfl, fun _ there => there, fun yes => (none_ yes).elim, .of_same rfl⟩
  unfold recordForResident at ran
  split at ran
  · cases ran
    exact unchanged _ (by simp [Except.toBool])
  · cases answer with
    | error error =>
      have same : next = db := commit_error ran
      rw [same]
      exact unchanged _ (by simp [Except.toBool])
    | ok inserted =>
      have result := commit_ok ran
      simp only [recordForResidentIn] at result
      obtain ⟨allowed, admitted, result⟩ := bind_ok.1 result
      obtain ⟨denied, result⟩ | ⟨_, result⟩ := ite_ok.1 result
      · cases result
        exact unchanged _ (by
          simp only [Bool.not_eq_true'] at denied
          simp [recordsTerminal, admitted, denied, Except.toOption])
      · obtain ⟨others, _, result⟩ := bind_ok.1 result
        cases result
        generalize recorded : (Except.toBool _ &&
          recordsTerminal hooks db thread turn generation payload resident) = flag
        obtain ⟨completions, first, grown, owned⟩ :=
          recordCompletion_ok thread turn generation payload db
        rw [first]
        obtain ⟨⟨controls, second⟩, moves⟩ := @recordTerminal_ok σ hooks thread turn generation
          resident payload { db with rest := { db.rest with completions := completions } } flag
        rw [second] at moves ⊢
        have kept : ∀ key, (completions.find key).isSome → ∀ selected,
            ((completions.update selected (fun completion : CompletionRow =>
              { completion with residentOwner := some resident }) (fun _ => rfl)).find
                key).isSome :=
          fun key there selected => Table.isSome_find_update there
        refine ⟨rfl, rfl, fun key there => kept key (grown key there) _, ?_,
          ⟨moves.of_completions.moved, moves.of_completions.fresh⟩⟩
        intro yes
        refine kept _ (owned ?_) _
        rw [yes] at recorded
        simp only [recordsTerminal, Bool.and_eq_true] at recorded
        exact recorded.2.1.2

end CodexRemote.Verified.StopControl

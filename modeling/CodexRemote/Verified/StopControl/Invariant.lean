import CodexRemote.Verified.StopControl.Recovery

/-! # The invariant of the controls

Every step moves the controls one by one and keeps the holds.  The invariant follows from these
moves alone.
-/

namespace CodexRemote.Verified.StopControl

open Foundations Store Store.Stop Store.Stop.Control
open Verified.Stop Verified.Queue

variable {σ : Type}

/-! ## One step -/

/-- The rest of the program may have started or forgotten turns of this target. -/
def ControlEvent.touches (target : String) : ControlEvent → Prop
  | .other touched => target ∈ touched
  | _ => False

/-- All that a step can do to the controls, the holds and the turns -/
structure StepEffect (hooks : StopHooks σ) (db : StopDb σ) (event : ControlEvent)
    (next : StopDb σ) : Prop where
  moves : ControlsMove hooks db event next
  holds : HoldsKept db next
  observed : ∀ target turn, ¬event.touches target → terminalObserved db target turn = true →
    terminalObserved next target turn = true
  idle : ∀ target, ¬event.touches target → Idle db target → Idle next target

theorem StepEffect.of_same {hooks : StopHooks σ} {db next : StopDb σ} {event : ControlEvent}
    (same : next = db) : StepEffect hooks db event next := by
  subst same
  exact ⟨.of_same rfl, .refl next, fun _ _ _ seen => seen, fun _ _ idle => idle⟩

variable {db next : StopDb σ} {event : ControlEvent} {hooks : StopHooks σ} {later row : ControlRow}

theorem StepEffect.of_controls
    (only : OnlyControls db next) (moves : ControlsMove hooks db event next) :
    StepEffect hooks db event next := by
  obtain ⟨controls, rfl⟩ := only
  exact ⟨moves, .of_same rfl, fun _ _ _ seen => seen, fun _ _ idle => idle⟩

/-- A start is acknowledged for a row that was starting, so its target was not idle. -/
theorem idle_started {claimed : StoredQueueJob} {later : QueueRow → QueueRow}
    {target : String} (moved : ClaimedUpdate db next claimed later)
    (keeps : ∀ row, (later row).targetThreadId = row.targetThreadId) (idle : Idle db target) :
    Idle next target := by
  intro row member own
  obtain ⟨old, found, held, changed⟩ := moved.held
  by_cases same : row.jobId = claimed.jobId
  · have row_eq : row = later old := by
      have here := Table.find_of_mem member
      rw [same, changed] at here
      exact (Option.some.inj here).symm
    have starting := idle old (Table.mem_of_find found) (by rw [← own, row_eq, keeps])
    rw [held.state] at starting
    cases starting
  · have here := Table.find_of_mem member
    rw [moved.others row.jobId same] at here
    exact idle row (Table.mem_of_find here) own

theorem step_effect (step : ControlStep hooks db event next) : StepEffect hooks db event next := by
  cases step with
  | @accepted _ call resident generation answer ran =>
    by_cases committed : ∃ control, answer = .ok (some control)
    · obtain ⟨control, rfl⟩ := committed
      obtain ⟨accepted, fresh, _⟩ := acceptRunning_ok ran
      have writes := accepted.writes
      refine ⟨.of_append fresh.rows ⟨rfl, rfl, rfl, fresh.jobs⟩, writes.holds, ?_, ?_⟩
      · intro target turn _ seen
        rw [terminalObserved, writes.completions]
        exact seen
      · intro target _ idle row member
        rw [writes.jobs] at member
        exact idle row member
    · exact .of_same (acceptRunning_unchanged ran fun control same => committed ⟨control, same⟩)
  | @started _ claimed turn resident now answer ran =>
    cases answer with
    | error error => exact .of_same (commit_error ran)
    | ok answer =>
      obtain same | started := started_spec ran
      · exact .of_same same
      · obtain ⟨completions, controls⟩ := started.fresh
        obtain ⟨_, moved⟩ := started.moved
        refine ⟨?_, ?_, ?_, fun _ _ idle => idle_started moved (fun _ => rfl) idle⟩
        · obtain same | ⟨row, fresh, rows⟩ := controls
          · exact .of_same same
          · exact .of_append rows fresh
        · obtain ⟨_, only⟩ := started.rows
          exact .of_same (by rw [only])
        · intro target turn _ seen
          rw [terminalObserved, completions]
          exact seen
  | @claimed _ control selectedBefore selectedAfter token answer ran =>
    cases answer with
    | error error => exact .of_same (commitWhen_error ran)
    | ok answer =>
      cases answer with
      | none =>
        obtain ⟨after, _, same⟩ := commitWhen_ok ran
        exact .of_same same
      | some found =>
        obtain ⟨rfl, claimed⟩ := claim_spec ran
        exact .of_controls claimed.only claimed.moves
  | @began _ claim owner request params answer ran =>
    cases answer with
    | error error => exact .of_same (commit_error ran)
    | ok done =>
      obtain ⟨found, rfl, began⟩ := beginWire_spec ran
      exact .of_controls began.only began.moves
  | @finished _ claim owner request outcome answer ran =>
    obtain ⟨only, moves⟩ := @finishWire_spec _ hooks _ _ _ _ _ _ _ ran
    exact .of_controls only moves
  | erred claim error =>
    obtain ⟨only, moves⟩ := @recordError_spec _ hooks claim error db
    exact .of_controls only moves
  | @observed _ thread turn generation payload resident answer ran =>
    have spec := recordForResident_spec ran
    refine ⟨spec.moves, .of_same spec.holds, fun _ _ _ seen => spec.observed _ seen, ?_⟩
    intro target _ idle row member
    rw [spec.jobs] at member
    exact idle row member
  | @recovered _ control observed reader generation now answer ran =>
    cases answer with
    | error error => exact .of_same (commit_error ran)
    | ok cancelled =>
      have spec := recoverTerminal_spec ran
      refine ⟨spec.moves, spec.holds, ?_, fun _ _ idle row member => idle row (spec.jobs row member)⟩
      intro target turn _ seen
      rw [terminalObserved, spec.completions]
      exact seen
  | failed _ error => exact .of_same rfl
  | other touched beside =>
    exact ⟨.of_same beside.controls, beside.holds, fun target turn => beside.observed target turn,
      fun target => beside.idle target⟩

/-! ## Moves of one control -/

/-- A claim appears by a claim of the control itself, while no stop of its turn has one. -/
theorem RowMove.token (move : RowMove hooks db event row later)
    (claimed : later.claimToken.isSome) : row.claimToken.isSome ∨
      ∃ token, event = .claimed row.control (.ok (some ⟨row.control, token⟩)) ∧
        keyClaimed db row.control.key = false := by
  cases move with
  | @claim control token row own accepted free =>
    right
    subst own
    exact ⟨token, rfl, free⟩
  | still | begin _ _ _ | note _ _ _ | observe _ _ _ | recover _ _ _ _ => exact Or.inl claimed

theorem RowMove.claimed {hooks : StopHooks σ} {db : StopDb σ} {event : ControlEvent}
    {row later : ControlRow} (move : RowMove hooks db event row later)
    (claimed : row.claimToken.isSome) : later.claimToken.isSome := by
  cases move with
  | claim _ _ _ => rfl
  | still | begin _ _ _ | note _ _ _ | observe _ _ _ | recover _ _ _ _ => exact claimed

theorem RowMove.sent (move : RowMove hooks db event row later)
    (sent : row.wireAttempt.isSome) : later.wireAttempt.isSome := by
  cases move with
  | begin _ _ _ => rfl
  | still | claim _ _ _ | note _ _ _ | observe _ _ _ | recover _ _ _ _ => exact sent

/-- A request goes on the wire for a control that has its claim. -/
theorem RowMove.wire (move : RowMove hooks db event row later)
    (before : row.wireAttempt.isSome → row.claimToken.isSome) :
    later.wireAttempt.isSome → later.claimToken.isSome := by
  cases move with
  | begin _ token _ =>
    intro _
    show row.claimToken.isSome = true
    rw [token]
    rfl
  | claim _ _ _ => exact fun _ => rfl
  | still | note _ _ _ | observe _ _ _ | recover _ _ _ _ => exact before

/-- The terminal that a step has seen is of exactly this target and turn. -/
inductive TerminalSeen (hooks : StopHooks σ) (control : StopControl) : ControlEvent → Prop where
  | notice {payload : String} {value : Json} {recorded : Bool}
      (parsed : hooks.parse payload = some value)
      (notice : terminalNotice value control.target control.turn = true) :
      TerminalSeen hooks control (.observed control.target control.turn payload recorded)
  | history {observed : Json} {answer : Nat}
      (seen : verifyObservation hooks control observed = .ok ()) :
      TerminalSeen hooks control (.recovered control observed (.ok answer))

/-- What settles a control -/
theorem RowMove.settles (move : RowMove hooks db event row later)
    (open_ : row.phase ≠ .settled) (settled : later.phase = .settled) :
    TerminalSeen hooks row.control event ∧ row.control.canSettle = true ∧
      AllHeld hooks db row.control := by
  cases move with
  | still => exact absurd settled open_
  | claim _ _ _ => cases settled
  | begin _ _ _ => exact absurd settled open_
  | note phase error same => exact absurd (same.1 settled) open_
  | @observe thread turn payload resident generation recorded row value own parsed notice =>
    have target : row.control.target = thread := congrArg InterruptKey.target own
    have named : row.control.turn = turn := congrArg InterruptKey.turn own
    subst target named
    simp only at settled
    split at settled
    · next held =>
      rw [Bool.and_eq_true, List.all_eq_true] at held
      exact ⟨.notice parsed notice, held.1, held.2⟩
    · cases settled
  | recover own settles seen held =>
    subst own
    exact ⟨.history seen, settles, held⟩

/-- A settled control stays settled while its jobs stay held. -/
theorem RowMove.stays (move : RowMove hooks db event row later)
    (settled : row.phase = .settled) (settles : row.control.canSettle = true)
    (held : AllHeld hooks db row.control) : later.phase = .settled := by
  cases move with
  | claim _ accepted _ =>
    rw [accepted] at settled
    cases settled
  | note _ _ same => exact same.2 settled
  | observe _ _ _ =>
    show (if _ then ControlPhase.settled else _) = _
    rw [if_pos]
    rw [Bool.and_eq_true, List.all_eq_true]
    exact ⟨settles, held⟩
  | recover _ _ _ _ => rfl
  | still | begin _ _ _ => exact settled

/-! ## The invariant -/

theorem AllHeld.kept {hooks : StopHooks σ} {db next : StopDb σ} {control : StopControl}
    (kept : HoldsKept db next) (held : AllHeld hooks db control) : AllHeld hooks next control := by
  intro text named
  have before := held text named
  simp only [heldFor, Option.any_eq_true] at before ⊢
  obtain ⟨id, job, hold, found, own⟩ := before
  exact ⟨id, job, hold, kept id hold found, own⟩

structure Sound (hooks : StopHooks σ) (db : StopDb σ) : Prop where
  jobs : ∀ row ∈ db.rest.controls.rows, ∀ text ∈ row.control.jobs, ∃ job : StoredQueueJob,
    text = hooks.jobText job ∧ job.targetThreadId = row.control.target
  single : ∀ row ∈ db.rest.controls.rows, ∀ other ∈ db.rest.controls.rows,
    row.control.key = other.control.key → row.claimToken.isSome → other.claimToken.isSome →
    row.operationId = other.operationId
  wire : ∀ row ∈ db.rest.controls.rows, row.wireAttempt.isSome → row.claimToken.isSome
  settled : ∀ row ∈ db.rest.controls.rows, row.phase = .settled →
    row.control.canSettle = true ∧ AllHeld hooks db row.control

/-- A control after a step is fresh, or it is one from before the step that has moved. -/
theorem ControlsMove.origin (moves : ControlsMove hooks db event next)
    (member : later ∈ next.rest.controls.rows) : FreshControl hooks later ∨
      ∃ row ∈ db.rest.controls.rows, RowMove hooks db event row later := by
  have here := Table.find_of_mem member
  cases before : db.rest.controls.find later.operationId with
  | none => exact Or.inl (moves.fresh _ later here before)
  | some row =>
    obtain ⟨found, there, move⟩ := moves.moved _ row before
    rw [here] at there
    cases there
    exact Or.inr ⟨row, Table.mem_of_find before, move⟩

theorem RowMove.operationId (move : RowMove hooks db event row later) :
    later.operationId = row.operationId := congrArg StopControl.operationId move.control

theorem Sound.step {hooks : StopHooks σ} {db next : StopDb σ} {event : ControlEvent}
    (step : ControlStep hooks db event next) (sound : Sound hooks db) : Sound hooks next := by
  have effect := step_effect step
  constructor
  · intro later member text named
    obtain fresh | ⟨row, there, move⟩ := effect.moves.origin member
    · exact fresh.jobs text named
    · rw [move.control] at named ⊢
      exact sound.jobs row there text named
  · intro later member other there same claimed taken
    obtain fresh | ⟨row, old, move⟩ := effect.moves.origin member
    · rw [fresh.claimToken] at claimed
      cases claimed
    · obtain fresh | ⟨second, before, moved⟩ := effect.moves.origin there
      · rw [fresh.claimToken] at taken
        cases taken
      · rw [move.control, moved.control] at same
        rw [move.operationId, moved.operationId]
        -- two claims of one turn: both are old, or one is new while the other is there, or both
        -- are the one that this step has made
        obtain kept | ⟨token, made, free⟩ := move.token claimed
        · obtain earlier | ⟨_, _, free⟩ := moved.token taken
          · exact sound.single row old second before same kept earlier
          · rw [← same, keyClaimed_iff.2 ⟨row, old, rfl, kept⟩] at free
            cases free
        · obtain earlier | ⟨_, also, _⟩ := moved.token taken
          · rw [keyClaimed_iff.2 ⟨second, before, same.symm, earlier⟩] at free
            cases free
          · rw [made] at also
            injection also with control
            exact congrArg StopControl.operationId control
  · intro later member
    obtain fresh | ⟨row, there, move⟩ := effect.moves.origin member
    · intro sent
      rw [fresh.wireAttempt] at sent
      cases sent
    · exact move.wire (sound.wire row there)
  · intro later member settled
    obtain fresh | ⟨row, there, move⟩ := effect.moves.origin member
    · rw [fresh.phase] at settled
      cases settled
    · rw [move.control]
      by_cases before : row.phase = .settled
      · obtain ⟨settles, held⟩ := sound.settled row there before
        exact ⟨settles, held.kept effect.holds⟩
      · obtain ⟨_, settles, held⟩ := move.settles before settled
        exact ⟨settles, held.kept effect.holds⟩

end CodexRemote.Verified.StopControl

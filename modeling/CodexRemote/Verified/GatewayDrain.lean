import CodexRemote.Verified.AdmissionGate

/-! # What a drain loop knows when it returns

The events a loop has gone through since it closed the controls say what it knows: that
the gate was shut, then that it was drained, then what each read of the final inspection
found.  Nobody but a caller with the loop's own key can undo the first two.
-/

namespace CodexRemote.Verified.AdmissionGate

open Foundations CodexRemote.Runtime

/-! ## The events of one loop -/

/-- The loop of `task` closed the controls. -/
def closing (task : Nat) (key : DrainFenceKey) : Event :=
  ⟨.drain task .progress, .acted (.called (.closeControls key) .done)⟩

/-- The loop of `task` found the gate sealed for its key and no permit left. -/
def admitted (task : Nat) (key : DrainFenceKey) : Event :=
  ⟨.drain task .progress, .acted (.admitted key)⟩

/-- The loop of `task` returned `Drained`. -/
def drained (task : Nat) (sample : Sample) (key : DrainFenceKey) : Event :=
  ⟨.drain task (.sampled sample), .acted (.left (.drained key))⟩

/-- The loop of `task` closed or opened the controls, or tried to. -/
def calls (task : Nat) (event : Event) : Prop :=
  ∃ signal call reply, event = ⟨.drain task signal, .acted (.called call reply)⟩

/-- The read that the loop of `task` finished at an event. -/
def sampleOf (task : Nat) (event : Event) : Option Sample :=
  match event.action with
  | .drain other (.sampled sample) => if other = task then some sample else none
  | _ => none

def samplesOf (task : Nat) (events : List Event) : List Sample := events.filterMap (sampleOf task)

/-! ## Inspections -/

/-- The reads an inspection has finished when it stands at a given read. -/
inductive Reads : List Sample → Inspection → Prop where
  | durableBefore : Reads [] .durableBefore
  | liveBefore {durable : RestartReadinessSnapshot} (clear : durable.blockers = []) :
      Reads [.durable (.ok durable)] (.liveBefore durable)
  | durableAfter {durable : RestartReadinessSnapshot} {first : LiveDrainServer}
      {live : LiveObservation} (clear : durable.blockers = [])
      (observed : observe first durable = .ok live) (calm : live.blocker = none) :
      Reads [.durable (.ok durable), .live first] (.durableAfter durable live)
  | liveAfter {durable : RestartReadinessSnapshot} {first : LiveDrainServer}
      {live : LiveObservation} (clear : durable.blockers = [])
      (observed : observe first durable = .ok live) (calm : live.blocker = none) :
      Reads [.durable (.ok durable), .live first, .durable (.ok durable)]
        (.liveAfter durable live)

/-- The reads of an inspection that found the runtime ready: the durable state the same
twice and without a blocker, and so the server. -/
structure ReadyInspection (samples : List Sample) (durable : RestartReadinessSnapshot)
    (live : LiveObservation) : Prop where
  reads : ∃ first second, samples =
    [.durable (.ok durable), .live first, .durable (.ok durable), .live second] ∧
      observe first durable = .ok live ∧ observe second durable = .ok live
  clear : durable.blockers = []
  calm : live.blocker = none

theorem Reads.advance {samples : List Sample} {inspection next : Inspection} {sample : Sample}
    (reads : Reads samples inspection) (advanced : inspection.advance sample = some (.inl next)) :
    Reads (samples ++ [sample]) next := by
  cases reads with
  | durableBefore =>
    cases sample with
    | live server => cases advanced
    | durable snapshot =>
      cases snapshot with
      | error error => cases advanced
      | ok durable =>
        simp only [Inspection.advance] at advanced
        split at advanced
        · cases advanced
        · next clear =>
          cases advanced
          exact .liveBefore (List.head?_eq_none_iff.1 clear)
  | liveBefore clear =>
    cases sample with
    | durable snapshot => cases snapshot <;> cases advanced
    | live server =>
      simp only [Inspection.advance] at advanced
      split at advanced
      · cases advanced
      · next observed =>
        split at advanced
        · cases advanced
        · next calm =>
          cases advanced
          exact .durableAfter clear observed calm
  | durableAfter clear observed calm =>
    cases sample with
    | live server => cases advanced
    | durable snapshot =>
      cases snapshot with
      | error error => cases advanced
      | ok durable =>
        simp only [Inspection.advance] at advanced
        split at advanced
        · cases advanced
        · next same =>
          cases advanced
          rw [not_not] at same
          subst same
          exact .liveAfter clear observed calm
  | liveAfter clear observed calm =>
    cases sample with
    | durable snapshot => cases snapshot <;> cases advanced
    | live server =>
      simp only [Inspection.advance] at advanced
      split at advanced
      · cases advanced
      · split at advanced <;> cases advanced

theorem Reads.ready {samples : List Sample} {inspection : Inspection} {sample : Sample}
    (reads : Reads samples inspection)
    (advanced : inspection.advance sample = some (.inr (.ok .ready))) :
    ∃ durable live, ReadyInspection (samples ++ [sample]) durable live := by
  cases reads with
  | durableBefore =>
    cases sample with
    | live server => cases advanced
    | durable snapshot =>
      cases snapshot with
      | error error => cases advanced
      | ok durable =>
        simp only [Inspection.advance] at advanced
        split at advanced <;> cases advanced
  | liveBefore clear =>
    cases sample with
    | durable snapshot => cases snapshot <;> cases advanced
    | live server =>
      simp only [Inspection.advance] at advanced
      split at advanced
      · cases advanced
      · split at advanced <;> cases advanced
  | durableAfter clear observed calm =>
    cases sample with
    | live server => cases advanced
    | durable snapshot =>
      cases snapshot with
      | error error => cases advanced
      | ok durable =>
        simp only [Inspection.advance] at advanced
        split at advanced <;> cases advanced
  | @liveAfter durable first live clear observed calm =>
    cases sample with
    | durable snapshot => cases snapshot <;> cases advanced
    | live second =>
      simp only [Inspection.advance] at advanced
      split at advanced
      · cases advanced
      · next again =>
        split at advanced
        · cases advanced
        · next same =>
          rw [not_not] at same
          subst same
          exact ⟨durable, live, ⟨first, second, rfl, observed, again⟩, clear, calm⟩

/-! ## What one advance of the loop does -/

def isFinal : DrainPhase → Bool
  | .finalAdmission | .finalInspecting _ => true
  | _ => false

/-- The advances that lead to `Drained`, and all others. -/
inductive Turn (loop : DrainLoop) (shared next : SharedGate) :
    DrainSignal → DrainAct → DrainLoop → Prop where
  | elsewhere {signal : DrainSignal} {act : DrainAct} {loop' : DrainLoop}
      (own : loop'.key = loop.key) (outside : isFinal loop'.phase = false)
      (undrained : ∀ key, act ≠ .left (.drained key)) : Turn loop shared next signal act loop'
  | closed (called : shared.call (.closeControls loop.key) = some (.done, next)) :
      Turn loop shared next .progress (.called (.closeControls loop.key) .done)
        (loop.goto .finalAdmission)
  | waiting (here : loop.phase = .finalAdmission) : Turn loop shared next .progress .moved loop
  | admitted (here : loop.phase = .finalAdmission) :
      Turn loop shared next .progress (.admitted loop.key)
        (loop.goto (.finalInspecting .durableBefore))
  | sampled {inspection further : Inspection} {sample : Sample}
      (here : loop.phase = .finalInspecting inspection)
      (advanced : inspection.advance sample = some (.inl further)) :
      Turn loop shared next (.sampled sample) .moved (loop.goto (.finalInspecting further))
  | ready {inspection : Inspection} {sample : Sample}
      (here : loop.phase = .finalInspecting inspection)
      (advanced : inspection.advance sample = some (.inr (.ok .ready))) :
      Turn loop shared next (.sampled sample) (.left (.drained loop.key))
        (loop.goto (.returned (.drained loop.key)))

variable {key : DrainFenceKey} {loop : DrainLoop} {events : List Event} {task : Nat}
  {next process : Process}

theorem look_admitted {loop' : DrainLoop} {shared : SharedGate} {next failed : DrainPhase}
    (looked : loop.look shared next failed = (.admitted key, loop')) :
    key = loop.key ∧ shared.gate.isDrainedFor key := by
  unfold DrainLoop.look at looked
  split at looked
  · cases looked
  · next found =>
    cases looked
    refine ⟨rfl, ?_⟩
    unfold GateState.waitDrained at found
    split at found
    · cases found
    · next own =>
      split at found
      · next none =>
        rw [not_not] at own
        simp [GateState.isDrainedFor, none, own]
      · cases found
  · cases looked

theorem advance_turn {loop' : DrainLoop} {shared next : SharedGate} {signal : DrainSignal}
    {act : DrainAct} (advanced : loop.advance shared signal = some (act, loop', next)) :
    Turn loop shared next signal act loop' := by
  cases signal with
  | shutdown =>
    simp only [DrainLoop.advance] at advanced
    split at advanced
    · cases advanced
      exact .elsewhere rfl rfl (by simp [DrainLoop.leave])
    · cases advanced
  | timedOut =>
    simp only [DrainLoop.advance] at advanced
    split at advanced
    · next here =>
      cases advanced
      exact .elsewhere rfl (by rw [here]; rfl) (by simp)
    · cases advanced
      exact .elsewhere rfl rfl (by simp)
    · cases advanced
  | sampled sample =>
    simp only [DrainLoop.advance] at advanced
    split at advanced
    · obtain ⟨result, _, same⟩ := Option.map_eq_some_iff.1 advanced
      cases result with
      | inl further =>
        cases same
        exact .elsewhere rfl rfl (by simp)
      | inr result =>
        cases same
        unfold DrainLoop.inspected
        split <;> exact .elsewhere rfl rfl (by simp)
    · next here =>
      obtain ⟨result, found, same⟩ := Option.map_eq_some_iff.1 advanced
      cases result with
      | inl further =>
        cases same
        exact .sampled here found
      | inr result =>
        cases same
        unfold DrainLoop.finallyInspected
        split
        · exact .elsewhere rfl rfl (by simp)
        · exact .elsewhere rfl rfl (by simp)
        · exact .ready here found
    · cases advanced
  | progress =>
    simp only [DrainLoop.advance] at advanced
    split at advanced
    · next here =>
      cases advanced
      unfold DrainLoop.look
      split
      · exact .elsewhere rfl (by rw [here]; rfl) (by simp)
      · exact .elsewhere rfl rfl (by simp)
      · exact .elsewhere rfl rfl (by simp)
    · next here =>
      cases advanced
      unfold DrainLoop.look
      split
      · exact .waiting here
      · exact .admitted here
      · exact .elsewhere rfl rfl (by simp)
    · obtain ⟨⟨reply, after⟩, called, same⟩ := Option.map_eq_some_iff.1 advanced
      cases same
      by_cases done : reply = .done
      · subst done
        exact .closed called
      · simp only [done, if_false]
        exact .elsewhere rfl rfl (by simp)
    · obtain ⟨⟨reply, after⟩, called, same⟩ := Option.map_eq_some_iff.1 advanced
      cases same
      refine .elsewhere rfl ?_ (by simp)
      split <;> rfl
    · cases advanced
      exact .elsewhere rfl rfl (by simp)
    · cases advanced

/-! ## What the events say -/

/-- What is known of a loop at a phase, by the events so far.  The closing is its last call. -/
def Known (task : Nat) (key : DrainFenceKey) (events : List Event) : DrainPhase → Prop
  | .finalAdmission => ∃ early mid, events = early ++ closing task key :: mid ∧
      ∀ event ∈ mid, ¬calls task event
  | .finalInspecting inspection => ∃ early mid late,
      events = (early ++ closing task key :: mid) ++ admitted task key :: late ∧
        (∀ event ∈ mid ++ admitted task key :: late, ¬calls task event) ∧
        Reads (samplesOf task late) inspection
  | _ => True

theorem known_outside
    {phase : DrainPhase} (outside : isFinal phase = false) : Known task key events phase := by
  cases phase with
  | finalAdmission | finalInspecting => cases outside
  | _ => trivial

theorem samplesOf_snoc (task : Nat) (events : List Event) (event : Event) :
    samplesOf task (events ++ [event]) = samplesOf task events ++ (sampleOf task event).toList := by
  unfold samplesOf
  rw [List.filterMap_append]
  cases found : sampleOf task event <;> simp [found]

/-- One more event that is not a call of the loop -/
theorem uncalled_snoc {event : Event}
    (uncalled : ∀ other ∈ events, ¬calls task other) (silent : ¬calls task event) :
    ∀ other ∈ events ++ [event], ¬calls task other := by
  intro other member
  obtain before | now := List.mem_append.1 member
  · exact uncalled other before
  · rw [List.mem_singleton.1 now]
    exact silent

/-- An event that is no call of the loop and finishes no read of it leaves what is known of it. -/
theorem Known.snoc {task : Nat} {key : DrainFenceKey} {events : List Event} {phase : DrainPhase}
    (known : Known task key events phase) {event : Event} (uncalled : ¬calls task event)
    (silent : sampleOf task event = none) : Known task key (events ++ [event]) phase := by
  cases phase with
  | finalAdmission =>
    obtain ⟨early, mid, rfl, kept⟩ := known
    exact ⟨early, mid ++ [event], by simp, uncalled_snoc kept uncalled⟩
  | finalInspecting inspection =>
    obtain ⟨early, mid, late, rfl, kept, reads⟩ := known
    refine ⟨early, mid, late ++ [event], by simp, ?_, ?_⟩
    · rw [← List.cons_append, ← List.append_assoc]
      exact uncalled_snoc kept uncalled
    · rw [samplesOf_snoc, silent, Option.toList_none, List.append_nil]
      exact reads
  | _ => trivial

/-- An act that is no call, by the loop of `task` -/
theorem not_calls_of_act {signal : DrainSignal} {act : DrainAct}
    (other : ∀ call reply, act ≠ .called call reply) :
    ¬calls task ⟨.drain task signal, .acted act⟩ := by
  rintro ⟨signal, call, reply, same⟩
  cases same
  exact other call reply rfl

/-- Every loop is known by its events. -/
def AllKnown (events : List Event) (process : Process) : Prop :=
  ∀ task loop, process.drains[task]? = some loop → Known task loop.key events loop.phase

theorem Turn.known {loop' : DrainLoop} {shared next : SharedGate}
    {signal : DrainSignal} {act : DrainAct}
    (turn : Turn loop shared next signal act loop') (known : Known task loop.key events loop.phase) :
    Known task loop'.key (events ++ [⟨.drain task signal, .acted act⟩]) loop'.phase := by
  cases turn with
  | elsewhere own outside => exact known_outside outside
  | closed called => exact ⟨events, [], rfl, by simp⟩
  | waiting here => exact known.snoc (not_calls_of_act (by simp)) rfl
  | admitted here =>
    rw [here] at known
    obtain ⟨early, mid, rfl, kept⟩ := known
    exact ⟨early, mid, [], rfl, uncalled_snoc kept (not_calls_of_act (by simp)), .durableBefore⟩
  | @sampled inspection further sample here advanced =>
    rw [here] at known
    obtain ⟨early, mid, late, rfl, kept, reads⟩ := known
    refine ⟨early, mid, late ++ [_], List.append_assoc _ _ _, ?_, ?_⟩
    · rw [← List.cons_append, ← List.append_assoc]
      exact uncalled_snoc kept (not_calls_of_act (by simp))
    · have read : sampleOf task ⟨.drain task (.sampled sample), .acted .moved⟩ = some sample :=
        if_pos rfl
      rw [samplesOf_snoc, read]
      exact reads.advance advanced
  | ready => trivial

/-- Only a drain step moves a loop; another step can at most start one. -/
theorem step_drains {event : Event} (step : Step process event next)
    (still : ∀ task signal, event.action ≠ .drain task signal)
    (found : next.drains[task]? = some loop) :
    process.drains[task]? = some loop ∨ ∃ key, loop = .start key := by
  obtain ⟨action, shown⟩ := event
  cases action with
  | drain task signal => exact absurd rfl (still task signal)
  | startDrain key =>
    cases step
    rw [List.getElem?_append] at found
    split at found
    · exact .inl found
    · rw [List.getElem?_singleton] at found
      split at found
      · cases found
        exact .inr ⟨key, rfl⟩
      · cases found
  | call call =>
    simp only [Step, Process.perform] at step
    split at step
    · cases step
    · obtain ⟨_, _, same⟩ := Option.map_eq_some_iff.1 step
      cases same
      exact .inl found
  | endAction | cloneHandle | dropHandle =>
    simp only [Step, Process.perform] at step
    split at step
    · cases step
    · cases step
      exact .inl found

theorem step_allKnown {event : Event}
    (step : Step process event next) (known : AllKnown events process) :
    AllKnown (events ++ [event]) next := by
  intro task loop found
  by_cases moving : ∃ task signal, event.action = .drain task signal
  · obtain ⟨mover, signal, moved⟩ := moving
    obtain ⟨action, shown⟩ := event
    cases moved
    obtain ⟨before, act, after, there, rfl, _, advanced, drains⟩ := drain_step step
    rw [drains] at found
    -- what another loop does is no call of this one and no read of it
    by_cases own : mover = task
    · subst own
      rw [List.getElem?_set_self (List.getElem?_eq_some_iff.1 there).1] at found
      cases found
      exact (advance_turn advanced).known (known mover before there)
    · rw [List.getElem?_set_ne own] at found
      refine (known task loop found).snoc ?_ ?_
      · rintro ⟨_, _, _, same⟩
        cases same
        exact own rfl
      · cases signal with
        | sampled sample => exact if_neg own
        | _ => rfl
  · have still : ∀ task signal, event.action ≠ .drain task signal :=
      fun task signal same => moving ⟨task, signal, same⟩
    cases step_drains step still found with
    | inl there =>
      refine (known task loop there).snoc ?_ ?_
      · rintro ⟨_, _, _, rfl⟩
        exact still _ _ rfl
      · unfold sampleOf
        split
        · next same => exact absurd same (still _ _)
        · rfl
    | inr fresh =>
      obtain ⟨key, rfl⟩ := fresh
      trivial

theorem run_allKnown (run : Run Step Process.initial events process) : AllKnown events process := by
  refine run.records AllKnown (fun _ _ _ _ _ step known => step_allKnown step known) ?_
  intro task loop found
  cases found

/-! ## The gate behind the events -/

theorem closing_shut (step : Step process (closing task key) next) : Shut key next.shared := by
  obtain ⟨loop, act, loop', _, same, _, advanced, _⟩ := drain_step step
  cases same
  obtain ⟨call, reply, same, _, called⟩ | ⟨silent, _⟩ := advance_effect advanced
  · cases same
    simp only [SharedGate.call, Option.some.injEq] at called
    obtain ⟨gate, ok, _, made⟩ | ⟨undone, _⟩ := settle_spec called
    · obtain ⟨own, rfl⟩ := closeControls_spec ok
      rw [made]
      exact ⟨own, rfl⟩
    · exact absurd rfl undone
  · exact absurd rfl (silent _ _)

theorem admitted_drained
    (step : Step process (admitted task key) next) : process.shared.gate.isDrainedFor key := by
  obtain ⟨loop, act, loop', _, same, _, advanced, _⟩ := drain_step step
  cases same
  simp only [DrainLoop.advance] at advanced
  have drained : ∀ admitted failed, (loop.look process.shared admitted failed).1 = .admitted key →
      process.shared.gate.isDrainedFor key := by
    intro admitted failed looked
    obtain ⟨rfl, drained⟩ := look_admitted (Prod.ext looked rfl)
    exact drained
  -- the loop looks at the gate before the first inspection and before the final one
  split at advanced
  · exact drained _ _ (congrArg Prod.fst (Option.some.inj advanced))
  · exact drained _ _ (congrArg Prod.fst (Option.some.inj advanced))
  · obtain ⟨_, _, same⟩ := Option.map_eq_some_iff.1 advanced
    cases same
  · obtain ⟨_, _, same⟩ := Option.map_eq_some_iff.1 advanced
    cases same
  · cases advanced
  · cases advanced

/-- From the look that found the gate drained, with controls closed before it, nothing
enters while the key is not used to reopen. -/
theorem drained_since {after : Process} {early mid late : List Event}
    (run : Run Step process ((early ++ closing task key :: mid) ++ admitted task key :: late) after)
    (counted : Counted process)
    (kept : ∀ event ∈ mid ++ admitted task key :: late, ¬reopens key event) :
    after.shared.gate.isDrainedFor key ∧ after.shared.gate.controlsOpen = false ∧
      after.shared.permits = [] := by
  obtain ⟨looking, looked, front, look, back⟩ := run.split_at
  obtain ⟨open', shut, opening, close, between⟩ := front.split_at
  have countedOpen := opening.preserves Counted (fun _ _ _ => step_counted) counted
  have countedShut := step_counted close countedOpen
  have countedLooking := between.preserves Counted (fun _ _ _ => step_counted) countedShut
  have shutLooking : Shut key looking.shared := by
    refine between.preserves_of (fun now => Shut key now.shared) (¬reopens key ·)
      (fun _ _ _ calm step shut => step_shut step shut calm) ?_ (closing_shut close)
    exact fun event member => kept event (List.mem_append_left _ member)
  -- the look counts the permits, so none is live from then on
  have none : looking.shared.permits = [] := by
    have drained := admitted_drained look
    simp only [GateState.isDrainedFor, Bool.and_eq_true, beq_iff_eq] at drained
    rw [countedLooking.active] at drained
    exact List.length_eq_zero_iff.1 drained.1
  have rest : Run Step looking (admitted task key :: late) after := .cons look back
  obtain ⟨shut, gone, _⟩ := run_silent rest shutLooking none fun event member =>
    kept event (List.mem_append_right _ member)
  have countedAfter := rest.preserves Counted (fun _ _ _ => step_counted) countedLooking
  refine ⟨?_, shut.2, gone⟩
  simp [GateState.isDrainedFor, countedAfter.active, gone, shut.1]

/-- The events that lead to the return of `Drained`. -/
theorem drained_events {sample : Sample} (run : Run Step Process.initial events process)
    (step : Step process (drained task sample key) next) :
    ∃ early mid late, events ++ [drained task sample key] =
        (early ++ closing task key :: mid) ++ admitted task key :: late ∧
      (∀ event ∈ mid ++ admitted task key :: late, ¬calls task event) ∧
      ∃ durable live, ReadyInspection (samplesOf task late) durable live := by
  obtain ⟨loop, act, loop', there, same, _, advanced, _⟩ := drain_step step
  cases same
  have known := run_allKnown run task loop there
  have turn := advance_turn advanced
  cases turn with
  | elsewhere _ _ undrained => exact absurd rfl (undrained key)
  | @ready inspection _ here ready =>
    rw [here] at known
    obtain ⟨early, mid, late, rfl, kept, reads⟩ := known
    refine ⟨early, mid, late ++ [drained task sample loop.key], List.append_assoc _ _ _, ?_, ?_⟩
    · rw [← List.cons_append, ← List.append_assoc]
      exact uncalled_snoc kept (not_calls_of_act (by simp))
    · have read : sampleOf task (drained task sample loop.key) = some sample := if_pos rfl
      rw [samplesOf_snoc, read]
      exact reads.ready ready

/-! ## The gate and the drain -/

/-- The admission gate and its drain loops, in every run.  The last part is about the last
closing of the loop, after which it makes no call of the gate.  It leaves the gate to the
callers that hold the loop's key: what they reopen after that closing, the loop does not see. -/
theorem admission_gate_drain {process : Process} {events : List Event}
    (run : Run Step Process.initial events process) :
    process.shared.gate.active = process.shared.permits.length ∧
    (∀ key later next, process.shared.gate.isDrainedFor key →
      process.shared.gate.controlsOpen = false → Run Step process later next →
      (∀ event ∈ later, ¬reopens key event) →
      next.shared.permits = [] ∧ next.shared.issued = process.shared.issued) ∧
    (∀ event next key other, Step process event next →
      process.shared.gate.sealedFor = some key → event.key = some other → other ≠ key →
      next.shared.gate = process.shared.gate) ∧
    (process.shared.committing.isSome → process.shared.gate.sealedFor = none) ∧
    (∀ task sample key next, Step process (drained task sample key) next →
      ∃ early mid late, events ++ [drained task sample key] =
          (early ++ closing task key :: mid) ++ admitted task key :: late ∧
        (∀ event ∈ mid ++ admitted task key :: late, ¬calls task event) ∧
        (∃ durable live, ReadyInspection (samplesOf task late) durable live) ∧
        ((∀ event ∈ mid ++ admitted task key :: late, ¬reopens key event) →
          next.shared.gate.isDrainedFor key ∧ next.shared.gate.controlsOpen = false ∧
            next.shared.permits = [])) := by
  have counted := run_counted run
  refine ⟨counted.active, ?_, ?_, counted.unsealed, ?_⟩
  · intro key later next drained closed rest kept
    simp only [GateState.isDrainedFor, Bool.and_eq_true, beq_iff_eq] at drained
    have none : process.shared.permits = [] := by
      rw [counted.active] at drained
      exact List.length_eq_zero_iff.1 drained.1
    exact (run_silent rest ⟨drained.2, closed⟩ none kept).2
  · intro event next key other step own carried different
    exact other_key_keeps step own carried different
  · intro task sample key next step
    obtain ⟨early, mid, late, same, last, ready⟩ := drained_events run step
    refine ⟨early, mid, late, same, last, ready, fun kept => ?_⟩
    -- the return is the last event of the run that the drained gate is read from
    have whole := run.append (Run.single step)
    rw [same] at whole
    exact drained_since whole counted_initial kept

/-! ## A run to `Drained`, and one that reopens behind it -/

def exampleKey : DrainFenceKey := ⟨"runtime", "7|1", "nonce", by decide⟩

def quietServer : LiveDrainServer where
  lifecycle := ⟨1, true, false, false, some 7⟩
  activeTurn _ := .ok none
  hasUnsettledRequests := .ok false

def quietStore : Sample := .durable (.ok ⟨[], [], []⟩)

/-- One loop up to the last read of its final inspection. -/
def drainEvents : List Event :=
  [⟨.call (.sealGate exampleKey), .replied .done⟩, ⟨.startDrain exampleKey, .nothing⟩,
    admitted 0 exampleKey] ++
  [quietStore, .live quietServer, quietStore, .live quietServer].map
    (fun sample => ⟨.drain 0 (.sampled sample), .acted .moved⟩) ++
  [closing 0 exampleKey, admitted 0 exampleKey] ++
  [quietStore, .live quietServer, quietStore].map
    (fun sample => ⟨.drain 0 (.sampled sample), .acted .moved⟩)

/-- The process after these events. -/
def beforeReturn : Process :=
  ⟨{ SharedGate.initial with gate := ⟨0, some exampleKey, false⟩ },
    [⟨exampleKey, .finalInspecting (.liveAfter ⟨[], [], []⟩ ⟨quietServer.lifecycle, false, []⟩),
      "resident app-server has not been inspected"⟩]⟩

theorem drainEvents_run : Run Step Process.initial drainEvents beforeReturn :=
  .cons rfl (.cons rfl (.cons rfl (.cons rfl (.cons rfl (.cons rfl (.cons rfl (.cons rfl
    (.cons rfl (.cons rfl (.cons rfl (.cons rfl (.nil _))))))))))))

/-- Another holder of the key opens the controls before the last read, and a control
request enters. -/
def reopenEvents : List Event :=
  [⟨.call (.openControls exampleKey), .replied .done⟩,
    ⟨.call (.tryEnter true), .replied (.permit 0 true)⟩]

def reopened : Process :=
  { beforeReturn with shared := ⟨⟨1, some exampleKey, true⟩, 1, [0], 1, none⟩ }

/-- `Drained` is returned although controls are open and a permit is live. -/
theorem drained_behind_open_controls :
    ¬∀ (events : List Event) (process next : Process) (task : Nat) (sample : Sample)
      (key : DrainFenceKey), Run Step Process.initial events process →
      Step process (drained task sample key) next →
      next.shared.gate.controlsOpen = false ∧ next.shared.gate.active = 0 := by
  intro closed
  have run : Run Step Process.initial (drainEvents ++ reopenEvents) reopened :=
    drainEvents_run.append (.cons rfl (.cons rfl (.nil _)))
  have impossible := closed _ reopened _ 0 (.live quietServer) exampleKey run rfl
  exact absurd impossible.2 (by decide)

instance decidableReopens (key : DrainFenceKey) : DecidablePred (reopens key) :=
  fun event => inferInstanceAs (Decidable (event.made = _ ∨ event.made = _))

theorem drained_with_controls_closed :
    beforeReturn.shared.gate.active = beforeReturn.shared.permits.length ∧
      ∃ early mid late next, drainEvents ++ [drained 0 (.live quietServer) exampleKey] =
          (early ++ closing 0 exampleKey :: mid) ++ admitted 0 exampleKey :: late ∧
        (∀ event ∈ mid ++ admitted 0 exampleKey :: late, ¬calls 0 event) ∧
        (∃ durable live, ReadyInspection (samplesOf 0 late) durable live) ∧
        Step beforeReturn (drained 0 (.live quietServer) exampleKey) next ∧
        next.shared.gate.isDrainedFor exampleKey ∧ next.shared.gate.controlsOpen = false ∧
        next.shared.permits = [] := by
  obtain ⟨active, _, _, _, returned⟩ := admission_gate_drain drainEvents_run
  obtain ⟨early, mid, late, same, last, ready, shut⟩ :=
    returned 0 (.live quietServer) exampleKey _ rfl
  -- no event of the whole run uses the key to reopen
  have kept : ∀ event ∈ drainEvents ++ [drained 0 (.live quietServer) exampleKey],
      ¬reopens exampleKey event := by decide
  refine ⟨active, early, mid, late, _, same, last, ready, rfl, shut fun event member => ?_⟩
  refine kept event ?_
  rw [same, List.append_assoc, List.cons_append]
  exact List.mem_append_right _ (List.mem_cons_of_mem _ member)

end CodexRemote.Verified.AdmissionGate

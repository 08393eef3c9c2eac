import CodexRemote.Foundations.Runs
import CodexRemote.Runtime.GatewayDrain

/-! # The admission gate under any interleaving

Tasks make gate calls, run actions under the lock, and run drain loops, each with its
own key.  A lock section is one step; it waits while an action holds the lock.  What a
drain loop does without the lock, such as a read of its inspection, does not wait.
-/

namespace CodexRemote.Verified.AdmissionGate

open Foundations CodexRemote.Runtime

/-! ## The system -/

structure Process where
  shared : SharedGate
  drains : List DrainLoop
deriving DecidableEq

def Process.initial : Process := ⟨.initial, []⟩

inductive Action where
  | call (call : GateCall)
  | endAction
  | cloneHandle
  | dropHandle
  | startDrain (key : DrainFenceKey)
  | drain (task : Nat) (signal : DrainSignal)

/-- What a step showed: the reply to a call, the act of a drain loop, or nothing. -/
inductive Shown where
  | nothing
  | replied (reply : GateReply)
  | acted (act : DrainAct)

namespace Process

def perform (process : Process) : Action → Option (Shown × Process)
  | .call call =>
    if process.shared.committing.isSome then none
    else (process.shared.call call).map fun (reply, shared) =>
      (.replied reply, { process with shared })
  | .endAction =>
    if process.shared.committing.isNone then none
    else some (.nothing, { process with shared := { process.shared with committing := none } })
  | .cloneHandle =>
    if process.shared.handles = 0 ||
        i64Max < process.shared.handles + process.shared.permits.length then none
    else some (.nothing, { process with
      shared := { process.shared with handles := process.shared.handles + 1 } })
  | .dropHandle =>
    if process.shared.handles = 0 then none
    else some (.nothing, { process with
      shared := { process.shared with handles := process.shared.handles - 1 } })
  | .startDrain key => some (.nothing, { process with drains := process.drains ++ [.start key] })
  | .drain task signal =>
    process.drains[task]?.bind fun loop =>
      if process.shared.committing.isSome && loop.locks signal then none
      else (loop.advance process.shared signal).map fun (act, loop, shared) =>
        (.acted act, ⟨shared, process.drains.set task loop⟩)

end Process

structure Event where
  action : Action
  shown : Shown

def Step (process : Process) (event : Event) (next : Process) : Prop :=
  process.perform event.action = some (event.shown, next)

/-- The gate call of a step, made by a task or by a drain loop. -/
def Event.made (event : Event) : Option GateCall :=
  match event.action, event.shown with
  | .call call, _ => some call
  | .drain _ _, .acted (.called call _) => some call
  | _, _ => none

/-- The calls that can undo a drain for `key`. -/
def reopens (key : DrainFenceKey) (event : Event) : Prop :=
  event.made = some (.openControls key) ∨ event.made = some (.release key)

/-! ## What a lock section does to the gate -/

/-- The effect of a call on the gate and on the permits that share it. -/
inductive Effect (call : GateCall) (shared next : SharedGate) : Prop where
  | refused (same : next = shared)
  | entered (control : Bool) (entering : call = .tryEnter control)
      (admitted : shared.gate.sealedFor.isSome → control && shared.gate.controlsOpen)
      (counted : next.gate = { shared.gate with active := shared.gate.active + 1 })
      (references : shared.handles + shared.permits.length ≤ i64Max)
      (issued : next.permits = shared.issued :: shared.permits)
      (named : next.issued = shared.issued + 1)
      (others : next.handles = shared.handles ∧ next.committing = shared.committing)
  | cloned (permit : Nat) (cloning : call = .clone permit) (live : permit ∈ shared.permits)
      (counted : next.gate = shared.gate.clonePermit)
      (references : shared.handles + shared.permits.length ≤ i64Max)
      (issued : next.permits = shared.issued :: shared.permits)
      (named : next.issued = shared.issued + 1)
      (others : next.handles = shared.handles ∧ next.committing = shared.committing)
  | dropped (permit : Nat) (dropping : call = .drop permit) (live : permit ∈ shared.permits)
      (made : next = { shared with
        gate := shared.gate.dropPermit, permits := shared.permits.erase permit })
  | sealedGate (key : DrainFenceKey) (sealing : call = .sealGate key)
      (unsealed : shared.gate.sealedFor = none)
      (made : next = { shared with
        gate := { shared.gate with sealedFor := some key, controlsOpen := true } })
  | closed (key : DrainFenceKey) (closing : call = .closeControls key)
      (own : shared.gate.sealedFor = some key)
      (made : next = { shared with gate := { shared.gate with controlsOpen := false } })
  | opened (key : DrainFenceKey) (opening : call = .openControls key)
      (own : shared.gate.sealedFor = some key)
      (made : next = { shared with gate := { shared.gate with controlsOpen := true } })
  | released (key : DrainFenceKey) (releasing : call = .release key)
      (own : shared.gate.sealedFor = some key)
      (made : next = { shared with
        gate := { shared.gate with sealedFor := none, controlsOpen := false } })
  | committing (permit : Nat) (running : call = .withUnsealed permit)
      (live : permit ∈ shared.permits) (unsealed : shared.gate.sealedFor = none)
      (made : next = { shared with committing := some permit })

variable {gate : GateState} {shared : SharedGate} {next process : Process} {event : Event}

theorem issue_spec {next : SharedGate} {name : Nat}
    (issued : shared.issue gate = some (name, next)) :
    shared.handles + shared.permits.length ≤ i64Max ∧ next = { shared with
      gate, permits := shared.issued :: shared.permits, issued := shared.issued + 1 } := by
  unfold SharedGate.issue at issued
  split at issued
  · cases issued
  · next within =>
    cases issued
    exact ⟨Nat.le_of_not_lt within, rfl⟩

theorem settle_spec {next : SharedGate} {result : Except DrainGateError GateState}
    {reply : GateReply} (settled : shared.settle result = (reply, next)) :
    (∃ gate, result = .ok gate ∧ reply = .done ∧ next = { shared with gate }) ∨
      reply ≠ .done ∧ next = shared := by
  cases result with
  | ok gate =>
    cases settled
    exact .inl ⟨gate, rfl, rfl, rfl⟩
  | error error =>
    cases settled
    exact .inr ⟨fun impossible => (nomatch impossible), rfl⟩

theorem sealGate_spec {next : GateState} {key : DrainFenceKey} (ok : gate.sealGate key = .ok next) :
    next = gate ∨ gate.sealedFor = none ∧
      next = { gate with sealedFor := some key, controlsOpen := true } := by
  unfold GateState.sealGate at ok
  split at ok
  · next unsealed =>
    cases ok
    exact .inr ⟨unsealed, rfl⟩
  · split at ok
    · cases ok
      exact .inl rfl
    · cases ok

theorem closeControls_spec {next : GateState} {key : DrainFenceKey}
    (ok : gate.closeControls key = .ok next) :
    gate.sealedFor = some key ∧ next = { gate with controlsOpen := false } := by
  unfold GateState.closeControls at ok
  split at ok
  · cases ok
  · next own =>
    cases ok
    exact ⟨not_not.1 own, rfl⟩

theorem openControls_spec {next : GateState} {key : DrainFenceKey}
    (ok : gate.openControls key = .ok next) :
    gate.sealedFor = some key ∧ next = { gate with controlsOpen := true } := by
  unfold GateState.openControls at ok
  split at ok
  · cases ok
  · next own =>
    cases ok
    exact ⟨not_not.1 own, rfl⟩

theorem release_spec {next : GateState} {key : DrainFenceKey} (ok : gate.release key = some next) :
    gate.sealedFor = some key ∧
      next = { gate with sealedFor := none, controlsOpen := false } := by
  unfold GateState.release at ok
  split at ok
  · cases ok
  · next held =>
    cases ok
    simp only [ne_eq, Bool.or_eq_true, decide_eq_true_eq, not_or, not_not] at held
    exact ⟨held.2, rfl⟩

theorem tryEnterKind_spec {next : GateState} {control gateSealed : Bool}
    (ok : gate.tryEnterKind control = .ok (gateSealed, next)) :
    (gate.sealedFor.isSome → control && gate.controlsOpen) ∧
      next = { gate with active := gate.active + 1 } := by
  unfold GateState.tryEnterKind at ok
  split at ok
  · cases ok
  · next admitted =>
    split at ok
    · cases ok
    · next counted =>
      cases ok
      obtain ⟨rfl, _⟩ := checkedSucc_some counted
      refine ⟨?_, rfl⟩
      intro shut
      simpa [shut] using admitted

/-- One inversion for all calls; the facts about the gate follow from it. -/
theorem call_effect {next : SharedGate} {call : GateCall} {reply : GateReply}
    (called : shared.call call = some (reply, next)) : Effect call shared next := by
  cases call with
  | tryEnter control =>
    simp only [SharedGate.call] at called
    cases entered : shared.gate.tryEnterKind control with
    | error error =>
      rw [entered] at called
      cases called
      exact .refused rfl
    | ok result =>
      obtain ⟨gateSealed, gate⟩ := result
      simp only [entered, Option.map_eq_some_iff] at called
      obtain ⟨⟨name, issued⟩, issuing, same⟩ := called
      cases same
      obtain ⟨references, rfl⟩ := issue_spec issuing
      obtain ⟨admitted, rfl⟩ := tryEnterKind_spec entered
      exact .entered control rfl admitted rfl references rfl rfl ⟨rfl, rfl⟩
  | clone permit =>
    simp only [SharedGate.call] at called
    split at called
    · next live =>
      obtain ⟨⟨name, issued⟩, issuing, same⟩ := Option.map_eq_some_iff.1 called
      cases same
      obtain ⟨references, rfl⟩ := issue_spec issuing
      exact .cloned permit rfl live rfl references rfl rfl ⟨rfl, rfl⟩
    · cases called
  | drop permit =>
    simp only [SharedGate.call] at called
    split at called
    · next live =>
      cases called
      exact .dropped permit rfl live rfl
    · cases called
  | sealGate key =>
    simp only [SharedGate.call, Option.some.injEq] at called
    obtain ⟨gate, ok, _, rfl⟩ | ⟨_, rfl⟩ := settle_spec called
    · obtain rfl | ⟨unsealed, rfl⟩ := sealGate_spec ok
      · exact .refused rfl
      · exact .sealedGate key rfl unsealed rfl
    · exact .refused rfl
  | closeControls key =>
    simp only [SharedGate.call, Option.some.injEq] at called
    obtain ⟨gate, ok, _, rfl⟩ | ⟨_, rfl⟩ := settle_spec called
    · obtain ⟨own, rfl⟩ := closeControls_spec ok
      exact .closed key rfl own rfl
    · exact .refused rfl
  | openControls key =>
    simp only [SharedGate.call, Option.some.injEq] at called
    obtain ⟨gate, ok, _, rfl⟩ | ⟨_, rfl⟩ := settle_spec called
    · obtain ⟨own, rfl⟩ := openControls_spec ok
      exact .opened key rfl own rfl
    · exact .refused rfl
  | release key =>
    simp only [SharedGate.call] at called
    cases freed : shared.gate.release key with
    | none =>
      rw [freed] at called
      cases called
      exact .refused rfl
    | some gate =>
      rw [freed] at called
      cases called
      obtain ⟨own, rfl⟩ := release_spec freed
      exact .released key rfl own rfl
  | withUnsealed permit =>
    simp only [SharedGate.call] at called
    split at called
    · next live =>
      cases checked : shared.gate.withUnsealed with
      | error error =>
        rw [checked] at called
        cases called
        exact .refused rfl
      | ok _ =>
        rw [checked] at called
        cases called
        refine .committing permit rfl live ?_ rfl
        unfold GateState.withUnsealed at checked
        split at checked
        · cases checked
        · next unsealed => simpa using unsealed
    · cases called

/-! ## What a step does -/

/-- A step either makes one call with the lock free, or leaves the gate and its permits
alone: it ends an action, counts a handle, or moves a drain loop. -/
inductive Moves (event : Event) (process next : Process) : Prop where
  | called (call : GateCall) (made : event.made = some call)
      (free : process.shared.committing = none) (effect : Effect call process.shared next.shared)
  | uncommitted (made : event.made = none)
      (ended : next.shared = { process.shared with committing := none })
  | counted (made : event.made = none) (handles : Nat)
      (same : next.shared = { process.shared with handles })
      (within : handles + process.shared.permits.length ≤ i64Max + 1 ∨
        handles ≤ process.shared.handles)

/-- What one advance of a drain loop makes of the gate. -/
theorem advance_effect {loop loop' : DrainLoop} {shared' : SharedGate}
    {signal : DrainSignal} {act : DrainAct}
    (advanced : loop.advance shared signal = some (act, loop', shared')) :
    (∃ call reply, act = .called call reply ∧ loop.locks signal ∧
        shared.call call = some (reply, shared')) ∨
      (∀ call reply, act ≠ .called call reply) ∧ shared' = shared := by
  have looked (admitted failed : DrainPhase) :
      ∀ call reply, (loop.look shared admitted failed).1 ≠ .called call reply := by
    intro call reply same
    unfold DrainLoop.look at same
    split at same <;> cases same
  -- only an await of progress can find the loop at a call of the gate
  cases signal with
  | shutdown =>
    simp only [DrainLoop.advance] at advanced
    split at advanced
    · cases advanced
      exact .inr ⟨fun _ _ => (nomatch ·), rfl⟩
    · cases advanced
  | timedOut =>
    simp only [DrainLoop.advance] at advanced
    split at advanced
    · cases advanced
      exact .inr ⟨fun _ _ => (nomatch ·), rfl⟩
    · cases advanced
      exact .inr ⟨fun _ _ => (nomatch ·), rfl⟩
    · cases advanced
  | sampled sample =>
    simp only [DrainLoop.advance] at advanced
    split at advanced
    · obtain ⟨result, _, same⟩ := Option.map_eq_some_iff.1 advanced
      cases result with
      | inl further =>
        cases same
        exact .inr ⟨fun _ _ => (nomatch ·), rfl⟩
      | inr result =>
        cases same
        exact .inr ⟨fun _ _ => (nomatch ·), rfl⟩
    · obtain ⟨result, _, same⟩ := Option.map_eq_some_iff.1 advanced
      cases result with
      | inl further =>
        cases same
        exact .inr ⟨fun _ _ => (nomatch ·), rfl⟩
      | inr result =>
        cases same
        refine .inr ⟨?_, rfl⟩
        intro call reply called
        unfold DrainLoop.finallyInspected at called
        split at called <;> cases called
    · cases advanced
  | progress =>
    simp only [DrainLoop.advance] at advanced
    split at advanced
    · cases advanced
      exact .inr ⟨looked _ _, rfl⟩
    · cases advanced
      exact .inr ⟨looked _ _, rfl⟩
    · next here =>
      obtain ⟨⟨reply, after⟩, called, same⟩ := Option.map_eq_some_iff.1 advanced
      cases same
      exact .inl ⟨_, _, rfl, by simp [DrainLoop.locks, here], called⟩
    · next here =>
      obtain ⟨⟨reply, after⟩, called, same⟩ := Option.map_eq_some_iff.1 advanced
      cases same
      exact .inl ⟨_, _, rfl, by simp [DrainLoop.locks, here], called⟩
    · cases advanced
      exact .inr ⟨fun _ _ => (nomatch ·), rfl⟩
    · cases advanced

/-- What a drain step performs: the loop of the task advances, with the lock free if it takes it. -/
theorem drain_step {task : Nat} {signal : DrainSignal} {shown : Shown}
    (step : Step process ⟨.drain task signal, shown⟩ next) :
    ∃ loop act loop', process.drains[task]? = some loop ∧ shown = .acted act ∧
      (loop.locks signal → process.shared.committing = none) ∧
      loop.advance process.shared signal = some (act, loop', next.shared) ∧
      next.drains = process.drains.set task loop' := by
  simp only [Step, Process.perform] at step
  obtain ⟨loop, found, advanced⟩ := Option.bind_eq_some_iff.1 step
  split at advanced
  · cases advanced
  · next free =>
    obtain ⟨⟨act, loop', shared⟩, advances, same⟩ := Option.map_eq_some_iff.1 advanced
    cases same
    refine ⟨loop, act, loop', found, rfl, fun locked => ?_, advances, rfl⟩
    simpa [locked] using free

theorem step_moves (step : Step process event next) :
    Moves event process next := by
  obtain ⟨action, shown⟩ := event
  cases action with
  | call call =>
    simp only [Step, Process.perform] at step
    split at step
    · cases step
    · next free =>
      obtain ⟨⟨reply, shared⟩, called, same⟩ := Option.map_eq_some_iff.1 step
      cases same
      exact .called call rfl (by simpa using free) (call_effect called)
  | endAction =>
    simp only [Step, Process.perform] at step
    split at step
    · cases step
    · cases step
      exact .uncommitted rfl rfl
  | cloneHandle =>
    simp only [Step, Process.perform] at step
    split at step
    · cases step
    · next room =>
      cases step
      simp only [Bool.or_eq_true, decide_eq_true_eq, not_or] at room
      refine .counted rfl _ rfl (.inl ?_)
      omega
  | dropHandle =>
    simp only [Step, Process.perform] at step
    split at step
    · cases step
    · cases step
      exact .counted rfl _ rfl (.inr (Nat.sub_le _ _))
  | startDrain key =>
    cases step
    exact .counted rfl process.shared.handles rfl (.inr (Nat.le_refl _))
  | drain task signal =>
    obtain ⟨loop, act, loop', _, rfl, free, advanced, _⟩ := drain_step step
    -- the loop waits for the lock only where it calls the gate
    obtain ⟨call, reply, rfl, locked, called⟩ | ⟨silent, same⟩ := advance_effect advanced
    · exact .called call rfl (free locked) (call_effect called)
    · refine .counted ?_ process.shared.handles same (.inr (Nat.le_refl _))
      cases act with
      | called call reply => exact absurd rfl (silent call reply)
      | moved | admitted | left => rfl

/-! ## Permits and the active count -/

/-- The invariant of the gate: the count is that of the live permits, all of which are
references to the gate, and an action runs only while the gate is unsealed. -/
structure Counted (process : Process) : Prop where
  active : process.shared.gate.active = process.shared.permits.length
  references : process.shared.handles + process.shared.permits.length ≤ i64Max + 1
  unsealed : process.shared.committing.isSome → process.shared.gate.sealedFor = none

theorem counted_initial : Counted .initial where
  active := rfl
  references := by decide
  unsealed := (nomatch ·)

theorem step_counted (step : Step process event next)
    (counted : Counted process) : Counted next := by
  obtain ⟨active, references, unsealed⟩ := counted
  cases step_moves step with
  | uncommitted _ ended =>
    constructor
    · rw [ended]; exact active
    · rw [ended]; exact references
    · rw [ended]; exact (nomatch ·)
  | counted _ handles same within =>
    constructor
    · rw [same]; exact active
    · rw [same]
      simp only
      omega
    · rw [same]; exact unsealed
  | called call _ free effect =>
    cases effect with
    | refused same => constructor <;> rw [same] <;> assumption
    | entered control _ _ count within issued _ others =>
      constructor
      · rw [count, issued, List.length_cons, ← active]
      · rw [others.1, issued, List.length_cons]
        omega
      · rw [others.2, free]
        exact (nomatch ·)
    | cloned permit _ _ count within issued _ others =>
      have room : process.shared.gate.active < u64Max := by
        rw [active]
        unfold i64Max at within
        unfold u64Max
        omega
      constructor
      · rw [count, issued, List.length_cons, ← active]
        exact saturatingSucc_of_lt room
      · rw [others.1, issued, List.length_cons]
        omega
      · rw [others.2, free]
        exact (nomatch ·)
    | dropped permit _ live made =>
      have length := List.length_erase_of_mem live
      constructor
      · rw [made]
        simp only [GateState.dropPermit, length, active]
      · rw [made]
        simp only [length]
        omega
      · rw [made]
        simp only [free]
        exact (nomatch ·)
    | sealedGate key _ _ made =>
      constructor
      · rw [made]; exact active
      · rw [made]; exact references
      · rw [made]
        simp only [free]
        exact (nomatch ·)
    | closed key _ _ made | opened key _ _ made =>
      constructor
      · rw [made]; exact active
      · rw [made]; exact references
      · rw [made]; exact unsealed
    | released key _ _ made =>
      constructor
      · rw [made]; exact active
      · rw [made]; exact references
      · rw [made]
        exact fun _ => rfl
    | committing permit _ _ open' made =>
      constructor
      · rw [made]; exact active
      · rw [made]; exact references
      · rw [made]
        exact fun _ => open'

theorem run_counted {events : List Event}
    (run : Run Step Process.initial events process) : Counted process :=
  run.preserves Counted (fun _ _ _ => step_counted) counted_initial

/-! ## Calls with another key -/

def Event.key (event : Event) : Option DrainFenceKey := event.made.bind GateCall.key

/-- While the gate is sealed for `key`, a call that carries another key changes nothing. -/
theorem other_key_keeps {key other : DrainFenceKey}
    (step : Step process event next) (own : process.shared.gate.sealedFor = some key)
    (carried : event.key = some other) (different : other ≠ key) :
    next.shared.gate = process.shared.gate := by
  cases step_moves step with
  | uncommitted made _ | counted made =>
    rw [Event.key, made] at carried
    cases carried
  | called call made _ effect =>
    rw [Event.key, made] at carried
    cases effect with
    | refused same => rw [same]
    | entered _ kind | cloned _ kind | dropped _ kind | committing _ kind =>
      rw [kind] at carried
      cases carried
    | sealedGate _ _ unsealed =>
      rw [unsealed] at own
      cases own
    | closed _ kind held | opened _ kind held | released _ kind held =>
      rw [kind] at carried
      cases carried
      rw [held] at own
      cases own
      exact absurd rfl different

/-! ## Drained with controls closed -/

/-- Sealed for `key` with controls closed. -/
def Shut (key : DrainFenceKey) (shared : SharedGate) : Prop :=
  shared.gate.sealedFor = some key ∧ shared.gate.controlsOpen = false

theorem step_shut {key : DrainFenceKey}
    (step : Step process event next) (shut : Shut key process.shared)
    (kept : ¬reopens key event) : Shut key next.shared := by
  obtain ⟨own, closed⟩ := shut
  cases step_moves step with
  | uncommitted _ same | counted _ _ same =>
    rw [same]
    exact ⟨own, closed⟩
  | called call made _ effect =>
    cases effect with
    | refused same =>
      rw [same]
      exact ⟨own, closed⟩
    | entered _ _ _ count | cloned _ _ _ count =>
      constructor
      · rw [count]; exact own
      · rw [count]; exact closed
    | dropped _ _ _ made | committing _ _ _ _ made =>
      rw [made]
      exact ⟨own, closed⟩
    | sealedGate _ _ unsealed =>
      rw [unsealed] at own
      cases own
    | closed _ _ _ made =>
      rw [made]
      exact ⟨own, rfl⟩
    | opened other kind held =>
      rw [held] at own
      cases own
      exact absurd (.inl (made.trans (congrArg some kind))) kept
    | released other kind held =>
      rw [held] at own
      cases own
      exact absurd (.inr (made.trans (congrArg some kind))) kept

/-- No permit is left and none is issued. -/
theorem step_silent {key : DrainFenceKey}
    (step : Step process event next) (shut : Shut key process.shared)
    (none : process.shared.permits = []) :
    next.shared.permits = [] ∧ next.shared.issued = process.shared.issued := by
  obtain ⟨own, closed⟩ := shut
  cases step_moves step with
  | uncommitted _ same | counted _ _ same =>
    rw [same]
    exact ⟨none, rfl⟩
  | called call _ _ effect =>
    cases effect with
    | refused same =>
      rw [same]
      exact ⟨none, rfl⟩
    | entered control _ admitted =>
      have open' := admitted (by rw [own]; rfl)
      rw [closed, Bool.and_false] at open'
      cases open'
    | cloned _ _ live | dropped _ _ live | committing _ _ live =>
      rw [none] at live
      cases live
    | sealedGate _ _ _ made | closed _ _ _ made | opened _ _ _ made | released _ _ _ made =>
      rw [made]
      exact ⟨none, rfl⟩

theorem run_silent {events : List Event} {key : DrainFenceKey}
    (run : Run Step process events next) (shut : Shut key process.shared)
    (none : process.shared.permits = []) (kept : ∀ event ∈ events, ¬reopens key event) :
    Shut key next.shared ∧ next.shared.permits = [] ∧
      next.shared.issued = process.shared.issued := by
  refine run.preserves_of (fun now => Shut key now.shared ∧ now.shared.permits = [] ∧
    now.shared.issued = process.shared.issued) (¬reopens key ·) ?_ kept ⟨shut, none, rfl⟩
  intro s event t calm step ⟨shut, none, issued⟩
  obtain ⟨silent, same⟩ := step_silent step shut none
  exact ⟨step_shut step shut calm, silent, same.trans issued⟩

end CodexRemote.Verified.AdmissionGate

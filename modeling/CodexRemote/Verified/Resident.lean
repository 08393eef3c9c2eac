import CodexRemote.AppServer.Resident
import CodexRemote.Foundations.Runs

/-! # Generations of the resident app-server

What each operation does to admissions, to the generation and to a recorded replacement is said
once; the properties of whole runs are read off that.
-/

namespace CodexRemote.Verified.Resident

open Foundations AppServer

/-! ## Steps -/

inductive ResidentEvent where
  | requested (answer : Except AppServerError ResidentAdmission)
  | responded (answer : Except AppServerError ResidentAdmission)
  | marked (generation : Nat)
  | restartRequested
  | candidate (answer : Except AppServerError RestartCandidate)
  | died
  | recorded (replacement : ReplacementCleanup) (answer : Except AppServerError Unit)
  | cleaned (replacement : ReplacementCleanup) (answer : Except AppServerError Unit)
  | installed (replacement : ReplacementCleanup) (answer : Except AppServerError Unit)
  | closing (plan : ResidentClosePlan)
  | currentClosed
  | surrounded

/-- One operation, with any arguments; the clients live their own lives. -/
inductive ResidentStep : ResidentState → ResidentEvent → ResidentState → Prop where
  | requested {s t answer} (expected) (call : s.admitRequest expected = (answer, t)) :
      ResidentStep s (.requested answer) t
  | responded {s t answer} (expected) (call : s.admitResponse expected = (answer, t)) :
      ResidentStep s (.responded answer) t
  | timedOut {s} (generation) : ResidentStep s (.marked generation) (s.markTimeout generation)
  | cancelled {s} (generation) : ResidentStep s (.marked generation) (s.markCancelled generation)
  | restartRequested {s} : ResidentStep s .restartRequested s.requestRestart
  | candidate {s t answer} (expected quiet)
      (call : s.restartCandidate expected quiet = (answer, t)) :
      ResidentStep s (.candidate answer) t
  | died {s} (expected generation) : ResidentStep s .died (s.markCurrentClosed expected generation)
  | recorded {s t answer} (client generation)
      (call : s.recordReplacement client generation = (answer, t)) :
      ResidentStep s (.recorded ⟨client, generation⟩ answer) t
  | cleaned {s t answer} (replacement)
      (call : s.finishReplacementCleanup replacement = (answer, t)) :
      ResidentStep s (.cleaned replacement answer) t
  | installed {s t answer} (client generation install)
      (call : s.installReplacementWith client generation install = (answer, t)) :
      ResidentStep s (.installed ⟨client, generation⟩ answer) t
  | closing {s t plan} (call : s.prepareClose = (plan, t)) : ResidentStep s (.closing plan) t
  | currentClosed {s t answer} (expected) (call : s.finishCurrentClose expected = (answer, t)) :
      ResidentStep s .currentClosed t
  | surrounded {s} (lifecycles) :
      ResidentStep s .surrounded { s with lifecycles := lifecycles }

namespace ResidentEvent

/-- What the event admits, a request or a response. -/
def admission : ResidentEvent → Option ResidentAdmission
  | requested (.ok admission) => some admission
  | responded (.ok admission) => some admission
  | _ => none

def installs : ResidentEvent → Bool
  | installed _ (.ok ()) => true
  | _ => false

end ResidentEvent

/-- What becomes of a recorded replacement. -/
inductive CustodyMove where
  | recorded (replacement : ReplacementCleanup)
  | installed (replacement : ReplacementCleanup)
  | cleaned (replacement : ReplacementCleanup)
deriving DecidableEq, Repr

def custody : ResidentEvent → Option CustodyMove
  | .recorded replacement (.ok ()) => some (.recorded replacement)
  | .installed replacement (.ok ()) => some (.installed replacement)
  | .cleaned replacement (.ok ()) => some (.cleaned replacement)
  | _ => none

/-- The replacement in custody before a move, and after it. -/
inductive CustodyStep : Option ReplacementCleanup → CustodyMove → Option ReplacementCleanup → Prop where
  | recorded (replacement) : CustodyStep none (.recorded replacement) (some replacement)
  | installed (replacement) : CustodyStep (some replacement) (.installed replacement) none
  | cleaned (replacement) : CustodyStep (some replacement) (.cleaned replacement) none

/-- What one operation can do. -/
structure Effect (s : ResidentState) (event : ResidentEvent) (t : ResidentState) : Prop where
  admitted : ∀ admission, event.admission = some admission →
    s.accepting = true ∧ admission.generation = s.generation
  requested : ∀ admission, event = .requested (.ok admission) → s.quarantined = false
  accepting : t.accepting = true → s.accepting = true ∨ event.installs = true
  generation : t.generation = s.generation + event.installs.toNat
  quarantined : s.quarantined = true → t.quarantined = true ∨ event.installs = true
  terminal : s.closeState = .terminal → t.closeState = .terminal ∧ event.installs = false
  pending : s.closeState = .terminal → s.accepting = false → s.restartPending = false →
    s.restartSignal = none → t.restartPending = false ∧ t.restartSignal = none
  custody : match custody event with
    | none => t.replacementCleanup = s.replacementCleanup
    | some move => CustodyStep s.replacementCleanup move t.replacementCleanup
  installed : ∀ replacement, event = .installed replacement (.ok ()) →
    t.client = some replacement.client ∧ t.generation = replacement.generation

/-! ## Operations that install nothing -/

/-- An operation that neither installs nor moves a replacement. -/
structure Calm (s t : ResidentState) : Prop where
  accepting : t.accepting = true → s.accepting = true
  generation : t.generation = s.generation
  quarantined : s.quarantined = true → t.quarantined = true
  terminal : s.closeState = .terminal → t.closeState = .terminal
  pending : s.closeState = .terminal → s.accepting = false → s.restartPending = false →
    s.restartSignal = none → t.restartPending = false ∧ t.restartSignal = none
  slot : t.replacementCleanup = s.replacementCleanup

theorem Calm.refl (s : ResidentState) : Calm s s :=
  ⟨id, rfl, id, id, fun _ _ pending signal => ⟨pending, signal⟩, rfl⟩

variable {s t : ResidentState} {answer : Except AppServerError Unit} {events : List ResidentEvent}

theorem Calm.effect {event : ResidentEvent} (calm : Calm s t)
    (admission : event.admission = none) (installs : event.installs = false)
    (move : custody event = none) : Effect s event t where
  admitted _ some_ := by
    rw [admission] at some_
    cases some_
  requested _ same := by
    rw [same] at admission
    cases admission
  accepting open_ := .inl (calm.accepting open_)
  generation := by rw [installs, calm.generation]; rfl
  quarantined held := .inl (calm.quarantined held)
  terminal ended := ⟨calm.terminal ended, installs⟩
  pending := calm.pending
  custody := by
    rw [move]
    exact calm.slot
  installed _ same := by
    rw [same] at installs
    cases installs

theorem admitWith_spec {expected : Option Nat} {reject : Bool}
    {answer : Except AppServerError ResidentAdmission}
    (call : s.admitWith expected reject = (answer, t)) : Calm s t ∧ ∀ admission,
      answer = .ok admission → s.accepting = true ∧ admission.generation = s.generation ∧
        (reject = true → s.quarantined = false) := by
  rw [ResidentState.admitWith] at call
  split at call
  · cases call
    exact ⟨.refl s, nofun⟩
  · split at call
    · cases call
      exact ⟨.refl s, nofun⟩
    · next open_ =>
      split at call
      · cases call
        exact ⟨.refl s, nofun⟩
      · next fine =>
        split at call
        · cases call
          exact ⟨.refl s, nofun⟩
        · simp only at call
          split at call
          · cases call
            exact ⟨.refl s, nofun⟩
          · cases call
            refine ⟨⟨id, rfl, id, id, fun _ _ pending signal => ⟨pending, signal⟩, rfl⟩, ?_⟩
            rintro admission ⟨⟩
            refine ⟨by simpa using open_, rfl, ?_⟩
            intro rejects
            simpa [rejects] using fine

theorem quarantine_calm (s : ResidentState) (generation : Nat) :
    Calm s (s.quarantine generation) := by
  rw [ResidentState.quarantine]
  split
  · next holds =>
    simp only [Bool.and_eq_true] at holds
    refine ⟨id, rfl, fun _ => rfl, id, ?_, rfl⟩
    intro _ closed
    rw [holds.1.2] at closed
    cases closed
  · exact .refl s

theorem quarantine_marks {generation : Nat} (current : generation = s.generation)
    (opened : s.accepting = true) (present : s.client.isSome = true) :
    (s.quarantine generation).quarantined = true := by
  rw [ResidentState.quarantine, if_pos]
  · rfl
  · simp [current, opened, present]

theorem requestRestart_calm (s : ResidentState) : Calm s s.requestRestart := by
  rw [ResidentState.requestRestart]
  split
  · next opened =>
    refine ⟨id, rfl, id, id, ?_, rfl⟩
    intro ended
    rw [opened] at ended
    cases ended
  · exact .refl s

theorem restartCandidate_calm {expected : Option Nat} {quiet : Bool}
    {answer : Except AppServerError RestartCandidate}
    (call : s.restartCandidate expected quiet = (answer, t)) : Calm s t ∧
      ∀ client, answer = .ok (.sealed client) → t.accepting = false := by
  rw [ResidentState.restartCandidate] at call
  split at call
  · cases call
    exact ⟨.refl s, nofun⟩
  · next due =>
    split at call
    · cases call
      exact ⟨.refl s, nofun⟩
    · split at call
      · cases call
        exact ⟨.refl s, nofun⟩
      · cases call
        refine ⟨⟨nofun, rfl, id, id, fun _ _ pending signal => ⟨pending, signal⟩, rfl⟩, ?_⟩
        exact fun _ _ => rfl

theorem markCurrentClosed_calm (s : ResidentState) (expected : String) (generation : Nat) :
    Calm s (s.markCurrentClosed expected generation) := by
  rw [ResidentState.markCurrentClosed]
  split
  · next holds =>
    simp only [Bool.and_eq_true, decide_eq_true_eq] at holds
    refine ⟨nofun, rfl, id, id, ?_, rfl⟩
    intro ended
    rw [holds.1.1] at ended
    cases ended
  · exact .refl s

theorem finishCurrentClose_calm {expected : String}
    (call : s.finishCurrentClose expected = (answer, t)) :
    Calm s t := by
  rw [ResidentState.finishCurrentClose] at call
  split at call
  · cases call
    exact .refl s
  · split at call
    · cases call
      exact .refl s
    · split at call
      · cases call
        exact .refl s
      · cases call
        exact ⟨id, rfl, id, id, fun _ _ pending signal => ⟨pending, signal⟩, rfl⟩

/-- After it nothing is admitted, no restart is pending, and the plan names what is to be closed. -/
theorem prepareClose_spec {plan : ResidentClosePlan}
    (call : s.prepareClose = (plan, t)) : Calm s t ∧ t.accepting = false ∧
      t.closeState = .terminal ∧ t.restartPending = false ∧ t.restartSignal = none ∧
      plan.replacement = s.replacementCleanup := by
  rw [ResidentState.prepareClose] at call
  cases call
  cases s.client <;> cases slot : s.replacementCleanup <;>
    exact ⟨⟨nofun, rfl, id, fun _ => rfl, fun _ _ _ _ => ⟨rfl, rfl⟩, slot.symm⟩, rfl, rfl, rfl, rfl, rfl⟩

/-! ## Replacements -/

theorem recordReplacement_spec {client : String} {generation : Nat}
    (call : s.recordReplacement client generation = (answer, t)) :
    (t = s ∧ ∃ error, answer = .error error) ∨ (answer = .ok () ∧ s.replacementCleanup = none ∧
      t = { s with replacementCleanup := some ⟨client, generation⟩ }) := by
  rw [ResidentState.recordReplacement] at call
  split at call
  · cases call
    exact .inl ⟨rfl, _, rfl⟩
  · split at call
    · cases call
      exact .inl ⟨rfl, _, rfl⟩
    · split at call
      · cases call
        exact .inl ⟨rfl, _, rfl⟩
      · split at call
        · cases call
          exact .inl ⟨rfl, _, rfl⟩
        · next free =>
          cases call
          exact .inr ⟨rfl, by simpa using free, rfl⟩

theorem finishReplacementCleanup_spec {replacement : ReplacementCleanup}
    (call : s.finishReplacementCleanup replacement = (answer, t)) :
    (t = s ∧ ∃ error, answer = .error error) ∨
      (answer = .ok () ∧ s.replacementCleanup = some replacement ∧
        t = { s with replacementCleanup := none }) := by
  rw [ResidentState.finishReplacementCleanup] at call
  split at call
  · cases call
    exact .inl ⟨rfl, _, rfl⟩
  · next actual slot =>
    split at call
    · cases call
      exact .inl ⟨rfl, _, rfl⟩
    · next same =>
      cases call
      exact .inr ⟨rfl, by rw [slot, Decidable.not_not.1 same], rfl⟩

/-- A replacement is installed whole, or everything stays as it was. -/
theorem installReplacementWith_spec {client : String} {generation : Nat}
    {install : Except AppServerError Unit}
    (call : s.installReplacementWith client generation install = (answer, t)) :
    (t = s ∧ ∃ error, answer = .error error) ∨
      (answer = .ok () ∧ s.closeState = .opened ∧
        s.replacementCleanup = some ⟨client, generation⟩ ∧ generation = s.generation + 1 ∧
        t.client = some client ∧ t.generation = generation ∧ t.replacementCleanup = none ∧
        t.closeState = s.closeState) := by
  rw [ResidentState.installReplacementWith] at call
  split at call
  · cases call
    exact .inl ⟨rfl, _, rfl⟩
  · next opened =>
    split at call
    · cases call
      exact .inl ⟨rfl, _, rfl⟩
    · next candidate slot =>
      split at call
      · cases call
        exact .inl ⟨rfl, _, rfl⟩
      · next next_ counted =>
        split at call
        · cases call
          exact .inl ⟨rfl, _, rfl⟩
        · next same =>
          split at call
          · cases call
            exact .inl ⟨rfl, _, rfl⟩
          · cases install with
            | error error =>
              cases call
              exact .inl ⟨rfl, _, rfl⟩
            | ok done =>
              cases call
              simp only [Bool.or_eq_true, decide_eq_true_eq, not_or, ne_eq,
                Decidable.not_not] at same opened
              obtain ⟨⟨given, following⟩, own⟩ := same
              obtain ⟨successor, _⟩ := checkedSucc_some counted
              subst given own
              exact .inr ⟨rfl, opened, slot, following.trans successor, rfl, rfl, rfl, rfl⟩

/-! ## Every step -/

theorem step_effect {event : ResidentEvent} (step : ResidentStep s event t) :
    Effect s event t := by
  cases step with
  | @requested _ answer expected call =>
    obtain ⟨calm, granted⟩ := admitWith_spec call
    cases answer with
    | error error => exact calm.effect rfl rfl rfl
    | ok admission =>
      have silent : Effect s .surrounded t := calm.effect rfl rfl rfl
      refine ⟨?_, ?_, silent.accepting, silent.generation, silent.quarantined, silent.terminal,
        silent.pending, silent.custody, nofun⟩
      · rintro _ ⟨⟩
        obtain ⟨open_, current, _⟩ := granted admission rfl
        exact ⟨open_, current⟩
      · intro _ _
        obtain ⟨_, _, healthy⟩ := granted admission rfl
        exact healthy rfl
  | @responded _ answer expected call =>
    obtain ⟨calm, granted⟩ := admitWith_spec call
    cases answer with
    | error error => exact calm.effect rfl rfl rfl
    | ok admission =>
      have silent : Effect s .surrounded t := calm.effect rfl rfl rfl
      refine ⟨?_, nofun, silent.accepting, silent.generation, silent.quarantined, silent.terminal,
        silent.pending, silent.custody, nofun⟩
      rintro _ ⟨⟩
      obtain ⟨open_, current, _⟩ := granted admission rfl
      exact ⟨open_, current⟩
  | timedOut generation => exact (quarantine_calm s generation).effect rfl rfl rfl
  | cancelled generation => exact (quarantine_calm s generation).effect rfl rfl rfl
  | restartRequested => exact (requestRestart_calm s).effect rfl rfl rfl
  | candidate expected quiet call => exact (restartCandidate_calm call).1.effect rfl rfl rfl
  | died expected generation => exact (markCurrentClosed_calm s expected generation).effect rfl rfl rfl
  | recorded client generation call =>
    obtain ⟨rfl, error, rfl⟩ | ⟨rfl, free, rfl⟩ := recordReplacement_spec call
    · exact (Calm.refl _).effect rfl rfl rfl
    · refine ⟨nofun, nofun, .inl, rfl, .inl, fun ended => ⟨ended, rfl⟩, ?_, ?_, nofun⟩
      · exact fun _ _ pending signal => ⟨pending, signal⟩
      · show CustodyStep s.replacementCleanup _ _
        rw [free]
        exact .recorded _
  | cleaned replacement call =>
    obtain ⟨rfl, error, rfl⟩ | ⟨rfl, owed, rfl⟩ := finishReplacementCleanup_spec call
    · exact (Calm.refl _).effect rfl rfl rfl
    · refine ⟨nofun, nofun, .inl, rfl, .inl, fun ended => ⟨ended, rfl⟩, ?_, ?_, nofun⟩
      · exact fun _ _ pending signal => ⟨pending, signal⟩
      · show CustodyStep s.replacementCleanup _ _
        rw [owed]
        exact .cleaned _
  | installed client generation install call =>
    obtain ⟨rfl, error, rfl⟩ | ⟨rfl, opened, owed, following, current, counted, free, _⟩ :=
      installReplacementWith_spec call
    · exact (Calm.refl _).effect rfl rfl rfl
    · have running : s.closeState ≠ .terminal := by
        rw [opened]
        nofun
      refine ⟨nofun, nofun, fun _ => .inr rfl, counted.trans following, fun _ => .inr rfl,
        fun ended => absurd ended running, fun ended => absurd ended running, ?_, ?_⟩
      · show CustodyStep s.replacementCleanup _ t.replacementCleanup
        rw [owed, free]
        exact .installed _
      · rintro _ ⟨⟩
        exact ⟨current, counted⟩
  | closing call => exact (prepareClose_spec call).1.effect rfl rfl rfl
  | currentClosed expected call => exact (finishCurrentClose_calm call).effect rfl rfl rfl
  | surrounded lifecycles =>
    exact Calm.effect ⟨id, rfl, id, id, fun _ _ pending signal => ⟨pending, signal⟩, rfl⟩ rfl rfl rfl

/-! ## Runs -/

theorem run_generation (run : Run ResidentStep s events t) :
    t.generation = s.generation + events.countP ResidentEvent.installs := by
  induction run with
  | nil _ => rfl
  | cons first _ ih =>
    rw [ih, (step_effect first).generation, List.countP_cons]
    have unit : ∀ b : Bool, b.toNat = if b = true then 1 else 0 := by decide
    rw [unit]
    omega

/-- A quarantined generation takes no request for as long as it lasts, and it does not come back. -/
theorem run_quarantined (run : Run ResidentStep s events t) (held : s.quarantined = true) :
    ∀ admission, .requested (.ok admission) ∈ events → admission.generation ≠ s.generation := by
  have refused := run.labels
    (fun u => s.generation ≤ u.generation ∧ (s.generation = u.generation → u.quarantined = true))
    (fun event => ∀ admission, event = .requested (.ok admission) →
      admission.generation ≠ s.generation) ?_ ?_ ⟨Nat.le_refl _, fun _ => held⟩
  · exact fun admission member => refused _ member admission rfl
  · intro u event v step ⟨reached, quarantined⟩
    have effect := step_effect step
    have counted := effect.generation
    cases installs : event.installs with
    | true =>
      rw [installs, Bool.toNat_true] at counted
      exact ⟨by omega, fun same => by omega⟩
    | false =>
      rw [installs, Bool.toNat_false, Nat.add_zero] at counted
      rw [counted]
      refine ⟨reached, fun same => ?_⟩
      have kept := effect.quarantined (quarantined same)
      simpa [installs] using kept
  · rintro u _ v step ⟨reached, quarantined⟩ admission rfl same
    have effect := step_effect step
    have healthy := effect.requested admission rfl
    have current := (effect.admitted admission rfl).2
    rw [quarantined (same.symm.trans current)] at healthy
    cases healthy

/-- Where admissions are closed, only an installation reopens them. -/
theorem run_closed (run : Run ResidentStep s events t) (closed : s.accepting = false)
    (none_ : ∀ event ∈ events, event.installs = false) :
    ∀ event ∈ events, event.admission = none := by
  induction run with
  | nil _ => exact List.forall_mem_nil _
  | @cons s u t event events first rest ih =>
    have effect := step_effect first
    have calm := none_ event (List.mem_cons_self ..)
    have still : u.accepting = false := by
      cases open_ : u.accepting with
      | false => rfl
      | true =>
        have reopened := effect.accepting open_
        simp [closed, calm] at reopened
    rintro other (_ | ⟨_, later⟩)
    · cases admitted : event.admission with
      | none => rfl
      | some admission =>
        have was := (effect.admitted admission admitted).1
        rw [closed] at was
        cases was
    · exact ih still (fun e member => none_ e (List.mem_cons_of_mem _ member)) other later

theorem run_terminal (run : Run ResidentStep s events t) (ended : s.closeState = .terminal) :
    ∀ event ∈ events, event.installs = false :=
  run.labels (fun u => u.closeState = .terminal) (fun event => event.installs = false)
    (fun _ _ _ step ended => ((step_effect step).terminal ended).1)
    (fun _ _ _ step ended => ((step_effect step).terminal ended).2) ended

/-- No restart is pending, and none can become pending. -/
structure Shut (s : ResidentState) : Prop where
  ended : s.closeState = .terminal
  closed : s.accepting = false
  pending : s.restartPending = false
  signal : s.restartSignal = none

theorem step_shut {event : ResidentEvent} (step : ResidentStep s event t)
    (shut : Shut s) : Shut t := by
  have effect := step_effect step
  obtain ⟨ended, silent⟩ := effect.terminal shut.ended
  obtain ⟨pending, signal⟩ := effect.pending shut.ended shut.closed shut.pending shut.signal
  refine ⟨ended, ?_, pending, signal⟩
  cases open_ : t.accepting with
  | false => rfl
  | true =>
    have reopened := effect.accepting open_
    simp [shut.closed, silent] at reopened

/-! ## Custody of replacements -/

theorem run_custody (run : Run ResidentStep s events t) :
    Run CustodyStep s.replacementCleanup (events.filterMap custody) t.replacementCleanup := by
  induction run with
  | nil _ => exact .nil _
  | @cons s u t event events first _ ih =>
    have moved := (step_effect first).custody
    rw [List.filterMap_cons]
    cases move : custody event with
    | none =>
      rw [move] at moved
      rw [← moved]
      exact ih
    | some move =>
      rw [move] at moved
      exact .cons moved ih

/-- Each recorded replacement is installed, is handed to cleanup or is still owed, one of the
three, and nothing is installed or cleaned up that was not recorded just before. -/
structure Accounted (moves : List CustodyMove) (owed : Option ReplacementCleanup) : Prop where
  settled : ∀ earlier replacement later, moves = earlier ++ .recorded replacement :: later →
    (later = [] ∧ owed = some replacement) ∨
      ∃ rest, later = .installed replacement :: rest ∨ later = .cleaned replacement :: rest
  own : ∀ earlier replacement later, moves = earlier ++ .installed replacement :: later ∨
    moves = earlier ++ .cleaned replacement :: later →
      earlier.getLast? = some (.recorded replacement)

/-- What stands in the slot after some moves is what the last of them recorded. -/
theorem slot_recorded {moves : List CustodyMove} {owed : Option ReplacementCleanup}
    (run : Run CustodyStep none moves owed) (replacement : ReplacementCleanup)
    (held : owed = some replacement) : moves.getLast? = some (.recorded replacement) := by
  cases moves using List.reverseRecOn with
  | nil =>
    cases run
    cases held
  | append_singleton earlier move =>
    obtain ⟨slot, _, last⟩ := run.append_inv
    obtain ⟨_, step, done⟩ := last.cons_inv
    cases done
    cases step with
    | recorded other =>
      cases held
      exact List.getLast?_concat ..
    | installed _ => cases held
    | cleaned _ => cases held

theorem run_accounted {moves : List CustodyMove} {owed : Option ReplacementCleanup}
    (run : Run CustodyStep none moves owed) : Accounted moves owed where
  settled earlier replacement later shape := by
    rw [shape] at run
    obtain ⟨_, _, _, step, rest⟩ := run.split_at
    cases step
    cases rest with
    | nil _ => exact .inl ⟨rfl, rfl⟩
    | cons next _ =>
      cases next with
      | installed _ => exact .inr ⟨_, .inl rfl⟩
      | cleaned _ => exact .inr ⟨_, .inr rfl⟩
  own earlier replacement later shape := by
    obtain shape | shape := shape
    · rw [shape] at run
      obtain ⟨slot, _, front, step, _⟩ := run.split_at
      cases step
      exact slot_recorded front replacement rfl
    · rw [shape] at run
      obtain ⟨slot, _, front, step, _⟩ := run.split_at
      cases step
      exact slot_recorded front replacement rfl

/-! ## The state machine -/

/-- A mark of the accepting generation leaves it quarantined, a quarantined generation takes no
request, a sealed client takes nothing until the next generation is installed, generations follow
one another, a closed server stays closed, and every recorded replacement is accounted for. -/
theorem resident_generations {client : String} {lifecycles : String → ClientLifecycle}
    {r s t : ResidentState} {before after : List ResidentEvent} {event : ResidentEvent}
    (earlier : Run ResidentStep (.new client lifecycles) before r) (step : ResidentStep r event s)
    (later : Run ResidentStep s after t) :
    (s.quarantined = true → ∀ admission, .requested (.ok admission) ∈ after →
      admission.generation ≠ s.generation) ∧
    (∀ candidate, event = .candidate (.ok (.sealed candidate)) →
      (∀ e ∈ after, e.installs = false) → ∀ e ∈ after, e.admission = none) ∧
    (∀ replacement, event = .installed replacement (.ok ()) →
      s.client = some replacement.client ∧ s.generation = replacement.generation ∧
        s.generation = r.generation + 1) ∧
    t.generation = s.generation + after.countP ResidentEvent.installs ∧
    (∀ plan, event = .closing plan → plan.replacement = s.replacementCleanup ∧
      (∀ e ∈ after, e.admission = none ∧ e.installs = false) ∧
        t.restartPending = false ∧ t.restartSignal = none) ∧
    Accounted ((before ++ event :: after).filterMap custody) t.replacementCleanup ∧
    (∀ generation, event = .marked generation → generation = r.generation →
      r.accepting = true → r.client.isSome = true → s.quarantined = true) := by
  refine ⟨run_quarantined later, ?_, ?_, run_generation later, ?_, ?_, ?_⟩
  · rintro candidate rfl calm
    have closed : s.accepting = false := by
      cases step with
      | candidate expected quiet call => exact (restartCandidate_calm call).2 candidate rfl
    exact run_closed later closed calm
  · rintro replacement rfl
    have effect := step_effect step
    obtain ⟨current, generation⟩ := effect.installed replacement rfl
    exact ⟨current, generation, effect.generation⟩
  · rintro plan rfl
    cases step with
    | closing call =>
      obtain ⟨calm, closed, ended, pending, signal, planned⟩ := prepareClose_spec call
      have calm_after := run_terminal later ended
      have shut := later.preserves Shut (fun _ _ _ => step_shut) ⟨ended, closed, pending, signal⟩
      refine ⟨planned.trans calm.slot.symm, fun e member => ?_, shut.pending, shut.signal⟩
      exact ⟨run_closed later closed calm_after e member, calm_after e member⟩
  · exact run_accounted (run_custody (earlier.append (.cons step later)))
  · rintro generation rfl current opened present
    -- both kinds of mark, after a timeout and after a cancellation
    cases step with
    | timedOut _ => exact quarantine_marks current opened present
    | cancelled _ => exact quarantine_marks current opened present

/-! A timeout, the client sealed, and a second one recorded and installed -/

def firstClient : ResidentState := .new "first" fun _ => ⟨false, 0⟩

def sealedFirst : ResidentState := ((firstClient.markTimeout 1).restartCandidate none true).2

def secondRecorded : ResidentState := (sealedFirst.recordReplacement "second" 2).2

def secondInstalled : ResidentState :=
  (secondRecorded.installReplacementWith "second" 2 (.ok ())).2

theorem second_generation : secondInstalled.client = some "second" ∧
    secondInstalled.generation = secondRecorded.generation + 1 ∧
    Accounted [.recorded ⟨"second", 2⟩, .installed ⟨"second", 2⟩] none := by
  have earlier : Run ResidentStep firstClient
      [.marked 1, .candidate (.ok (.sealed "first")), .recorded ⟨"second", 2⟩ (.ok ())]
        secondRecorded :=
    .cons (.timedOut 1) (.cons (.candidate none true (Prod.ext (by decide +kernel) rfl))
      (.single (.recorded "second" 2 (Prod.ext (by decide +kernel) rfl))))
  have step : ResidentStep secondRecorded (.installed ⟨"second", 2⟩ (.ok ())) secondInstalled :=
    .installed "second" 2 (.ok ()) (Prod.ext (by decide +kernel) rfl)
  have outcome := resident_generations earlier step (.nil _)
  obtain ⟨current, _, counted⟩ := outcome.2.2.1 _ rfl
  have slot : secondInstalled.replacementCleanup = none := by decide +kernel
  have accounted := outcome.2.2.2.2.2.1
  rw [slot] at accounted
  exact ⟨current, counted, accounted⟩

end CodexRemote.Verified.Resident

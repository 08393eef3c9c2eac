import CodexRemote.Verified.Stop.Texts
import CodexRemote.Verified.StopControl.Invariant

/-! # One use of each interrupt

Claims and wire requests of one turn spend a credit that the turn has once; the invariant says
that one control of the turn holds it.
-/

namespace CodexRemote.Verified.StopControl

open Foundations Store Store.Stop Store.Stop.Control
open Verified.Stop Verified.Queue

variable {σ : Type}

/-! ## Turns that are over -/

/-- The turn has a terminal on record, or nothing of its target is running. -/
def Over (db : StopDb σ) (target turn : String) : Prop :=
  terminalObserved db target turn = true ∨ Idle db target

theorem Over.step {hooks : StopHooks σ} {db next : StopDb σ} {event : ControlEvent}
    {target turn : String} (step : ControlStep hooks db event next)
    (apart : ¬event.touches target) (over_ : Over db target turn) : Over next target turn := by
  obtain seen | idle := over_
  · exact Or.inl ((step_effect step).observed target turn apart seen)
  · exact Or.inr ((step_effect step).idle target apart idle)

theorem value_state (job : StoredQueueJob) :
    job.value.get "state" = some (.text job.state.name) := rfl

theorem value_target (job : StoredQueueJob) :
    job.value.get "target_thread_id" = some (.text job.targetThreadId) := rfl

theorem name_running {state : QueueJobState} (running : state.name = "Running") :
    state = .running := by
  revert running
  cases state <;> decide

variable {control : StopControl} {db next : StopDb σ} {hooks : StopHooks σ} {key : InterruptKey}
  {event : ControlEvent}

/-- The authority of a control is refused once its turn is over. -/
theorem Over.refuses (over_ : Over db control.target control.turn) (sound : Sound hooks db)
    (valid : validateOriginal hooks db control = .ok ()) : False := by
  obtain ⟨row, found, own⟩ := retained_row (validateOriginal_retained valid)
  simp only [validateOriginal] at valid
  obtain ⟨_, valid⟩ := guard_ok.1 valid
  obtain ⟨_, valid⟩ := guard_ok.1 valid
  obtain ⟨_, _, valid⟩ := bind_ok.1 valid
  obtain ⟨unseen, valid⟩ := guard_ok.1 valid
  obtain ⟨jobs, read, valid⟩ := bind_ok.1 valid
  obtain seen | idle := over_
  · rw [seen, Bool.or_true] at unseen
    exact absurd rfl unseen
  · split at valid
    · next text original one =>
      obtain ⟨_, checked, _⟩ := bind_ok.1 valid
      have inside : (text, original) ∈ jobs.filter
          fun job => job.2.get "state" = some (.text "Running") := by
        rw [one]
        exact List.mem_singleton.2 rfl
      obtain ⟨member, running⟩ := List.mem_filter.1 inside
      obtain ⟨source, named, made⟩ := mapM_made read _ member
      obtain ⟨value, parsed, pair⟩ := map_ok.1 made
      cases pair
      simp only [requireOriginal] at checked
      obtain ⟨id, _, checked⟩ := bind_ok.1 checked
      obtain ⟨current, selected, checked⟩ := bind_ok.1 checked
      obtain ⟨same, _⟩ := guard_ok.1 checked
      simp only [Bool.or_eq_true, decide_eq_true_eq, not_or, ne_eq, Decidable.not_not]
        at same
      have text_eq : hooks.jobText current = text := same.1.1.1.1
      -- the text is that of the row, and of a job of the control's target
      obtain ⟨created, updated, reads⟩ := hooks.parse_jobText current
      rw [text_eq] at reads
      have original_eq : original = { current with
          createdAt := created, updatedAt := updated }.value := by
        rw [readJson, reads] at parsed
        exact (Except.ok.inj parsed).symm
      have state : current.state = .running := by
        rw [original_eq, value_state] at running
        simp only [Option.some.injEq, Json.text.injEq, decide_eq_true_eq] at running
        exact name_running running
      obtain ⟨job, job_eq, target⟩ := sound.jobs row (Table.mem_of_find found) text
        (by rw [own]; exact named)
      have current_target : current.targetThreadId = control.target := by
        obtain ⟨_, _, again⟩ := hooks.parse_jobText job
        rw [← job_eq, reads] at again
        have fields := congrArg (fun value => value.bind (Json.get · "target_thread_id"))
          again
        simp only [Option.bind_some, value_target, Option.some.injEq,
          Json.text.injEq] at fields
        rw [fields, target, own]
      obtain ⟨there, present, decoded, _⟩ := selectJob_id selected
      obtain ⟨_, _, _, _, own_target, _⟩ := decode_fields decoded
      obtain ⟨_, _, fields⟩ := map_ok.1 decoded
      have pending := idle there present (own_target.symm.trans current_target)
      have decodedState : there.decodedState = current.state := by rw [← fields]
      rw [state, QueueRow.decodedState, pending] at decodedState
      cases decodedState
    · cases valid

/-! ## Claims and wire requests of one turn -/

/-- A claim of this turn that succeeds -/
def claims (key : InterruptKey) : ControlEvent → Bool
  | .claimed control (.ok (some _)) => control.key = key
  | _ => false

/-- A wire request of this turn that may be sent -/
def begins (key : InterruptKey) : ControlEvent → Bool
  | .began (.ok claim) (.ok _) => claim.control.key = key
  | _ => false

/-- The event records a terminal of this turn. -/
def ControlEvent.ends (target turn : String) : ControlEvent → Prop
  | .observed thread ended _ recorded => thread = target ∧ ended = turn ∧ recorded = true
  | .recovered control _ (.ok _) => control.target = target ∧ control.turn = turn
  | _ => False

/-- A stop of the same turn has a request on the wire. -/
def keySent (db : StopDb σ) (key : InterruptKey) : Bool :=
  db.rest.controls.contains fun row => row.control.key = key && row.wireAttempt.isSome

theorem keySent_iff : keySent db key = true ↔
    ∃ row ∈ db.rest.controls.rows, row.control.key = key ∧ row.wireAttempt.isSome := by
  simp [keySent, Table.contains]

theorem keyClaimed_step (step : ControlStep hooks db event next)
    (claimed : keyClaimed db key = true) : keyClaimed next key = true := by
  obtain ⟨row, member, own, token⟩ := keyClaimed_iff.1 claimed
  obtain ⟨later, there, move⟩ := (step_effect step).moves.moved _ row (Table.find_of_mem member)
  exact keyClaimed_iff.2 ⟨later, Table.mem_of_find there, by rw [move.control, own],
    move.claimed token⟩

theorem keySent_step (step : ControlStep hooks db event next)
    (sent : keySent db key = true) : keySent next key = true := by
  obtain ⟨row, member, own, request⟩ := keySent_iff.1 sent
  obtain ⟨later, there, move⟩ := (step_effect step).moves.moved _ row (Table.find_of_mem member)
  exact keySent_iff.2 ⟨later, Table.mem_of_find there, by rw [move.control, own],
    move.sent request⟩

theorem claims_true (yes : claims key event = true) :
    ∃ control found, event = .claimed control (.ok (some found)) ∧ control.key = key := by
  unfold claims at yes
  split at yes
  · exact ⟨_, _, rfl, of_decide_eq_true yes⟩
  · cases yes

theorem begins_true (yes : begins key event = true) :
    ∃ found, event = .began (.ok found) (.ok ()) ∧ found.control.key = key := by
  unfold begins at yes
  split at yes
  · exact ⟨_, rfl, of_decide_eq_true yes⟩
  · cases yes

theorem claimed_step
    {found : StopClaim} (step : ControlStep hooks db (.claimed control (.ok (some found))) next) :
    ∃ token, Claimed hooks control token db next := by
  cases step with
  | claimed _ _ _ token ran => exact ⟨token, (claim_spec ran).2⟩
  | failed _ error => cases error

theorem began_step {found : StopClaim}
    (step : ControlStep hooks db (.began (.ok found) (.ok ())) next) :
    Began hooks found db next := by
  cases step with
  | began _ _ _ _ ran =>
    obtain ⟨claim, same, began⟩ := beginWire_spec ran
    cases same
    exact began
  | failed _ error => cases error

/-- A claim takes the one credit of its turn. -/
theorem claims_pay (key : InterruptKey) (step : ControlStep hooks db event next) :
    (claims key event).toNat + (!keyClaimed next key).toNat ≤ (!keyClaimed db key).toNat := by
  cases claimed : claims key event with
  | true =>
    obtain ⟨control, found, rfl, rfl⟩ := claims_true claimed
    obtain ⟨token, spec⟩ := claimed_step step
    rw [spec.unclaimed, spec.after]
    decide
  | false =>
    cases before : keyClaimed db key with
    | true =>
      rw [keyClaimed_step step before]
      decide
    | false => cases keyClaimed next key <;> decide

/-- A wire request takes the one credit of its turn: only one control of the turn has a claim. -/
theorem begins_pay
    (key : InterruptKey) (sound : Sound hooks db) (step : ControlStep hooks db event next) :
    (begins key event).toNat + (!keySent next key).toNat ≤ (!keySent db key).toNat := by
  cases begun : begins key event with
  | true =>
    obtain ⟨found, rfl, own⟩ := begins_true begun
    have spec := began_step step
    have after : keySent next key = true := by
      obtain ⟨row, member, control, sent⟩ := spec.after
      exact keySent_iff.2 ⟨row, member, by rw [control, own], sent⟩
    have unsent : keySent db key = false := by
      by_contra taken
      rw [Bool.not_eq_false] at taken
      obtain ⟨row, member, named, sent⟩ := keySent_iff.1 taken
      obtain ⟨mine, there, control, token, free⟩ := spec.row
      have same := sound.single row member mine there (by rw [named, control, own])
        (sound.wire row member sent) (by rw [token]; rfl)
      rw [Table.eq_of_key member there same, free] at sent
      cases sent
    rw [unsent, after]
    decide
  | false =>
    cases before : keySent db key with
    | true =>
      rw [keySent_step step before]
      decide
    | false => cases keySent next key <;> decide

/-- Once a terminal of the turn is recorded, the turn is over. -/
theorem ends_over {target turn : String} (step : ControlStep hooks db event next)
    (ends : event.ends target turn) : Over next target turn := by
  cases step with
  | observed thread ended generation payload resident ran =>
    obtain ⟨rfl, rfl, recorded⟩ := ends
    exact Or.inl ((recordForResident_spec ran).terminal recorded)
  | @recovered _ control observed reader generation now answer ran =>
    cases answer with
    | error error => exact ends.elim
    | ok cancelled =>
      obtain ⟨rfl, _⟩ := ends
      exact Or.inr (recoverTerminal_spec ran).idle
  | failed _ error =>
    cases event <;> first | exact ends.elim | skip
    · obtain ⟨_, _, recorded⟩ := ends
      subst recorded
      exact error.elim
    · next control observed answer =>
      cases answer with
      | error error => exact ends.elim
      | ok _ => exact error.elim
  | accepted | started | claimed | began | finished | erred | other => exact ends.elim

/-- No authority of a turn is granted after the turn is over. -/
theorem over_run {last : StopDb σ} {events : List ControlEvent}
    {target turn : String} (run : Run (ControlStep hooks) db events last) (sound : Sound hooks db)
    (over_ : Over db target turn) (apart : ∀ event ∈ events, ¬event.touches target) :
    ∀ event ∈ events, ∀ key : InterruptKey, key.target = target → key.turn = turn →
      claims key event = false ∧ begins key event = false := by
  induction run with
  | nil => intro event member; cases member
  | @cons db middle last first events step _ ih =>
    intro event member key own named
    obtain rfl | later := List.mem_cons.1 member
    · subst own named
      constructor
      · by_contra claimed
        rw [Bool.not_eq_false] at claimed
        obtain ⟨control, found, rfl, rfl⟩ := claims_true claimed
        obtain ⟨token, spec⟩ := claimed_step step
        exact over_.refuses sound spec.valid
      · by_contra begun
        rw [Bool.not_eq_false] at begun
        obtain ⟨found, rfl, rfl⟩ := begins_true begun
        exact over_.refuses sound (began_step step).valid
    · refine ih (sound.step step) (over_.step step (apart first (List.mem_cons_self ..))) ?_ event
        later key own named
      exact fun event member => apart event (List.mem_cons_of_mem _ member)

/-- A settled control is settled in every later state. -/
theorem settled_run {last : StopDb σ} {events : List ControlEvent}
    (run : Run (ControlStep hooks) db events last) (sound : Sound hooks db) {id : String}
    {row : ControlRow} (found : db.rest.controls.find id = some row)
    (settled : row.phase = .settled) : ∃ later, last.rest.controls.find id = some later ∧
      later.control = row.control ∧ later.phase = .settled := by
  induction run generalizing row with
  | nil => exact ⟨row, found, rfl, settled⟩
  | cons step _ ih =>
    obtain ⟨settles, held⟩ := sound.settled row (Table.mem_of_find found) settled
    obtain ⟨middle, there, move⟩ := (step_effect step).moves.moved id row found
    obtain ⟨later, here, same, still⟩ :=
      ih (sound.step step) there (move.stays settled settles held)
    exact ⟨later, here, same.trans move.control, still⟩

theorem Sound.of_empty (empty : db.rest.controls.rows = []) : Sound hooks db := by
  constructor <;> (intro row member; rw [empty] at member; cases member)

/-- Whatever stops, starts, claims, wire requests, terminals and recoveries interleave: the
authority to interrupt one turn is claimed once and put on the wire once.  From every state that
they reach, none is granted once a terminal of the turn is recorded, a settled control stays
settled, and only a terminal of its own turn settles a control, while its jobs are held. -/
theorem interrupt_authority_one_use {hooks : StopHooks σ} {start db : StopDb σ}
    {events : List ControlEvent} (empty : start.rest.controls.rows = [])
    (run : Run (ControlStep hooks) start events db) :
    (∀ key, events.countP (claims key) ≤ 1 ∧ events.countP (begins key) ≤ 1) ∧
    (∀ event next more last target turn, ControlStep hooks db event next →
      event.ends target turn → Run (ControlStep hooks) next more last →
      (∀ later ∈ more, ¬later.touches target) → ∀ later ∈ more, ∀ resident generation,
        claims ⟨target, resident, generation, turn⟩ later = false ∧
          begins ⟨target, resident, generation, turn⟩ later = false) ∧
    (∀ more last, Run (ControlStep hooks) db more last → ∀ id row,
      db.rest.controls.find id = some row → row.phase = .settled →
      ∃ later, last.rest.controls.find id = some later ∧ later.control = row.control ∧
        later.phase = .settled) ∧
    (∀ event next, ControlStep hooks db event next → ∀ id later,
      next.rest.controls.find id = some later → later.phase = .settled →
      (∃ row, db.rest.controls.find id = some row ∧ row.phase = .settled) ∨
        (TerminalSeen hooks later.control event ∧ AllHeld hooks db later.control)) := by
  have guarded := run.guarded (Sound hooks) (fun _ _ _ step sound => sound.step step)
    (.of_empty empty)
  have sound : Sound hooks db :=
    run.preserves (Sound hooks) (fun _ _ _ step sound => sound.step step) (.of_empty empty)
  refine ⟨?_, ?_, ?_, ?_⟩
  · intro key
    have once := guarded.spends_le (fun db => (!keyClaimed db key).toNat) (claims key)
      (fun _ => false) fun _ _ _ step => claims_pay key step.2
    have sent := guarded.spends_le (fun db => (!keySent db key).toNat) (begins key)
      (fun _ => false) fun _ _ _ step => begins_pay key step.1 step.2
    have claimCredit := Bool.toNat_le (!keyClaimed start key)
    have wireCredit := Bool.toNat_le (!keySent start key)
    simp only [List.countP_false, Function.const_apply, Nat.add_zero] at once sent
    omega
  · intro event next more last target turn step ends after apart later member resident generation
    exact over_run after (sound.step step) (ends_over step ends) apart later member _ rfl rfl
  · intro more last after id row found settled
    exact settled_run after sound found settled
  · intro event next step id later found settled
    obtain fresh | ⟨row, member, move⟩ :=
      (step_effect step).moves.origin (Table.mem_of_find found)
    · rw [fresh.phase] at settled
      cases settled
    · by_cases before : row.phase = .settled
      · left
        refine ⟨row, ?_, before⟩
        rw [← Table.find_key found, move.operationId]
        exact Table.find_of_mem member
      · obtain ⟨seen, _, held⟩ := move.settles before settled
        rw [move.control]
        exact Or.inr ⟨seen, held⟩

/-! ## Checks that pass -/

/-- What a control of one running job needs of a store, its text being read as this value. -/
def originalStands (db : StopDb σ) (control : StopControl) (job : StoredQueueJob) (value : Json) :
    Bool :=
  !(recordRetired db control.operationId ||
      db.archive.blocked (some control.channel) (some control.target)) &&
    retained db control &&
    (validate db ⟨control.target, control.channel, control.owner⟩ control.binding none = .ok ()) &&
    !(db.rest.archiveFences.contains control.target ||
      terminalObserved db control.target control.turn) &&
    (value.get "state" = some (.text "Running")) && (jobIdOf value = some job.jobId) &&
    (selectJob db job.jobId = .ok job) && (job.completionEvidenceGeneration = control.generation) &&
    (job.turnId = some control.turn) && (job.channelId = control.channel) &&
    (job.ownerUserId = some control.owner) && (requireHeld db control.target value = .ok ())

theorem validateOriginal_stands
    {job : StoredQueueJob} {value : Json} (text : control.jobs = [hooks.jobText job])
    (read : hooks.parse (hooks.jobText job) = some value)
    (stands : originalStands db control job value = true) :
    validateOriginal hooks db control = .ok () := by
  simp only [originalStands, Bool.and_eq_true, Bool.not_eq_true', decide_eq_true_eq] at stands
  obtain ⟨⟨⟨⟨⟨⟨⟨⟨⟨⟨⟨free, kept⟩, valid⟩, unseen⟩, running⟩, named⟩, current⟩, generation⟩, turn⟩,
    channel⟩, owner⟩, held⟩ := stands
  have original : requireOriginal hooks db control (hooks.jobText job) value = .ok () := by
    simp [requireOriginal, required, named, current, generation, turn, channel, owner, bind, Except.bind]
  rw [validateOriginal, free, kept, valid, unseen, text]
  simp [readJson, read, running, original, held, bind, Except.bind, Except.map, pure, Except.pure]

def turnParams (control : StopControl) : Json :=
  .object [("threadId", .text control.target), ("turnId", .text control.turn)]

/-- The row of a claim that is being dispatched -/
def dispatching (db : StopDb σ) (claim : StopClaim) : Bool :=
  db.rest.controls.contains fun row => row.operationId = claim.control.operationId &&
    row.phase = .dispatching && row.claimToken = some claim.token

theorem validateClaim_stands {hooks : StopHooks σ} {db : StopDb σ} {claim : StopClaim}
    (valid : validateOriginal hooks db claim.control = .ok ())
    (token : claim.token.isEmpty = false) (there : dispatching db claim = true) :
    validateClaim hooks db (.ok claim) (claim.control.resident, claim.control.generation)
      (turnParams claim.control) = .ok claim := by
  have thread : (turnParams claim.control).get "threadId" = some (.text claim.control.target) := rfl
  have turn : (turnParams claim.control).get "turnId" = some (.text claim.control.turn) := rfl
  rw [dispatching] at there
  simp [validateClaim, valid, token, there, thread, turn, bind, Except.bind]

theorem claim_stands {token : String} (valid : validateOriginal hooks db control = .ok ())
    (update : updateControls db
      (fun row => row.operationId = control.operationId && row.phase = .accepted &&
        !keyClaimed db control.key)
      (fun row => { row with phase := .dispatching, claimToken := some token }) (fun _ => rfl) =
        (1, next))
    (later : validateOriginal hooks next control = .ok ()) (named : token.isEmpty = false)
    (there : dispatching next ⟨control, token⟩ = true) :
    claim hooks control (.ok ()) (.ok ()) token db = (.ok (some ⟨control, token⟩), next) := by
  have again : validateClaim hooks next (.ok ⟨control, token⟩)
      (control.resident, control.generation)
      (.object [("threadId", .text control.target), ("turnId", .text control.turn)]) =
        .ok ⟨control, token⟩ := @validateClaim_stands _ hooks next ⟨control, token⟩ later named there
  have result : claimIn hooks control (.ok ()) (.ok ()) token db =
      .ok (some ⟨control, token⟩, next) := by
    simp [claimIn, valid, update, again, bind, Except.bind]
  simp [claim, commitWhen, result]

theorem beginWire_stands {hooks : StopHooks σ} {db next : StopDb σ} {claim : StopClaim}
    {request : WireRequest} (valid : validateOriginal hooks db claim.control = .ok ())
    (update : updateControls db
      (fun row => row.operationId = claim.control.operationId &&
        row.claimToken = some claim.token && row.phase = .dispatching && row.wireAttempt = none &&
        row.wireId = none)
      (fun row => { row with wireAttempt := some request.1, wireId := some request.2 })
      (fun _ => rfl) = (1, next))
    (later : validateOriginal hooks next claim.control = .ok ())
    (named : (claim.token.isEmpty || request.1.isEmpty || request.2.isEmpty) = false)
    (there : dispatching db claim = true) (there' : dispatching next claim = true)
    (matches_ : wireMatches next claim (claim.control.resident, claim.control.generation) request =
      true) :
    beginWire hooks (.ok claim) (claim.control.resident, claim.control.generation) request
      (turnParams claim.control) db = (.ok (), next) := by
  simp only [Bool.or_eq_false_iff] at named
  have first := validateClaim_stands valid named.1.1 there
  have again := validateClaim_stands later named.1.1 there'
  have result : beginWireIn hooks (.ok claim) (claim.control.resident, claim.control.generation)
      request (turnParams claim.control) db = .ok ((), next) := by
    simp [beginWireIn, first, again, update, named, matches_, bind, Except.bind]
  simp [beginWire, commit, commitWhen, result]

/-! ## A stop of one running turn -/

def stoppedRow : QueueRow where
  jobId := "job"
  targetThreadId := "thread"
  channelId := 7
  ownerUserId := some 1
  discordMessageId := some 42
  appServerGeneration := 3
  executionGeneration := some 3
  prompt := "prompt"
  queued := false
  ackSent := true
  state := .running
  attemptCount := 1
  turnId := some "turn"
  baselineTurnIds := .turns []
  lastError := ""
  createdAt := 0
  updatedAt := 0
  goalWaiting := false
  turnObservationGeneration := some 3

def oneRunning : StopDb Unit where
  archive := .empty
  jobs := ⟨[stoppedRow], List.nodup_singleton _⟩
  intakes := .empty
  cancellations := .empty
  holds := .empty
  handoffs := .empty
  ingress := .empty
  outbox := .empty
  deadTargets := []
  incidents := []
  runtime := none
  exactRouting := false
  rest := ⟨.start, .empty, [], .empty, [], [], ()⟩

def stopBinding : Json :=
  .object
    [("command", .object [("Stop", .object [("reference", .text "thread")])]),
      ("route", .text "Explicit"), ("target", .text "thread")]

def stopCall : StopCall where
  file := .present
  scope := ⟨"thread", 7, 1⟩
  binding := stopBinding
  expected := none
  selectedBefore := .ok ()
  selectedAfter := .ok ()
  id := "id"
  now := 0

def stopNotice : Json :=
  .object
    [("threadId", .text "thread"),
      ("turn", .object [("id", .text "turn"), ("status", .text "interrupted")])]

def stoppedTurn : StopControl where
  operationId := "stop:id"
  target := "thread"
  channel := 7
  owner := 1
  resident := "resident"
  generation := 3
  turn := "turn"
  binding := stopBinding
  jobs := (stoppedRow.decode.toOption.map Stop.plainText).toList
  canSettle := true

def acceptedStop : Except StoreError (Option StopControl) × StopDb Unit :=
  acceptRunning (quietStops stopNotice) stopCall "resident" 3 oneRunning

def claimedStop : Except StoreError (Option StopClaim) × StopDb Unit :=
  claim (quietStops stopNotice) stoppedTurn (.ok ()) (.ok ()) "token" acceptedStop.2

def begunStop : Except StoreError Unit × StopDb Unit :=
  beginWire (quietStops stopNotice) (.ok ⟨stoppedTurn, "token"⟩) ("resident", 3) ("attempt", "wire")
    (.object [("threadId", .text "thread"), ("turnId", .text "turn")]) claimedStop.2

def stopEvents : List ControlEvent :=
  [.accepted acceptedStop.1, .claimed stoppedTurn claimedStop.1,
    .began (.ok ⟨stoppedTurn, "token"⟩) begunStop.1]

def stoppedJob : StoredQueueJob where
  jobId := "job"
  targetThreadId := "thread"
  channelId := 7
  ownerUserId := some 1
  discordMessageId := some 42
  appServerGeneration := 3
  executionGeneration := some 3
  turnObservationGeneration := some 3
  goalWaiting := false
  prompt := "prompt"
  queued := false
  ackSent := true
  state := .running
  attemptCount := 1
  turnId := some "turn"
  baselineTurnIds := []
  lastError := ""
  createdAt := 0
  updatedAt := 0

/-- What is read of its text -/
def stoppedValue : Json := { stoppedJob with createdAt := 0, updatedAt := 0 }.value

theorem quietStops_read (notice : Json) (job : StoredQueueJob) :
    (quietStops notice).parse ((quietStops notice).jobText job) =
      some { job with createdAt := 0, updatedAt := 0 }.value := by
  have apart : wordsJob (splitWords "notice".toList) = none := by decide +kernel
  simp only [quietStops, plainParse_plainText notice apart job]

theorem stoppedRow_decode : stoppedRow.decode = .ok stoppedJob := by decide +kernel

/-- The store once the claim is recorded -/
def claimedStore : StopDb Unit :=
  (updateControls acceptedStop.2
    (fun row => row.operationId = stoppedTurn.operationId && row.phase = .accepted &&
      !keyClaimed acceptedStop.2 stoppedTurn.key)
    (fun row => { row with phase := .dispatching, claimToken := some "token" }) (fun _ => rfl)).2

/-- The store once the wire request is recorded -/
def wiredStore : StopDb Unit :=
  (updateControls claimedStore
    (fun row => row.operationId = stoppedTurn.operationId && row.claimToken = some "token" &&
      row.phase = .dispatching && row.wireAttempt = none && row.wireId = none)
    (fun row => { row with wireAttempt := some "attempt", wireId := some "wire" }) (fun _ => rfl)).2

theorem stop_ran : claimedStop = (.ok (some ⟨stoppedTurn, "token"⟩), claimedStore) ∧
    begunStop = (.ok (), wiredStore) := by
  obtain ⟨stands, stands', stands'', claimed, began, there, there', wired⟩ :
      originalStands acceptedStop.2 stoppedTurn stoppedJob stoppedValue = true ∧
      originalStands claimedStore stoppedTurn stoppedJob stoppedValue = true ∧
      originalStands wiredStore stoppedTurn stoppedJob stoppedValue = true ∧
      (updateControls acceptedStop.2
        (fun row => row.operationId = stoppedTurn.operationId && row.phase = .accepted &&
          !keyClaimed acceptedStop.2 stoppedTurn.key)
        (fun row => { row with phase := .dispatching, claimToken := some "token" })
        (fun _ => rfl)).1 = 1 ∧
      (updateControls claimedStore
        (fun row => row.operationId = stoppedTurn.operationId && row.claimToken = some "token" &&
          row.phase = .dispatching && row.wireAttempt = none && row.wireId = none)
        (fun row => { row with wireAttempt := some "attempt", wireId := some "wire" })
        (fun _ => rfl)).1 = 1 ∧
      dispatching claimedStore ⟨stoppedTurn, "token"⟩ = true ∧
      dispatching wiredStore ⟨stoppedTurn, "token"⟩ = true ∧
      wireMatches wiredStore ⟨stoppedTurn, "token"⟩ ("resident", 3) ("attempt", "wire") = true := by
    decide +kernel
  have text : stoppedTurn.jobs = [(quietStops stopNotice).jobText stoppedJob] := by
    rw [stoppedTurn, stoppedRow_decode]
    rfl
  have read := quietStops_read stopNotice stoppedJob
  have valid := validateOriginal_stands text read stands'
  have claim_ran : claimedStop = (.ok (some ⟨stoppedTurn, "token"⟩), claimedStore) :=
    claim_stands (validateOriginal_stands text read stands) (Prod.ext claimed (by rw [claimedStore]))
      valid (by decide +kernel) there
  refine ⟨claim_ran, ?_⟩
  rw [begunStop, claim_ran]
  exact @beginWire_stands _ _ _ wiredStore ⟨stoppedTurn, "token"⟩ ("attempt", "wire") valid
    (Prod.ext began (by rw [wiredStore])) (validateOriginal_stands text read stands'')
    (by decide +kernel) there there' wired

/-- The stop is accepted, claimed and put on the wire, once each. -/
theorem stop_sent_once : stopEvents.countP (claims stoppedTurn.key) = 1 ∧
    stopEvents.countP (begins stoppedTurn.key) = 1 ∧
    stopEvents.countP (claims stoppedTurn.key) ≤ 1 ∧
    stopEvents.countP (begins stoppedTurn.key) ≤ 1 := by
  have run : Run (ControlStep (quietStops stopNotice)) oneRunning stopEvents begunStop.2 :=
    .cons (.accepted stopCall "resident" 3 (Prod.eta _).symm)
      (.cons (.claimed stoppedTurn (.ok ()) (.ok ()) "token" (Prod.eta _).symm)
        (.single (.began _ ("resident", 3) ("attempt", "wire") _ (Prod.eta _).symm)))
  have counts : stopEvents.countP (claims stoppedTurn.key) = 1 ∧
      stopEvents.countP (begins stoppedTurn.key) = 1 := by
    rw [stopEvents, stop_ran.1, stop_ran.2]
    simp [claims, begins]
  exact ⟨counts.1, counts.2, (interrupt_authority_one_use rfl run).1 stoppedTurn.key⟩

end CodexRemote.Verified.StopControl

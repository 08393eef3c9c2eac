import CodexRemote.Store.Ingress.StopRevision
import CodexRemote.Verified.MutationAttempts.Journal

/-! # The clock of the stops

What a stop writes, what a capture and a check read.
-/

namespace CodexRemote.Verified.StopRevision

open Foundations Store Store.StopRevision

/-- The clock is the greatest revision of a receipt, or zero without one. -/
def Greatest (clock : Int) (stops : StopRevisions) : Prop :=
  (∀ receipt ∈ stops.receipts.rows, receipt.revision ≤ clock) ∧
    ((clock = 0 ∧ stops.receipts.rows = []) ∨
      ∃ receipt ∈ stops.receipts.rows, receipt.revision = clock)

section

variable {stops next : StopRevisions} {current latest revision : Int} {target : String}
  {some? : Option String} {captured : Json}

theorem currentIn_ok : currentIn stops = .ok current ↔
    stops.clock = some current ∧ 0 ≤ current ∧ current = greatest stops := by
  simp only [currentIn]
  cases clock : stops.clock with
  | none => simp
  | some now =>
    simp only [Option.some.injEq]
    split
    · next wrong =>
      simp only [reduceCtorEq, false_iff]
      intro right
      obtain ⟨rfl, positive, same⟩ := right
      simp only [Bool.or_eq_true, decide_eq_true_eq] at wrong
      obtain negative | other := wrong
      · omega
      · exact other same
    · next right =>
      simp only [Bool.or_eq_true, decide_eq_true_eq, not_or, not_not] at right
      constructor
      · intro same
        cases same
        exact ⟨rfl, Int.not_lt.1 right.1, right.2⟩
      · intro same
        rw [same.1]

theorem greatest_spec : Greatest (greatest stops) stops := by
  simp only [Greatest, greatest]
  cases top : (stops.receipts.rows.map (·.revision)).max? with
  | none =>
    have empty : stops.receipts.rows = [] := by simpa using List.max?_eq_none_iff.1 top
    simp [empty]
  | some top? =>
    obtain ⟨there, above⟩ := List.max?_eq_some_iff.1 top
    obtain ⟨receipt, inside, same⟩ := List.mem_map.1 there
    refine ⟨?_, Or.inr ⟨receipt, inside, same⟩⟩
    intro other here
    exact above _ (List.mem_map_of_mem here)

/-- The latest revision of a target is that of its last receipt. -/
theorem targetIn_ok (read : targetIn target stops = .ok latest) :
    ∀ receipt ∈ stops.receipts.rows, receipt.targetThreadId = target →
      receipt.revision ≤ latest := by
  intro receipt there own
  have order := (stops.receipts.select (·.targetThreadId = target)).mergeSort_perm
    fun a b => b.revision ≤ a.revision
  have inside : receipt ∈ (stops.receipts.select (·.targetThreadId = target)).mergeSort
      fun a b => b.revision ≤ a.revision :=
    order.mem_iff.2 (List.mem_filter.2 ⟨there, by simpa using own⟩)
  simp only [targetIn] at read
  obtain ⟨same, read⟩ := guard_ok.1 read
  cases read
  rw [not_ne_iff.1 same, history]
  have sorted := @List.pairwise_mergeSort _
    (fun a b : RevisionReceipt => decide (b.revision ≤ a.revision))
    (by simp only [decide_eq_true_eq]; intro a b c; omega)
    (by simp only [Bool.or_eq_true, decide_eq_true_eq]; intro a b; omega)
    (stops.receipts.select (·.targetThreadId = target))
  generalize (stops.receipts.select (·.targetThreadId = target)).mergeSort
    (fun a b => b.revision ≤ a.revision) = list at inside sorted
  cases list with
  | nil => cases inside
  | cons first rest =>
    simp only [List.head?_cons, Option.map_some, Option.getD_some]
    obtain same | later := List.mem_cons.1 inside
    · exact Int.le_of_eq (congrArg RevisionReceipt.revision same)
    · exact of_decide_eq_true ((List.pairwise_cons.1 sorted).1 receipt later)

/-- What an advance of a target writes. -/
structure Advanced (target : String) (stops next : StopRevisions) (current : Int) : Prop where
  before : currentIn stops = .ok current
  after : currentIn next = .ok (current + 1)
  receipts : ∃ receipt, next.receipts.rows = stops.receipts.rows ++ [receipt] ∧
    receipt.targetThreadId = target ∧ receipt.revision = current + 1

theorem record_ok {operation : String} {scopeJson : Json} {receipt : RevisionReceipt}
    (ran : record target operation scopeJson stops = .ok (receipt, next)) :
    ∃ current, Advanced target stops next current := by
  simp only [record] at ran
  obtain ⟨current, before, ran⟩ := bind_ok.1 ran
  obtain ⟨_, _, ran⟩ := bind_ok.1 ran
  obtain ⟨revision, following, ran⟩ := bind_ok.1 ran
  obtain ⟨written, writes, ran⟩ := bind_ok.1 ran
  obtain ⟨_, verified, ran⟩ := bind_ok.1 ran
  cases ran
  have successor : revision = current + 1 := by
    simp only [nextRevision] at following
    obtain ⟨_, following⟩ := guard_ok.1 following
    cases following
    rfl
  refine ⟨current, before, ?_, ?_⟩
  · simp only [verifyIn] at verified
    obtain ⟨now, reads, verified⟩ := bind_ok.1 verified
    obtain ⟨same, verified⟩ := guard_ok.1 verified
    rw [reads, not_ne_iff.1 same, successor]
  · simp only [writeAdvance] at writes
    split_ifs at writes
    split at writes
    · cases writes
    · next receipts inserted =>
      cases writes
      exact ⟨_, (Table.insert_some inserted).1, rfl, successor⟩

theorem advanceIn_ok {scope : StopScope} {binding : Json} {stopped : StopReceipt}
    {operation : String} {hadPreparing : Bool} {receipt : RevisionReceipt}
    (ran : advanceIn scope binding stopped operation hadPreparing stops = .ok (receipt, next)) :
    ∃ current, Advanced scope.target stops next current := by
  simp only [advanceIn] at ran
  obtain ⟨_, ran⟩ := guard_ok.1 ran
  exact record_ok ran

theorem recordRecoveryIn_ok {scope : StopScope} {jobs : List String} {cancelledAt : Rat}
    {id : String} (ran : recordRecoveryIn scope jobs cancelledAt id stops = .ok next) :
    ∃ current, Advanced scope.target stops next current := by
  simp only [recordRecoveryIn] at ran
  obtain ⟨⟨receipt, written⟩, recorded, same⟩ := map_ok.1 ran
  cases same
  exact record_ok recorded

theorem captureIn_ok (ran : captureIn some? stops = .ok captured) :
    ∃ revision, currentIn stops = .ok revision ∧ captured = origin some? revision := by
  simp only [captureIn] at ran
  obtain ⟨revision, now, ran⟩ := bind_ok.1 ran
  obtain ⟨_, _, ran⟩ := bind_ok.1 ran
  cases ran
  exact ⟨revision, now, rfl⟩

theorem originRevision_origin {other : Option String}
    (reads : originRevision some? (some (origin other revision)) = .ok current) :
    current = revision := by
  have read : originRevision some? (some (origin other revision)) =
      if (some (targetJson other)).any fun found => found.same (targetJson some?) then .ok revision
      else .error refused := rfl
  rw [read] at reads
  split at reads
  · cases reads
    rfl
  · cases reads

/-- A request that passes is not below the latest revision of its target. -/
theorem validateIn_ok {given : Option Json}
    (ran : validateIn (some target) given stops = .ok ()) :
    ∃ revision, originRevision (some target) given = .ok revision ∧
      ∀ receipt ∈ stops.receipts.rows, receipt.targetThreadId = target →
        receipt.revision ≤ revision := by
  simp only [validateIn] at ran
  obtain ⟨revision, read, ran⟩ := bind_ok.1 ran
  obtain ⟨_, ran⟩ := guard_ok.1 ran
  obtain ⟨_, _, ran⟩ := bind_ok.1 ran
  obtain ⟨_, ran⟩ := guard_ok.1 ran
  obtain ⟨latest, last, ran⟩ := bind_ok.1 ran
  obtain ⟨recent, ran⟩ := guard_ok.1 ran
  refine ⟨revision, read, ?_⟩
  intro receipt there own
  have bound := targetIn_ok last receipt there own
  omega

/-! ## Advances that go through -/

/-- The clock is that of the receipts, and so is the latest revision of every target. -/
structure Consistent (stops : StopRevisions) : Prop where
  clock : ∃ current, currentIn stops = .ok current
  latest : ∀ target, ∃ revision, targetIn target stops = .ok revision

theorem Consistent.start : Consistent .start := by
  refine ⟨⟨0, ?_⟩, fun target => ⟨0, ?_⟩⟩
  · rfl
  · simp [targetIn, history, StopRevisions.start, Table.empty, Table.find, Table.select]

/-- A receipt above all others is the last one of its target. -/
theorem history_newest {receipt : RevisionReceipt}
    (rows : next.receipts.rows = stops.receipts.rows ++ [receipt])
    (newest : ∀ old ∈ stops.receipts.rows, old.revision < receipt.revision) :
    history receipt.targetThreadId next = some (receipt.revision, receipt.operationId) := by
  have order := (next.receipts.select (·.targetThreadId = receipt.targetThreadId)).mergeSort_perm
    fun a b => b.revision ≤ a.revision
  have sorted := @List.pairwise_mergeSort _
    (fun a b : RevisionReceipt => decide (b.revision ≤ a.revision))
    (by simp only [decide_eq_true_eq]; intro a b c; omega)
    (by simp only [Bool.or_eq_true, decide_eq_true_eq]; intro a b; omega)
    (next.receipts.select (·.targetThreadId = receipt.targetThreadId))
  have inside : receipt ∈ next.receipts.select (·.targetThreadId = receipt.targetThreadId) :=
    List.mem_filter.2 ⟨by rw [rows]; simp, by simp⟩
  rw [history]
  generalize (next.receipts.select (·.targetThreadId = receipt.targetThreadId)).mergeSort
    (fun a b => b.revision ≤ a.revision) = list at order sorted
  have inside := order.mem_iff.2 inside
  cases list with
  | nil => cases inside
  | cons first rest =>
    have there := (List.mem_filter.1 (order.mem_iff.1 (List.mem_cons_self ..))).1
    have same : first = receipt := by
      obtain same | later := List.mem_cons.1 inside
      · exact same.symm
      · have above := of_decide_eq_true ((List.pairwise_cons.1 sorted).1 receipt later)
        rw [rows] at there
        obtain old | own := List.mem_append.1 there
        · have below := newest first old
          omega
        · exact List.mem_singleton.1 own
    rw [List.head?_cons, Option.map_some, same]

theorem greatest_newest {receipt : RevisionReceipt}
    (rows : next.receipts.rows = stops.receipts.rows ++ [receipt])
    (newest : ∀ old ∈ stops.receipts.rows, old.revision < receipt.revision) :
    greatest next = receipt.revision := by
  obtain ⟨above, ⟨_, empty⟩ | ⟨top, there, same⟩⟩ := @greatest_spec next
  · rw [rows] at empty
    simp at empty
  · have bound := above receipt (by rw [rows]; simp)
    rw [rows] at there
    obtain old | own := List.mem_append.1 there
    · have below := newest top old
      omega
    · rw [← same, List.mem_singleton.1 own]

/-- What an advance leaves: the next revision, with its receipt, for its target. -/
structure Recorded (target operation : String) (stops : StopRevisions) (receipt : RevisionReceipt)
    (next : StopRevisions) : Prop where
  operation : receipt.operationId = operation
  rows : next.receipts.rows = stops.receipts.rows ++ [receipt]
  verified : verifyIn receipt next = .ok ()
  consistent : Consistent next

theorem record_accepts {operation : String} (consistent : Consistent stops) (scopeJson : Json)
    (room : ∀ now, stops.clock = some now → now < (i64Max : Int))
    (unused : stops.receipts.find operation = none) :
    ∃ receipt next, record target operation scopeJson stops = .ok (receipt, next) ∧
      Recorded target operation stops receipt next := by
  obtain ⟨now, reads⟩ := consistent.clock
  obtain ⟨clock, positive, top⟩ := currentIn_ok.1 reads
  obtain ⟨latest, read⟩ := consistent.latest target
  have bound : ∀ old ∈ stops.receipts.rows, old.revision ≤ now := by
    rw [top]
    exact greatest_spec.1
  have free : ∃ receipts, stops.receipts.insert ⟨operation, target, now + 1, scopeJson⟩ =
      some receipts := by
    refine ⟨_, if_neg fun taken => ?_⟩
    obtain ⟨old, there, same⟩ := List.mem_map.1 taken
    exact Table.find_none_iff.1 unused old there same
  obtain ⟨receipts, inserted⟩ := free
  obtain ⟨rows, _⟩ := Table.insert_some inserted
  let receipt : RevisionReceipt := ⟨operation, target, now + 1, scopeJson⟩
  let written : StopRevisions :=
    { clock := some (now + 1)
      latest := stops.latest.put ⟨target, now + 1, operation⟩
      receipts := receipts }
  have newest : ∀ old ∈ stops.receipts.rows, old.revision < receipt.revision := by
    intro old there
    have := bound old there
    show old.revision < now + 1
    omega
  have current : currentIn written = .ok (now + 1) :=
    currentIn_ok.2 ⟨rfl, by omega, (@greatest_newest stops written receipt rows newest).symm⟩
  have own : targetIn target written = .ok (now + 1) := by
    have last : history target written = some (now + 1, operation) :=
      @history_newest stops written receipt rows newest
    have put : written.latest.find target = some ⟨target, now + 1, operation⟩ := by
      rw [Table.find_put, if_pos rfl]
    rw [targetIn, last, put]
    exact if_neg (fun apart => apart rfl)
  have others : ∀ other, other ≠ target → targetIn other written = targetIn other stops := by
    intro other apart
    have same : written.latest.find other = stops.latest.find other := by
      rw [Table.find_put, if_neg (Ne.symm apart)]
    have selected : written.receipts.select (·.targetThreadId = other) =
        stops.receipts.select (·.targetThreadId = other) := by
      show List.filter _ receipts.rows = _
      rw [rows, List.filter_append]
      simp [Ne.symm apart, Table.select]
    have last : history other written = history other stops := by rw [history, selected, history]
    rw [targetIn, last, same, targetIn]
  have kept : written.receipts.contains (fun saved => saved.operationId = receipt.operationId &&
      saved.targetThreadId = receipt.targetThreadId && saved.revision = receipt.revision &&
      saved.scopeJson.same receipt.scopeJson) = true := by
    refine List.any_eq_true.2 ⟨receipt, ?_, by simp [Json.same_self]⟩
    show receipt ∈ receipts.rows
    rw [rows]
    simp [receipt]
  have verified : verifyIn receipt written = .ok () := by
    simp only [verifyIn, kept]
    refine bind_ok.2 ⟨_, current, ?_⟩
    rw [if_neg (fun apart => apart rfl)]
    refine bind_ok.2 ⟨_, own, ?_⟩
    exact if_neg (by simp [receipt])
  refine ⟨receipt, written, ?_, rfl, rows, verified, ⟨_, current⟩, ?_⟩
  · have limit := room now clock
    refine bind_ok.2 ⟨now, reads, bind_ok.2 ⟨(), ?_, bind_ok.2 ⟨now + 1, ?_, bind_ok.2 ⟨written, ?_,
      bind_ok.2 ⟨(), verified, rfl⟩⟩⟩⟩⟩
    · rw [readTarget, read]
      rfl
    · rw [nextRevision, if_neg (by omega)]
    · have unseen : stops.receipts.contains
          (fun old => old.revision = (now + 1 : Int)) = false := by
        refine List.any_eq_false.2 fun old there => ?_
        have := bound old there
        simp only [decide_eq_true_eq]
        omega
      rw [writeAdvance, if_neg (by rw [clock]; simp), if_neg (by simp; omega)]
      simp only [unseen, inserted, Bool.false_eq_true, if_false]
      rfl
  · intro other
    by_cases same : other = target
    · exact ⟨_, same ▸ own⟩
    · rw [others other same]
      exact consistent.latest other

/-- An advance that went through left what it had to. -/
theorem record_recorded {operation : String} {scopeJson : Json} {receipt : RevisionReceipt}
    (consistent : Consistent stops)
    (ran : record target operation scopeJson stops = .ok (receipt, next)) :
    Recorded target operation stops receipt next := by
  have result := ran
  simp only [record] at result
  obtain ⟨now, reads, result⟩ := bind_ok.1 result
  obtain ⟨_, _, result⟩ := bind_ok.1 result
  obtain ⟨revision, following, result⟩ := bind_ok.1 result
  obtain ⟨written, writes, _⟩ := bind_ok.1 result
  have room : ∀ other, stops.clock = some other → other < (i64Max : Int) := by
    intro other clock
    rw [(currentIn_ok.1 reads).1] at clock
    cases clock
    rw [nextRevision] at following
    obtain ⟨below, _⟩ := guard_ok.1 following
    omega
  have unused : stops.receipts.find operation = none := by
    simp only [writeAdvance] at writes
    split_ifs at writes
    split at writes
    · cases writes
    · next receipts inserted =>
      refine Table.find_none_iff.2 fun old there same => ?_
      exact (Table.insert_some inserted).2 (List.mem_map.2 ⟨old, there, same⟩)
  obtain ⟨_, _, again, recorded⟩ := record_accepts consistent scopeJson room unused
  rw [ran] at again
  cases again
  exact recorded

end

/-! ## Stops are ordered against mutations

A stop takes the next revision of the clock, and its receipt stays.  So an origin that was captured
before it is below the latest revision of the stop's target.
-/

open Store.MutationAttempts

structure OrderSystem where
  stops : StopRevisions
  journal : MutationJournal

def OrderSystem.start : OrderSystem := ⟨.start, .empty⟩

inductive OrderEvent where
  | captured (target : Option String) (origin : Json)
  | stopped (target : String)
  | cancelled (target : String)
  | begun (attempt : NewAttempt) (origin : Option Json)
  | elsewhere

/-- The event is a stop or a recovery cancellation of the target. -/
def OrderEvent.covers (target : String) (event : OrderEvent) : Prop :=
  event = .stopped target ∨ event = .cancelled target

/-- Each step is a transaction that commits. -/
inductive OrderStep : OrderSystem → OrderEvent → OrderSystem → Prop where
  | capture {system : OrderSystem} {target : Option String} {origin : Json}
      (ran : captureIn target system.stops = .ok origin) :
      OrderStep system (.captured target origin) system
  | stop {system : OrderSystem} {scope : StopScope} {binding : Json} {receipt : StopReceipt}
      {operation : String} {hadPreparing : Bool} {record : RevisionReceipt} {next : StopRevisions}
      (ran : advanceIn scope binding receipt operation hadPreparing system.stops =
        .ok (record, next)) :
      OrderStep system (.stopped scope.target) { system with stops := next }
  | cancel {system : OrderSystem} {scope : StopScope} {jobs : List String} {cancelledAt : Rat}
      {id : String} {next : StopRevisions}
      (ran : recordRecoveryIn scope jobs cancelledAt id system.stops = .ok next) :
      OrderStep system (.cancelled scope.target) { system with stops := next }
  | begin {system : OrderSystem} {archive : AttemptArchive} {digest : Json → String}
      {attempt : NewAttempt} {origin : Option Json} {now : Rat} {next : MutationJournal}
      (ran : beginChecked archive digest
        (fun _ => validateIn attempt.targetThreadId origin system.stops) attempt now
        system.journal = .ok next) :
      OrderStep system (.begun attempt origin) { system with journal := next }
  /-- The journal moves on. -/
  | elsewhere {system : OrderSystem} {next : MutationJournal} :
      OrderStep system .elsewhere { system with journal := next }

abbrev OrderRun (system : OrderSystem) (events : List OrderEvent) (next : OrderSystem) : Prop :=
  Run OrderStep system events next

section

variable {system after : OrderSystem} {event : OrderEvent} {events : List OrderEvent}
  {revision : Int} {target : String}

/-- A step keeps the stops, or advances them for the target of the event. -/
theorem OrderStep.stops (step : OrderStep system event after) :
    (after.stops = system.stops ∧ ∀ target, ¬event.covers target) ∨
      ∃ target current, Advanced target system.stops after.stops current ∧
        ∀ other, event.covers other → other = target := by
  cases step with
  | capture | begin | elsewhere => exact Or.inl ⟨rfl, by simp [OrderEvent.covers]⟩
  | @stop scope _ _ _ _ _ _ ran =>
    obtain ⟨current, advanced⟩ := advanceIn_ok ran
    refine Or.inr ⟨scope.target, current, advanced, ?_⟩
    intro other covers
    simpa [OrderEvent.covers, eq_comm] using covers
  | @cancel scope _ _ _ _ ran =>
    obtain ⟨current, advanced⟩ := recordRecoveryIn_ok ran
    refine Or.inr ⟨scope.target, current, advanced, ?_⟩
    intro other covers
    simpa [OrderEvent.covers, eq_comm] using covers

theorem clock_run (run : OrderRun .start events system) :
    ∃ current, currentIn system.stops = .ok current := by
  refine run.preserves (fun system => ∃ current, currentIn system.stops = .ok current) ?_ ⟨0, rfl⟩
  intro u event v step known
  obtain ⟨same, _⟩ | ⟨_, current, advanced, _⟩ := step.stops
  · rw [same]
    exact known
  · exact ⟨current + 1, advanced.after⟩

/-- From a revision of the clock on, the stops leave receipts above it. -/
theorem receipts_run (run : OrderRun system events after)
    (now : currentIn system.stops = .ok revision) :
    (∃ current, currentIn after.stops = .ok current ∧ revision ≤ current) ∧
      ∀ target, (∃ event ∈ events, event.covers target) →
        ∃ receipt ∈ after.stops.receipts.rows, receipt.targetThreadId = target ∧
          revision < receipt.revision := by
  refine run.records (fun past v => (∃ current, currentIn v.stops = .ok current ∧
      revision ≤ current) ∧ ∀ target, (∃ event ∈ past, event.covers target) →
        ∃ receipt ∈ v.stops.receipts.rows, receipt.targetThreadId = target ∧
          revision < receipt.revision) ?_ ⟨⟨revision, now, Int.le_refl _⟩, ?_⟩
  · intro past u event v _ step known
    obtain ⟨⟨current, clock, above⟩, receipts⟩ := known
    obtain ⟨same, uncovered⟩ | ⟨stopped, before, advanced, covered⟩ := step.stops
    · rw [same]
      refine ⟨⟨current, clock, above⟩, ?_⟩
      intro target covers
      obtain ⟨other, inside, covers⟩ := covers
      obtain older | new := List.mem_append.1 inside
      · exact receipts target ⟨other, older, covers⟩
      · rw [List.mem_singleton.1 new] at covers
        exact absurd covers (uncovered target)
    · cases clock.symm.trans advanced.before
      obtain ⟨receipt, rows, own, next⟩ := advanced.receipts
      refine ⟨⟨current + 1, advanced.after, by omega⟩, ?_⟩
      intro target covers
      obtain ⟨other, inside, covers⟩ := covers
      rw [rows]
      obtain older | new := List.mem_append.1 inside
      · obtain ⟨old, there, its, later⟩ := receipts target ⟨other, older, covers⟩
        exact ⟨old, List.mem_append_left _ there, its, later⟩
      · rw [List.mem_singleton.1 new] at covers
        refine ⟨receipt, List.mem_append_right _ (List.mem_singleton_self _), ?_, by omega⟩
        rw [own, covered target covers]
  · intro target covers
    obtain ⟨event, none, _⟩ := covers
    cases none

/-- A begin that passes at a revision of its origin follows no stop since that revision. -/
theorem uncovered_since {given : Option Json} {before : OrderSystem}
    (since : OrderRun before events system) (now : currentIn before.stops = .ok revision)
    (validated : validateIn (some target) given system.stops = .ok ())
    (reads : ∀ read, originRevision (some target) given = .ok read → read = revision) :
    ∀ event ∈ events, ¬event.covers target := by
  intro event inside covers
  obtain ⟨receipt, there, own, above⟩ := (receipts_run since now).2 target ⟨event, inside, covers⟩
  obtain ⟨read, found, bound⟩ := validateIn_ok validated
  have below := bound receipt there own
  rw [reads read found] at below
  omega

end

/-- A mutation is committed under an origin only if no stop or recovery cancellation of its target
was committed since the capture; without an origin, only if none ever was.  The clock is the
greatest revision of a receipt, and each of them raises it. -/
theorem stop_orders_mutations {events : List OrderEvent} {system : OrderSystem}
    (run : OrderRun .start events system) :
    (∃ clock, system.stops.clock = some clock ∧ Greatest clock system.stops) ∧
      ∀ past before event after later, events = past ++ event :: later →
        OrderRun .start past before → OrderStep before event after → OrderRun after later system →
          (∀ target, event.covers target → ∃ old new, before.stops.clock = some old ∧
            after.stops.clock = some new ∧ old < new) ∧
          ∀ attempt origin target, event = .begun attempt origin →
            attempt.targetThreadId = some target →
              match origin with
              | none => ∀ earlier ∈ past, ¬earlier.covers target
              | some origin => ∀ first captured mid,
                  past = first ++ .captured captured origin :: mid →
                    ∀ earlier ∈ mid, ¬earlier.covers target := by
  refine ⟨?_, ?_⟩
  · obtain ⟨current, now⟩ := clock_run run
    obtain ⟨clock, _, greatest⟩ := currentIn_ok.1 now
    exact ⟨current, clock, greatest ▸ greatest_spec⟩
  intro past before event after later _ front step _
  refine ⟨?_, ?_⟩
  · intro target covers
    obtain ⟨_, uncovered⟩ | ⟨_, current, advanced, _⟩ := step.stops
    · exact absurd covers (uncovered target)
    · exact ⟨current, current + 1, (currentIn_ok.1 advanced.before).1,
        (currentIn_ok.1 advanced.after).1, by omega⟩
  · intro attempt origin target begins targets
    subst begins
    cases step with
    | begin ran =>
      have validated := (MutationAttempts.beginChecked_ok ran).2.1
      rw [targets] at validated
      cases origin with
      | none =>
        refine uncovered_since front (rfl : currentIn StopRevisions.start = .ok 0) validated ?_
        intro read found
        cases found
        rfl
      | some origin =>
        intro first captured mid split
        rw [split] at front
        obtain ⟨start, _, _, capture, since⟩ := front.split_at
        cases capture with
        | capture captures =>
          obtain ⟨revision, now, same⟩ := captureIn_ok captures
          refine uncovered_since since now validated ?_
          intro read found
          rw [same] at found
          exact originRevision_origin found

/-! A request of one target is admitted, another target is stopped, and the request is begun. -/

def stopAsked : Except StoreError (RevisionReceipt × StopRevisions) :=
  advanceIn ⟨"stopped", 1, 2⟩ .null ⟨[], []⟩ "stop" false .start

def stopped : StopRevisions := stopAsked.toOption.elim .start (·.2)

theorem stop_advanced : ∃ record, stopAsked = .ok (record, stopped) := by
  have fine : stopAsked.isOk = true := by decide +kernel
  rw [stopped]
  generalize stopAsked = asked at fine
  cases asked with
  | error error => cases fine
  | ok advanced => exact ⟨advanced.1, rfl⟩

theorem example_captured : captureIn (some "thread") .start = .ok (origin (some "thread") 0) := by
  have current : currentIn .start = .ok 0 := rfl
  have unstopped : targetIn "thread" .start = .ok 0 := by decide +kernel
  simp only [captureIn, readTarget, current, unstopped]
  rfl

theorem example_valid :
    validateIn (some "thread") (some (origin (some "thread") 0)) stopped = .ok () := by
  have current : currentIn stopped = .ok 1 := by decide +kernel
  have read : originRevision (some "thread") (some (origin (some "thread") 0)) = .ok 0 := rfl
  have unstopped : targetIn "thread" stopped = .ok 0 := by decide +kernel
  simp only [validateIn, read, current, unstopped]
  rfl

def exampleArchive : AttemptArchive := ⟨fun _ => false, fun _ => false, fun _ => true⟩

def exampleStart : NewAttempt :=
  ⟨"runtime", "owner", 1, "attempt", "wire", "turn/start", some "thread", true, .null⟩

def exampleJournal : MutationJournal := { MutationJournal.empty with runtime := some "runtime" }

theorem example_begin : beginChecked exampleArchive (fun _ => "")
    (fun _ => validateIn (some "thread") (some (origin (some "thread") 0)) stopped) exampleStart 1
    exampleJournal = .ok (exampleJournal.append (exampleStart.row "" 1)) := by
  have alone : unblocked exampleStart.scope exampleJournal = .ok () :=
    MutationAttempts.unblocked_ok.2 fun _ none => nomatch none
  have identified : exampleStart.identified = true := by decide +kernel
  simp only [beginChecked, identified, alone, example_valid]
  rfl

theorem example_ordered : ∃ system, OrderRun .start
    [.elsewhere, .captured (some "thread") (origin (some "thread") 0), .stopped "stopped",
      .begun exampleStart (some (origin (some "thread") 0))] system ∧
      (∃ clock, system.stops.clock = some clock ∧ Greatest clock system.stops) ∧
      (∃ old new, StopRevisions.start.clock = some old ∧ stopped.clock = some new ∧ old < new) ∧
      ¬(OrderEvent.stopped "stopped").covers "thread" := by
  obtain ⟨record, stops⟩ := stop_advanced
  have front : OrderRun .start
      [.elsewhere, .captured (some "thread") (origin (some "thread") 0)] ⟨.start, exampleJournal⟩ :=
    .cons (@OrderStep.elsewhere .start exampleJournal) (.single (.capture example_captured))
  have stop : OrderStep ⟨.start, exampleJournal⟩ (.stopped "stopped") ⟨stopped, exampleJournal⟩ :=
    @OrderStep.stop ⟨.start, exampleJournal⟩ ⟨"stopped", 1, 2⟩ _ _ _ _ _ _ stops
  have last : OrderStep ⟨stopped, exampleJournal⟩
      (.begun exampleStart (some (origin (some "thread") 0))) _ := .begin example_begin
  have run := front.append (.cons stop (.single last))
  obtain ⟨clock, orders⟩ := stop_orders_mutations run
  -- once around the stop, once around the begin behind it
  obtain ⟨raised, -⟩ := orders _ _ _ _ _ rfl front stop (.single last)
  obtain ⟨-, begun⟩ := orders _ _ _ _ [] rfl (front.append (.single stop)) last (.nil _)
  exact ⟨_, run, clock, raised "stopped" (.inl rfl),
    begun _ _ "thread" rfl rfl [.elsewhere] _ _ rfl _ (List.mem_singleton_self _)⟩

end CodexRemote.Verified.StopRevision

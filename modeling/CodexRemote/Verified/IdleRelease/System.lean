import CodexRemote.AppServer.TargetGate
import CodexRemote.Foundations.Runs
import CodexRemote.Foundations.Transactions

/-! # What the journal's transactions do to intents

Each transaction moves the intents of some threads along the allowed transitions, stages a new
candidate, or prunes a settled one.
-/

namespace CodexRemote.Verified.IdleRelease

open Foundations Store Store.IdleRelease

/-- The states of an intent that permit ordinary mutations. -/
def IdleState.idle (state : IdleState) : Prop := state = .candidate ∨ state = .settled

/-- One thread's intent before and after a transaction.  It may stage an intent of a given thread
and id, and take the thread's intent into maintenance. -/
inductive IntentMove (staged : Option (String × String)) (maintains : Prop) :
    Option Intent → Option Intent → Prop where
  | same {intent : Option Intent} : IntentMove staged maintains intent intent
  | moved {intent : Intent} {state : IdleState} {detail : String}
      (legal : allowed intent.state state detail ∨
        (intent.state = .awaitUnload ∧ state = .resubscribing))
      (permitted : maintains ∨ IdleState.idle state) :
      IntentMove staged maintains (some intent) (some (intent.moved state detail))
  | staged {before : Option Intent} {intent : Intent}
      (free : ∀ old, before = some old → old.state = .settled)
      (id : staged = some (intent.threadId, intent.intentId)) (candidate : intent.state = .candidate) :
      IntentMove staged maintains before (some intent)
  | pruned {intent : Intent} (settled : intent.state = .settled) :
      IntentMove staged maintains (some intent) none

def JournalMove (staged : Option (String × String)) (maintains : String → Prop) (journal next : Journal) :
    Prop :=
  ∀ thread, IntentMove staged (maintains thread) (journal.find thread) (next.find thread)

/-- An intent that permits ordinary mutations. -/
def Quiet (intent : Option Intent) : Prop := ∀ row, intent = some row → IdleState.idle row.state

theorem IntentMove.quiet {staged : Option (String × String)} {maintains : Prop} {before after : Option Intent}
    (move : IntentMove staged maintains before after) (ordinary : ¬maintains)
    (quiet : Quiet before) : Quiet after := by
  cases move with
  | same => exact quiet
  | moved legal permitted =>
    intro row same
    cases same
    exact permitted.resolve_left ordinary
  | staged free id candidate =>
    intro row same
    cases same
    exact Or.inl candidate
  | pruned settled =>
    intro row same
    cases same

section

variable {archive : IdleArchive} {journal next : Journal} {thread : String} {intent old : Intent}
  {state : IdleState} {detail : String}

variable {staged : Option (String × String)} {maintains : String → Prop}

theorem journalMove_refl : JournalMove staged maintains journal journal := fun _ => .same

theorem sameRevision_iff {a b : Intent} : sameRevision a b = true ↔
    a.intentId = b.intentId ∧ a.ownerId = b.ownerId ∧ a.generation = b.generation ∧
      a.threadId = b.threadId ∧ a.turnId = b.turnId ∧ a.jobId = b.jobId ∧
      a.revision = b.revision := by
  simp [sameRevision]

/-- The compare-and-set moves one row. -/
theorem update_ok (ran : update archive old state detail journal = .ok next) :
    ∃ row, sameRevision row old ∧ row.state = old.state ∧
      journal.find old.threadId = some row ∧
      next.find old.threadId = some (row.moved state detail) ∧
      ∀ other, other ≠ old.threadId → next.find other = journal.find other := by
  simp only [update] at ran
  obtain ⟨one, ran⟩ := guard_ok.1 ran
  cases ran
  have named : ∀ row : Intent, (sameRevision row old && decide (row.state = old.state) &&
      !archive.frozen row.threadId) = true → row.threadId = old.threadId := by
    intro row matching
    simp only [Bool.and_eq_true] at matching
    exact (sameRevision_iff.1 matching.1.1).2.2.2.1
  obtain ⟨none, _⟩ | ⟨_, row, found, matching, after, others⟩ :=
    @Table.update_keyed _ _ _ _ journal _ (·.moved state detail) (fun _ => rfl) _ named
  · rw [none] at one
    exact absurd (by decide) one
  · simp only [Bool.and_eq_true, decide_eq_true_eq] at matching
    exact ⟨row, matching.1.1, matching.1.2, found, after, others⟩

/-- A transaction that moves the intent of one thread. -/
theorem JournalMove.of_update (ran : update archive old state detail journal = .ok next)
    (legal : allowed old.state state detail ∨ (old.state = .awaitUnload ∧ state = .resubscribing))
    (permitted : maintains old.threadId ∨ IdleState.idle state) :
    JournalMove staged maintains journal next := by
  obtain ⟨row, _, same, before, after, others⟩ := update_ok ran
  intro other
  by_cases own : other = old.threadId
  · subst own
    rw [before, after]
    exact .moved (same ▸ legal) permitted
  · rw [others other own]
    exact .same

theorem cancel_move (candidate : old.state = .candidate)
    (ran : update archive old .settled "CancelledBeforeSend" journal = .ok next) :
    JournalMove staged maintains journal next :=
  .of_update ran (Or.inl (by rw [candidate]; decide)) (Or.inr (Or.inr rfl))

theorem beforeEnqueue_move (ran : beforeEnqueue archive thread journal = .ok next) :
    JournalMove staged maintains journal next := by
  simp only [beforeEnqueue] at ran
  split at ran
  · cases ran
    exact journalMove_refl
  · split at ran
    · next candidate => exact cancel_move candidate ran
    · cases ran
      exact journalMove_refl
    · cases ran
      exact journalMove_refl
    · cases ran

theorem beforeCleanup_move (ran : beforeCleanup archive thread journal = .ok next) :
    JournalMove staged maintains journal next := by
  simp only [beforeCleanup] at ran
  split at ran
  · cases ran
    exact journalMove_refl
  · split at ran
    · next candidate => exact cancel_move candidate ran
    · cases ran
      exact journalMove_refl

theorem settleExitedOwner_move {owner : String} {generation : Int} :
    JournalMove staged maintains journal (settleExitedOwner archive owner generation journal) := by
  intro thread
  have after := @Table.find_update _ _ _ _ journal
    (fun row => row.ownerId = owner && row.generation = generation && row.state ≠ .settled &&
      !archive.frozen row.threadId) (·.moved .settled "OldServerExited") (fun _ => rfl) thread
  simp only [settleExitedOwner]
  cases found : journal.find thread with
  | none =>
    rw [after, found]
    exact .same
  | some row =>
    rw [after, found, Option.map_some]
    split
    · next matching =>
      refine .moved (Or.inl ?_) (Or.inr (Or.inr rfl))
      simp only [Bool.and_eq_true, decide_eq_true_eq] at matching
      simp [allowed, matching.1.2]
    · exact .same

/-- What a successful transition did. -/
theorem transition_ok {token : Option Intent}
    (ran : transition archive old state detail journal = (.ok token, next)) :
    allowed old.state state detail ∧ update archive old state detail journal = .ok next ∧
      token = next.find old.threadId := by
  simp only [transition] at ran
  obtain ⟨legal, ran⟩ := guard_pair_ok.1 ran
  split at ran
  · cases ran
  · next found =>
    cases ran
    exact ⟨by simpa using legal, found, rfl⟩

theorem transition_move {token : Option Intent}
    (ran : transition archive old state detail journal = (.ok token, next))
    (permitted : maintains old.threadId ∨ IdleState.idle state) :
    JournalMove staged maintains journal next := by
  obtain ⟨legal, updated, _⟩ := transition_ok ran
  exact .of_update updated (Or.inl legal) permitted

/-- A new candidate replaces a settled intent, if any. -/
theorem stageCandidate_move {botIdle : Bool} {intentId owner turnId jobId : String}
    {generation : Int} (fresh : ∀ row ∈ journal.rows, row.intentId ≠ intentId) :
    JournalMove (some (thread, intentId)) maintains journal
      (stageCandidate archive botIdle intentId owner thread turnId jobId generation journal) := by
  simp only [stageCandidate]
  split_ifs with _ unsettled
  · exact journalMove_refl
  · exact journalMove_refl
  · exact journalMove_refl
  · simp only [replace]
    have pruned : ∀ other, IntentMove (some (thread, intentId)) (maintains other) (journal.find other)
        ((journal.delete (prunable archive journal)).find other) := by
      intro other
      rw [Table.find_delete]
      cases found : journal.find other with
      | none => exact .same
      | some row =>
        cases gone : prunable archive journal row with
        | false =>
          simp only [Option.filter, gone, Bool.not_false, if_true]
          exact .same
        | true =>
          simp only [Option.filter, gone, Bool.not_true, Bool.false_eq_true, if_false]
          simp only [prunable, Bool.and_eq_true, decide_eq_true_eq] at gone
          exact .pruned gone.1.1
    split
    · exact pruned
    · intro other
      rw [Table.find_put]
      split
      · next own =>
        refine .staged ?_ rfl rfl
        intro old found
        rw [← own] at found
        simpa [found] using unsettled
      · -- no other row has the new id
        have kept : ((journal.delete (prunable archive journal)).delete
            fun row => row.intentId = intentId).find other =
              (journal.delete (prunable archive journal)).find other := by
          rw [Table.find_delete]
          cases found : (journal.delete (prunable archive journal)).find other with
          | none => rfl
          | some row =>
            have there := List.mem_of_mem_filter (Table.mem_of_find found)
            simp [Option.filter, fresh row there]
        rw [kept]
        exact pruned other

/-- What an ordinary mutation finds of its thread's intent, and what it leaves. -/
def Cleared (before after : Option Intent) : Prop :=
  (before = none ∧ after = none) ∨
    ∃ old, before = some old ∧
      ((old.state = .settled ∧ after = some old) ∨
        (old.state = .candidate ∧ after = some (old.moved .settled "CancelledBeforeSend")))

theorem Cleared.quiet {before after : Option Intent} (cleared : Cleared before after) :
    Quiet after := by
  intro row same
  obtain ⟨_, none⟩ | ⟨old, _, ⟨settled, after⟩ | ⟨_, after⟩⟩ := cleared
  · rw [none] at same
    cases same
  · rw [after] at same
    cases same
    exact Or.inr settled
  · rw [after] at same
    cases same
    exact Or.inr rfl

theorem beforeMutation_none {owner : String} {generation : Int}
    (ran : beforeMutation archive owner generation thread journal = (.ok none, next)) :
    JournalMove staged maintains journal next ∧
      Cleared (journal.find thread) (next.find thread) := by
  simp only [beforeMutation] at ran
  obtain ⟨_, ran⟩ := guard_pair_ok.1 ran
  split at ran
  · next absent =>
    cases ran
    exact ⟨journalMove_refl, Or.inl ⟨absent, absent⟩⟩
  · next intent found =>
    split at ran
    · next settled =>
      cases ran
      exact ⟨journalMove_refl, Or.inr ⟨intent, found, Or.inl ⟨settled, found⟩⟩⟩
    · next candidate =>
      split at ran
      · cases ran
      · next updated =>
        cases ran
        obtain ⟨row, _, _, before, after, _⟩ := update_ok updated
        rw [Table.find_key found] at before after
        cases found.symm.trans before
        exact ⟨cancel_move candidate updated,
          Or.inr ⟨intent, found, Or.inr ⟨candidate, after⟩⟩⟩
    · split at ran
      · split at ran <;> cases ran
      · cases ran

theorem beforeMutation_some {owner : String} {generation : Int} {token : Intent}
    (ran : beforeMutation archive owner generation thread journal = (.ok (some token), next)) :
    token.threadId = thread ∧ ∃ old, journal.find thread = some old ∧
      old.state = .awaitUnload ∧ token.intentId = old.intentId ∧
      token.revision = old.revision + 1 ∧
      next.find thread =
        some (old.moved .resubscribing "real resume required before next mutation") ∧
      JournalMove staged (fun other => other = thread) journal next := by
  simp only [beforeMutation] at ran
  obtain ⟨_, ran⟩ := guard_pair_ok.1 ran
  split at ran
  · cases ran
  · next intent found =>
    split at ran
    · cases ran
    · split at ran <;> cases ran
    · split at ran
      · next owned =>
        split at ran
        · cases ran
        · next updated =>
          cases ran
          have own := Table.find_key found
          obtain ⟨row, _, _, before, after, _⟩ := update_ok updated
          rw [own] at before after
          cases found.symm.trans before
          exact ⟨own, intent, found, owned.1, rfl, rfl, after,
            .of_update updated (Or.inr ⟨owned.1, rfl⟩) (Or.inl own)⟩
      · cases ran

theorem beforeMutation_error {owner : String} {generation : Int} {error : StoreError}
    (ran : beforeMutation archive owner generation thread journal = (.error error, next)) :
    next = journal := by
  simp only [beforeMutation] at ran
  split at ran
  · cases ran
    rfl
  · split at ran
    · cases ran
    · split at ran
      · cases ran
      · split at ran
        · cases ran
          rfl
        · cases ran
      · split at ran
        · split at ran
          · cases ran
            rfl
          · cases ran
        · cases ran
          rfl

end

/-! ## The gate with its journal

A call that has passed its check holds the gate's lock while the journal's transaction runs and
until its permit is counted; transactions that do not need the lock go on meanwhile.
-/

open AppServer (TargetGate MutationCount)

/-- A call that holds the gate's lock and has the journal's answer. -/
inductive GateCall where
  | granting (target : Option String)
  | reserving (token : Intent)
  | resubscribing (token : Intent)

structure IdleSystem where
  gate : TargetGate
  holder : Option GateCall
  journal : Journal
  /-- the targets of the ordinary permits that are alive -/
  permits : List (Option String)
  /-- the tokens of the maintenance tasks, each with the exclusive permit of its thread -/
  works : List Intent

/-- The gate is new; the journal may have intents of earlier processes. -/
def IdleSystem.start (journal : Journal) : IdleSystem := ⟨.default, none, journal, [], []⟩

inductive IdleEvent where
  | refused (target : Option String)
  | checked (target : Option String)
  | granted (target : Option String)
  | resumable (token : Intent)
  | conflicted (token : Intent)
  | reservable (token : Intent)
  | unreserved (token : Intent)
  | reserved (token : Intent)
  | dropped (target : Option String)
  | released (token : Intent)
  | advanced (old token : Intent)
  | deferred (old : Intent)
  | staged (thread intentId : String)
  | enqueued (thread : String)
  | cleaned (thread : String)
  | exited (owner : String) (generation : Int)

/-- The step is taken under the gate's lock. -/
def IdleEvent.gated : IdleEvent → Bool
  | .advanced _ _ | .deferred _ | .staged _ _ | .enqueued _ | .cleaned _ | .exited _ _ => false
  | _ => true

def IdleEvent.staged? : IdleEvent → Option (String × String)
  | .staged thread intentId => some (thread, intentId)
  | _ => none

inductive IdleStep : IdleSystem → IdleEvent → IdleSystem → Prop where
  | refuse {system : IdleSystem} {target : Option String} (free : system.holder = none)
      (maintained : system.gate.maintained target) :
      IdleStep system (.refused target) system
  | checkAll {system : IdleSystem} (free : system.holder = none)
      (unmaintained : system.gate.maintained none = false) :
      IdleStep system (.checked none) { system with holder := some (.granting none) }
  | check {system : IdleSystem} {archive : IdleArchive} {owner thread : String} {generation : Int}
      {next : Journal} (free : system.holder = none)
      (unmaintained : system.gate.maintained (some thread) = false)
      (ran : beforeMutation archive owner generation thread system.journal = (.ok none, next)) :
      IdleStep system (.checked (some thread))
        { system with holder := some (.granting (some thread)), journal := next }
  | resume {system : IdleSystem} {archive : IdleArchive} {owner thread : String} {generation : Int}
      {token : Intent} {next : Journal} (free : system.holder = none)
      (unmaintained : system.gate.maintained (some thread) = false)
      (ran : beforeMutation archive owner generation thread system.journal =
        (.ok (some token), next)) :
      IdleStep system (.resumable token)
        { system with holder := some (.resubscribing token), journal := next }
  | reject {system : IdleSystem} {archive : IdleArchive} {owner thread : String} {generation : Int}
      {error : StoreError} {next : Journal} (free : system.holder = none)
      (ran : beforeMutation archive owner generation thread system.journal = (.error error, next)) :
      IdleStep system (.refused (some thread)) { system with journal := next }
  | grant {system : IdleSystem} {target : Option String}
      (held : system.holder = some (.granting target)) :
      IdleStep system (.granted target)
        { system with
          gate := system.gate.count target, holder := none, permits := target :: system.permits }
  | conflict {system : IdleSystem} {token : Intent}
      (held : system.holder = some (.resubscribing token))
      (mutating : system.gate.mutating token.threadId) :
      IdleStep system (.conflicted token) { system with holder := none }
  | resubscribe {system : IdleSystem} {token : Intent}
      (held : system.holder = some (.resubscribing token))
      (unmutating : system.gate.mutating token.threadId = false) :
      IdleStep system (.reserved token)
        { system with
          gate := system.gate.insertExclusive token.threadId
          holder := none
          works := token :: system.works }
  | verify {system : IdleSystem} {botIdle observed : Bool} {token : Intent}
      (free : system.holder = none) (open_ : system.gate.reservable token)
      (ran : verify botIdle observed token (token.state = .candidate) system.journal = .ok ()) :
      IdleStep system (.reservable token) { system with holder := some (.reserving token) }
  | unreserve {system : IdleSystem} {botIdle observed : Bool} {token : Intent}
      (free : system.holder = none)
      (kept : system.gate.reservable token = false ∨ ∃ error,
        verify botIdle observed token (token.state = .candidate) system.journal = .error error) :
      IdleStep system (.unreserved token) system
  | reserve {system : IdleSystem} {token : Intent} (held : system.holder = some (.reserving token)) :
      IdleStep system (.reserved token)
        { system with
          gate := system.gate.insertExclusive token.threadId
          holder := none
          works := token :: system.works }
  | drop {system : IdleSystem} {front back : List (Option String)} {target : Option String}
      {gate : TargetGate} (free : system.holder = none)
      (alive : system.permits = front ++ target :: back)
      (ran : system.gate.drop target = some gate) :
      IdleStep system (.dropped target) { system with gate := gate, permits := front ++ back }
  | release {system : IdleSystem} {front back : List Intent} {token : Intent}
      (free : system.holder = none) (alive : system.works = front ++ token :: back) :
      IdleStep system (.released token)
        { system with
          gate := system.gate.releaseExclusive token.threadId, works := front ++ back }
  /-- A maintenance task records where it stands. -/
  | advance {system : IdleSystem} {archive : IdleArchive} {front back : List Intent}
      {old token : Intent} {state : IdleState} {detail : String} {next : Journal}
      (alive : system.works = front ++ old :: back)
      (ran : transition archive old state detail system.journal = (.ok (some token), next)) :
      IdleStep system (.advanced old token)
        { system with journal := next, works := front ++ token :: back }
  /-- A reservation that failed is recorded with its candidate. -/
  | defer {system : IdleSystem} {archive : IdleArchive} {old : Intent} {token : Option Intent}
      {detail : String} {next : Journal} (candidate : old.state = .candidate)
      (ran : transition archive old .candidate detail system.journal = (.ok token, next)) :
      IdleStep system (.deferred old) { system with journal := next }
  | stage {system : IdleSystem} {archive : IdleArchive} {botIdle : Bool}
      {intentId owner thread turnId jobId : String} {generation : Int} :
      IdleStep system (.staged thread intentId)
        { system with
          journal := stageCandidate archive botIdle intentId owner thread turnId jobId generation
            system.journal }
  | enqueue {system : IdleSystem} {archive : IdleArchive} {thread : String} {next : Journal}
      (ran : beforeEnqueue archive thread system.journal = .ok next) :
      IdleStep system (.enqueued thread) { system with journal := next }
  | clean {system : IdleSystem} {archive : IdleArchive} {thread : String} {next : Journal}
      (ran : beforeCleanup archive thread system.journal = .ok next) :
      IdleStep system (.cleaned thread) { system with journal := next }
  | exit {system : IdleSystem} {archive : IdleArchive} {owner : String} {generation : Int} :
      IdleStep system (.exited owner generation)
        { system with journal := settleExitedOwner archive owner generation system.journal }

abbrev IdleRun (system : IdleSystem) (events : List IdleEvent) (next : IdleSystem) : Prop :=
  Run IdleStep system events next

/-- The ids that the journal had at the start, and those that events have staged. -/
def intentIds (journal : Journal) (events : List IdleEvent) : List String :=
  journal.rows.map (·.intentId) ++ (events.filterMap IdleEvent.staged?).map Prod.snd

/-- Each intent has an id of its own. -/
def Fresh (journal : Journal) (events : List IdleEvent) : Prop := (intentIds journal events).Nodup

/-! ## The gate's maps -/

/-- The counts are those of the permits that are alive. -/
def Counted (gate : TargetGate) (permits : List (Option String)) : Prop :=
  ∀ target, gate.mutations.find target =
    if permits.count target = 0 then none else some ⟨target, permits.count target⟩

section

variable {gate next : TargetGate} {permits front back : List (Option String)}
  {target : Option String} {thread : String}

theorem Counted.admitted (counted : Counted gate permits) :
    gate.admitted target = true ↔ target ∈ permits := by
  rw [TargetGate.admitted, counted, ← List.count_pos_iff]
  split
  · next none => simp [none]
  · next some => simp [Nat.pos_of_ne_zero some]

theorem Counted.mutating (counted : Counted gate permits) :
    gate.mutating thread = false ↔ none ∉ permits ∧ some thread ∉ permits := by
  rw [TargetGate.mutating, Bool.or_eq_false_iff, ← counted.admitted, ← counted.admitted]
  simp

theorem Counted.count (counted : Counted gate permits) :
    Counted (gate.count target) (target :: permits) := by
  intro other
  simp only [TargetGate.count, Table.find_put, counted target]
  by_cases same : target = other
  · subst same
    rw [if_pos rfl, List.count_cons_self, if_neg (Nat.succ_ne_zero _)]
    by_cases unheld : permits.count target = 0
    · rw [if_pos unheld, unheld]
      rfl
    · rw [if_neg unheld]
      rfl
  · rw [if_neg same, List.count_cons_of_ne same, counted other]

/-- A permit that is alive is counted, so its drop finds it. -/
theorem Counted.drop (counted : Counted gate (front ++ target :: back)) :
    ∃ next, gate.drop target = some next ∧ Counted next (front ++ back) ∧
      next.exclusive = gate.exclusive := by
  have alive : (front ++ target :: back).count target = (front ++ back).count target + 1 := by
    simp [List.count_append]
    omega
  have others : ∀ other, target ≠ other →
      (front ++ target :: back).count other = (front ++ back).count other := by
    intro other apart
    simp [List.count_append, apart]
  have found := counted target
  rw [alive, if_neg (Nat.succ_ne_zero _)] at found
  simp only [TargetGate.drop, found, Option.map_some, Nat.add_sub_cancel]
  refine ⟨_, rfl, ?_, rfl⟩
  intro other
  by_cases same : target = other
  · subst same
    split
    · next none => simp [Table.remove, Table.find_delete, found, none, Option.filter]
    · simp [Table.find_put]
  · rw [← others other same, ← counted other]
    split
    · rw [Table.remove, Table.find_delete]
      cases kept : gate.mutations.find other with
      | none => rfl
      | some entry => simp [Option.filter, Table.find_key kept, Ne.symm same]
    · simp [Table.find_put, same]

end

end CodexRemote.Verified.IdleRelease

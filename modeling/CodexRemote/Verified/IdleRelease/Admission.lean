import CodexRemote.Verified.IdleRelease.Exclusion

/-! # Idle release over whole runs

Under fresh ids, every reachable state keeps the permits apart and every intent identified.
-/

namespace CodexRemote.Verified.IdleRelease

open Foundations Store Store.IdleRelease
open AppServer (TargetGate)

section

variable {journal : Journal} {past front mid events later : List IdleEvent} {event : IdleEvent}
  {system before after : IdleSystem} {thread intentId : String} {revision : Int}

theorem intentIds_snoc : intentIds journal (past ++ [event]) =
    intentIds journal past ++ (event.staged?.map Prod.snd).toList := by
  cases staged : event.staged? with
  | none => simp [intentIds, staged]
  | some pair => simp [intentIds, staged]

theorem Fresh.earlier (fresh : Fresh journal (front ++ later)) : Fresh journal front := by
  refine List.Nodup.sublist ?_ fresh
  simp only [intentIds, List.filterMap_append, List.map_append]
  exact List.Sublist.append_left (List.sublist_append_left ..) _

theorem Fresh.new (fresh : Fresh journal (past ++ [event])) :
    ∀ pair, event.staged? = some pair → pair.2 ∉ intentIds journal past := by
  intro pair staged known
  rw [Fresh, intentIds_snoc, staged] at fresh
  exact (List.nodup_append.1 fresh).2.2 _ known _ (List.mem_singleton_self _) rfl

theorem Identified.new (identified : Identified (intentIds journal past) system.journal)
    (fresh : Fresh journal (past ++ [event])) : event.New system.journal := by
  intro pair staged row there same
  have unknown := fresh.new pair staged
  rw [← same] at unknown
  exact unknown (identified.known row there)

theorem identified_start (fresh : Fresh journal []) :
    Identified (intentIds journal []) journal := by
  have distinct : (journal.rows.map (·.intentId)).Nodup := by
    rw [Fresh, intentIds] at fresh
    exact (List.nodup_append.1 fresh).1
  constructor
  · intro row there
    exact List.mem_append_left _ (List.mem_map_of_mem there)
  · intro row there other here same
    exact List.inj_on_of_nodup_map distinct there here same

theorem idle_run (run : IdleRun (.start journal) events system) (fresh : Fresh journal events) :
    Identified (intentIds journal events) system.journal ∧ Excluded system := by
  refine run.records (fun past u => Fresh journal past →
    Identified (intentIds journal past) u.journal ∧ Excluded u) ?_ ?_ fresh
  · intro past u event v _ step known fresh
    obtain ⟨identified, excluded⟩ := known fresh.earlier
    have new := identified.new fresh
    rw [intentIds_snoc]
    exact ⟨identified.step (step.journalMove new) fresh.new, step.excluded new excluded⟩
  · intro fresh
    exact ⟨identified_start fresh, excluded_start⟩

/-- A spent revision stays spent. -/
theorem spent_run (front_run : IdleRun (.start journal) front before)
    (run : IdleRun before mid system) (fresh : Fresh journal (front ++ mid))
    (known : intentId ∈ intentIds journal front) (spent : Spent intentId revision before.journal) :
    Spent intentId revision system.journal := by
  refine run.records (fun past u => Fresh journal (front ++ past) →
    Spent intentId revision u.journal) ?_ (fun _ => spent) fresh
  intro past u event v left step earlier fresh
  rw [← List.append_assoc] at fresh
  have identified := (idle_run (front_run.append left) fresh.earlier).1
  refine (earlier fresh.earlier).step (step.journalMove (identified.new fresh)) ?_
  intro pair staged same
  have unknown := fresh.new pair staged
  rw [same] at unknown
  refine unknown ?_
  rw [intentIds, List.filterMap_append, List.map_append, ← List.append_assoc]
  exact List.mem_append_left _ known

/-- The call that grants a permit holds the lock since its check. -/
theorem IdleStep.granting (step : IdleStep system event after)
    (held : after.holder = some (.granting (some thread))) :
    (event = .checked (some thread) ∧
        Cleared (system.journal.find thread) (after.journal.find thread)) ∨
      (event.gated = false ∧ system.holder = some (.granting (some thread))) := by
  cases step with
  | refuse free _ | unreserve free _ | reject free _ | drop free _ _ | release free _ =>
    have held : system.holder = _ := held
    rw [free] at held
    cases held
  | checkAll | resume | grant | conflict | resubscribe | verify | reserve => cases held
  | check free unmaintained ran =>
    cases held
    exact Or.inl ⟨rfl, (@beforeMutation_none _ _ _ _ none (fun _ => False) _ _ ran).2⟩
  | advance | defer | stage | enqueue | clean | exit => exact Or.inr ⟨rfl, held⟩

/-- The check of the call that holds the lock, which has found no intent in the way. -/
def ClearedBefore (journal : Journal) (thread : String) (past : List IdleEvent)
    (system : IdleSystem) : Prop :=
  ∃ front mid before after, past = front ++ .checked (some thread) :: mid ∧
    IdleRun (.start journal) front before ∧ IdleStep before (.checked (some thread)) after ∧
    IdleRun after mid system ∧ (∀ event ∈ mid, event.gated = false) ∧
    Cleared (before.journal.find thread) (after.journal.find thread)

theorem clearedBefore_run (run : IdleRun (.start journal) events system)
    (held : system.holder = some (.granting (some thread))) :
    ClearedBefore journal thread events system := by
  refine run.records (fun past u => u.holder = some (.granting (some thread)) →
    ClearedBefore journal thread past u) ?_ ?_ held
  · intro past u event v left step earlier held
    obtain ⟨same, cleared⟩ | ⟨ungated, holding⟩ := step.granting held
    · subst same
      exact ⟨past, [], u, v, rfl, left, step, .nil v, (fun _ none => nomatch none), cleared⟩
    · obtain ⟨front, mid, before, after, same, first, check, rest, kept, cleared⟩ :=
        earlier holding
      refine ⟨front, mid ++ [event], before, after, by simp [same], first, check,
        rest.append (.single step), ?_, cleared⟩
      intro other inside
      obtain inside | inside := List.mem_append.1 inside
      · exact kept other inside
      · rw [List.mem_singleton.1 inside]
        exact ungated
  · intro none
    cases none

end

/-- A step that a run takes, with the runs up to it and from it. -/
structure Taken (journal : Journal) (events : List IdleEvent) (system : IdleSystem)
    (past : List IdleEvent) (before : IdleSystem) (event : IdleEvent) (after : IdleSystem)
    (later : List IdleEvent) : Prop where
  events : events = past ++ event :: later
  front : IdleRun (.start journal) past before
  step : IdleStep before event after
  back : IdleRun after later system

/-- Permits of ordinary mutations and of maintenance stay apart, under whatever order of calls and
transactions.  A permit for a thread is given by a call whose transaction left the thread's intent
absent or settled; while it lives the intent is at most a candidate.  No revision of an intent is
consumed twice, and an unknown intent is settled by the exit of its server alone. -/
theorem idle_release_excludes {journal : Journal} {events : List IdleEvent} {system : IdleSystem}
    (run : IdleRun (.start journal) events system) (fresh : Fresh journal events) :
    (∀ token ∈ system.works, none ∉ system.permits ∧ some token.threadId ∉ system.permits) ∧
      (∀ thread, some thread ∈ system.permits → Quiet (system.journal.find thread)) ∧
      ∀ past before event after later,
        Taken journal events system past before event after later →
          (∀ thread, event = .granted (some thread) →
            ClearedBefore journal thread past before) ∧
          (∀ old token, event = .advanced old token ∨ event = .deferred old →
            Consumes before.journal after.journal old.intentId old.revision) ∧
          (∀ thread row, before.journal.find thread = some row →
            after.journal.find thread ≠ some row →
              Consumes before.journal after.journal row.intentId row.revision) ∧
          (∀ intentId revision, Consumes before.journal after.journal intentId revision →
            ∀ mid next other last rest, later = mid ++ other :: rest →
              IdleRun after mid next → IdleStep next other last →
                ¬Consumes next.journal last.journal intentId revision) ∧
          (∀ thread row, before.journal.find thread = some row → row.state = .unknown →
            after.journal.find thread = some row ∨
              after.journal.find thread = some (row.moved .settled "OldServerExited")) := by
  have excluded := (idle_run run fresh).2
  refine ⟨?_, excluded.quiet, ?_⟩
  · intro token work
    exact excluded.apart _ (List.mem_map_of_mem work)
  intro past before event after later taken
  have started : Fresh journal (past ++ [event]) := by
    rw [taken.events, List.append_cons] at fresh
    exact fresh.earlier
  have identified := (idle_run taken.front started.earlier).1
  have move := taken.step.journalMove (identified.new started)
  refine ⟨?_, ?_, ?_, ?_, ?_⟩
  · intro thread granted
    subst granted
    cases taken.step with
    | grant held => exact clearedBefore_run taken.front held
  · intro old token successful
    obtain rfl | rfl := successful
    · cases taken.step with
      | advance alive ran =>
        exact update_consumes (transition_ok ran).2.1 move identified started.new
    · cases taken.step with
      | defer candidate ran =>
        exact update_consumes (transition_ok ran).2.1 move identified started.new
  · intro thread row found changed
    exact move.consumes identified started.new found changed
  · intro intentId revision consumes mid next other last rest split middle again
    have front := taken.front.append (.single taken.step)
    have wider : Fresh journal ((past ++ [event]) ++ mid) := by
      rw [taken.events, split] at fresh
      have whole : Fresh journal (((past ++ [event]) ++ mid) ++ other :: rest) := by
        simpa using fresh
      exact whole.earlier
    have known : intentId ∈ intentIds journal (past ++ [event]) := by
      obtain ⟨⟨row, there, same, _⟩, _⟩ := consumes
      rw [intentIds_snoc, ← same]
      exact List.mem_append_left _ (identified.known row there)
    exact (spent_run front middle wider known
      (consumes.spent identified move started.new)).not_consumes
  · intro thread row found unknown
    have moved := move thread
    rw [found] at moved
    exact moved.unknown unknown

def exampleArchive : IdleArchive :=
  ⟨fun _ => false, fun _ => false, fun _ => false, fun _ => true⟩

def exampleJournal : Journal :=
  Table.empty.put ⟨"first", "owner", 1, "thread", "turn", "job", 1, .candidate, ""⟩

def exampleToken : Intent := ⟨"second", "owner", 1, "other", "turn", "job", 1, .candidate, ""⟩

def exampleChecked : Journal := (beforeMutation exampleArchive "owner" 1 "thread" exampleJournal).2

def exampleStaged : Journal :=
  stageCandidate exampleArchive true "second" "owner" "other" "turn" "job" 1 exampleChecked

def exampleGranted : IdleSystem :=
  ⟨TargetGate.default.count (some "thread"), none, exampleChecked, [some "thread"], []⟩

/-- A mutation of one thread is admitted, and the subscription of another one is maintained. -/
def exampleReserved : IdleSystem :=
  ⟨(TargetGate.default.count (some "thread")).insertExclusive "other", none, exampleStaged,
    [some "thread"], [exampleToken]⟩

theorem example_run : IdleRun (.start exampleJournal)
    [.checked (some "thread"), .granted (some "thread"), .staged "other" "second",
      .reservable exampleToken, .reserved exampleToken] exampleReserved :=
  .cons (@IdleStep.check _ exampleArchive "owner" "thread" 1 exampleChecked rfl rfl
      (Prod.ext (by decide +kernel) rfl)) <|
  .cons (IdleStep.grant rfl) <|
  .cons (@IdleStep.stage exampleGranted exampleArchive true "second" "owner" "other" "turn" "job" 1) <|
  .cons (@IdleStep.verify { exampleGranted with journal := exampleStaged } true true exampleToken
      rfl (by decide +kernel) (by decide +kernel)) <|
  .cons (IdleStep.reserve rfl) (.nil _)

theorem example_excludes :
    none ∉ exampleReserved.permits ∧ some exampleToken.threadId ∉ exampleReserved.permits :=
  (idle_release_excludes example_run (by rw [Fresh]; decide +kernel)).1 exampleToken
    (List.mem_singleton_self _)

end CodexRemote.Verified.IdleRelease

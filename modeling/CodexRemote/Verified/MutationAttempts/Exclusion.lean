import CodexRemote.Verified.MutationAttempts.Journal

/-! # Prepared attempts exclude each other

The run is that of one database under the runtimes that are activated in it.  An operation that
fails leaves the database as it is, so the steps are those that succeed.
-/

namespace CodexRemote.Verified.MutationAttempts

open Foundations Store Store.MutationAttempts

structure AttemptsSystem (ρ : Type) where
  journal : MutationJournal
  recoveries : Recoveries
  db : QueueDb ρ

inductive AttemptEvent where
  | activated (runtime : String)
  | begun (attempt : NewAttempt)
  | finished (completion : Completion)
  | recovered (candidate : ResumeCandidate)
  | other

/-- What archived rooms preserve may differ at each step, as may the other tables. -/
inductive AttemptStep {ρ : Type} : AttemptsSystem ρ → AttemptEvent → AttemptsSystem ρ → Prop where
  | activate {system : AttemptsSystem ρ} {runtime : String} {next : MutationJournal}
      (ran : activate runtime system.journal = .ok next) :
      AttemptStep system (.activated runtime) { system with journal := next }
  | begin {system : AttemptsSystem ρ} {archive : AttemptArchive} {digest : Json → String}
      {check : MutationJournal → Except StoreError Unit} {attempt : NewAttempt} {now : Rat}
      {next : MutationJournal}
      (ran : beginChecked archive digest check attempt now system.journal = .ok next) :
      AttemptStep system (.begun attempt) { system with journal := next }
  | finish {system : AttemptsSystem ρ} {archive : AttemptArchive} {completion : Completion}
      {now : Rat} {next : MutationJournal}
      (ran : finish archive completion now system.journal = .ok next) :
      AttemptStep system (.finished completion) { system with journal := next }
  | recover {system : AttemptsSystem ρ} {archive : AttemptArchive} {hooks : QueueHooks ρ}
      {unheld : String → Except StoreError Unit} {runtime resident : String} {generation : Int}
      {candidate : ResumeCandidate} {metadata latest : Json} {now : Rat} {cleared : Nat}
      {recoveries : Recoveries} {next : MutationJournal} {db : QueueDb ρ}
      (ran : recover archive hooks unheld runtime resident generation candidate metadata latest now
        system.recoveries system.journal system.db = .ok (cleared, recoveries, next, db)) :
      AttemptStep system (.recovered candidate) ⟨next, recoveries, db⟩
  | other {system : AttemptsSystem ρ} {db : QueueDb ρ} :
      AttemptStep system .other { system with db := db }

abbrev AttemptRun {ρ : Type} (system : AttemptsSystem ρ) (events : List AttemptEvent)
    (next : AttemptsSystem ρ) : Prop :=
  Run AttemptStep system events next

def AttemptsSystem.start {ρ : Type} (db : QueueDb ρ) : AttemptsSystem ρ := ⟨.empty, .empty, db⟩

/-- A single unscoped attempt is prepared, or scoped ones with different targets. -/
def Exclusive (journal : MutationJournal) : Prop :=
  (∃ attempt, journal.preparedAttempts = [attempt] ∧ attempt.isScoped = false) ∨
    ((∀ attempt ∈ journal.preparedAttempts, attempt.isScoped = true) ∧
      (journal.preparedAttempts.map (·.targetThreadId)).Nodup)

/-- Attempts differ in their ids, and prepared ones are of different scopes. -/
structure Apart (journal : MutationJournal) : Prop where
  ids : ∀ row ∈ journal.attempts.rows, ∀ other ∈ journal.attempts.rows,
    row.attemptId = other.attemptId → row = other
  scopes : ∀ row ∈ journal.preparedAttempts, ∀ other ∈ journal.preparedAttempts, row ≠ other →
    row.isScoped = true ∧ other.isScoped = true ∧ row.targetThreadId ≠ other.targetThreadId

section

variable {ρ : Type} {journal next : MutationJournal} {row : MutationAttempt} {attempt : NewAttempt}
  {completion : Completion} {candidate : ResumeCandidate} {system after : AttemptsSystem ρ}
  {event : AttemptEvent} {past events : List AttemptEvent} {db : QueueDb ρ}

theorem Apart.exclusive (apart : Apart journal) : Exclusive journal := by
  have distinct : journal.preparedAttempts.Nodup :=
    List.filter_sublist.nodup journal.attempts.unique.of_map
  by_cases all : ∀ attempt ∈ journal.preparedAttempts, attempt.isScoped = true
  · refine Or.inr ⟨all, ?_⟩
    refine List.Nodup.map_on ?_ distinct
    intro row there other here same
    by_contra differ
    exact (apart.scopes row there other here differ).2.2 same
  · simp only [not_forall] at all
    obtain ⟨attempt, there, unscoped⟩ := all
    refine Or.inl ⟨attempt, ?_, by simpa using unscoped⟩
    -- any other prepared attempt would make this one a scoped one
    refine List.perm_singleton.1 ?_
    rw [List.perm_ext_iff_of_nodup distinct (List.nodup_singleton attempt)]
    intro other
    rw [List.mem_singleton]
    constructor
    · intro here
      by_contra differ
      exact unscoped (apart.scopes other here attempt there differ).2.1
    · intro same
      rw [same]
      exact there

/-- The scope of a begin is free of prepared attempts. -/
theorem alone_scope (alone : excludes attempt.scope row = false) (prepared : row.prepared = true) :
    attempt.isScoped = true ∧ row.isScoped = true ∧ row.targetThreadId ≠ attempt.targetThreadId := by
  cases isScoped : attempt.isScoped with
  | false => simp [excludes, NewAttempt.scope, isScoped, prepared] at alone
  | true =>
    simp only [excludes, NewAttempt.scope, isScoped, prepared, if_true, Bool.true_and,
      Bool.or_eq_false_iff, Bool.not_eq_false', decide_eq_false_iff_not] at alone
    exact ⟨rfl, alone.1.2, alone.2⟩

theorem Begun.apart (begun : Begun attempt journal next) (apart : Apart journal) : Apart next := by
  obtain ⟨sha256, now, same⟩ := begun.row
  subst same
  constructor
  · rw [append_rows]
    intro row there other here same
    obtain old | new := List.mem_append.1 there <;> obtain older | newer := List.mem_append.1 here
    · exact apart.ids row old other older same
    · rw [List.mem_singleton.1 newer] at same
      exact absurd same (begun.fresh row old)
    · rw [List.mem_singleton.1 new] at same
      exact absurd same.symm (begun.fresh other older)
    · exact (List.mem_singleton.1 new).trans (List.mem_singleton.1 newer).symm
  · have scope : ∀ row ∈ journal.preparedAttempts, attempt.isScoped = true ∧
        row.isScoped = true ∧ row.targetThreadId ≠ attempt.targetThreadId := by
      intro row there
      obtain ⟨inside, prepared⟩ := mem_prepared.1 there
      exact alone_scope (begun.alone row inside) prepared
    intro row there other here differ
    obtain old | new := (mem_append_prepared (by rfl)).1 there <;>
      obtain older | newer := (mem_append_prepared (by rfl)).1 here
    · exact apart.scopes row old other older differ
    · subst newer
      obtain ⟨mine, its, targets⟩ := scope row old
      exact ⟨its, mine, targets⟩
    · subst new
      obtain ⟨mine, its, targets⟩ := scope other older
      exact ⟨mine, its, targets.symm⟩
    · exact absurd (new.trans newer.symm) differ

theorem Finished.apart (finished : Finished completion journal next) (apart : Apart journal) :
    Apart next := by
  constructor
  · intro row there other here same
    obtain ⟨old, before, id, _, sequence⟩ := finished.rows row there
    obtain ⟨older, earlier, otherId, _, otherSequence⟩ := finished.rows other here
    have one := apart.ids old before older earlier (id.symm.trans (same.trans otherId))
    refine Table.eq_of_key there here ?_
    rw [sequence, otherSequence, one]
  · intro row there other here differ
    exact apart.scopes row (finished.prepared row there) other (finished.prepared other here) differ

theorem Recovered.prepared (recovered : Recovered candidate journal next)
    (there : row ∈ next.preparedAttempts) : row ∈ journal.preparedAttempts := by
  obtain ⟨inside, prepared⟩ := mem_prepared.1 there
  exact mem_prepared.2 ⟨recovered.rows row inside, prepared⟩

theorem Recovered.apart (recovered : Recovered candidate journal next) (apart : Apart journal) :
    Apart next := by
  constructor
  · intro row there other here same
    exact apart.ids row (recovered.rows row there) other (recovered.rows other here) same
  · intro row there other here differ
    exact apart.scopes row (recovered.prepared there) other (recovered.prepared here) differ

theorem AttemptStep.apart (step : AttemptStep system event after) (apart : Apart system.journal) :
    Apart after.journal := by
  cases step with
  | activate ran =>
    have same := (activate_ok ran).2
    constructor
    · rw [same]
      exact apart.ids
    · simp only [MutationJournal.preparedAttempts, same]
      exact apart.scopes
  | begin ran => exact (beginChecked_ok ran).1.apart apart
  | finish ran => exact (finish_ok ran).apart apart
  | recover ran => exact (recover_ok ran).apart apart
  | other => exact apart

theorem attempt_run (run : AttemptRun (.start db) events system) : Apart system.journal := by
  refine run.preserves (fun system => Apart system.journal) (fun _ _ _ step => step.apart) ?_
  constructor
  · intro row none
    cases none
  · intro row none
    cases none

/-! ## How an attempt stops being prepared -/

/-- An attempt was begun under its runtime, and another one was activated since. -/
def BegunUnder (past : List AttemptEvent) (current : Option String) (row : MutationAttempt) :
    Prop :=
  ∃ front attempt later, past = front ++ .begun attempt :: later ∧
    attempt.attemptId = row.attemptId ∧ attempt.runtimeId = row.runtimeId ∧
      (current = some row.runtimeId ∨ ∃ runtime, runtime ≠ row.runtimeId ∧ .activated runtime ∈ later)

theorem BegunUnder.step {current next : Option String} (begun : BegunUnder past current row)
    (activated : next = current ∨ ∃ runtime, event = .activated runtime ∧ next = some runtime) :
    BegunUnder (past ++ [event]) next row := by
  obtain ⟨front, attempt, later, same, id, runtime, since⟩ := begun
  refine ⟨front, attempt, later ++ [event], by simp [same], id, runtime, ?_⟩
  obtain kept | ⟨newer, activates, now⟩ := activated
  · rw [kept]
    refine since.imp_right ?_
    intro other
    obtain ⟨runtime, differs, inside⟩ := other
    exact ⟨runtime, differs, List.mem_append_left _ inside⟩
  · by_cases own : newer = row.runtimeId
    · exact Or.inl (own ▸ now)
    · exact Or.inr ⟨newer, own, List.mem_append_right _ (by simp [activates])⟩

theorem BegunUnder.same {current : Option String} {old : MutationAttempt}
    (begun : BegunUnder past current old) (id : row.attemptId = old.attemptId)
    (runtime : row.runtimeId = old.runtimeId) : BegunUnder past current row := by
  simp only [BegunUnder, id, runtime]
  exact begun

theorem begun_run (run : AttemptRun (.start db) events system) :
    ∀ row ∈ system.journal.attempts.rows, BegunUnder events system.journal.runtime row := by
  refine run.records (fun past u => ∀ row ∈ u.journal.attempts.rows,
    BegunUnder past u.journal.runtime row) ?_ (fun _ none => nomatch none)
  intro past u event v _ step known row there
  cases step with
  | @activate runtime next ran =>
    obtain ⟨now, same⟩ := activate_ok ran
    rw [show next.attempts = u.journal.attempts from same] at there
    exact (known row there).step (Or.inr ⟨runtime, rfl, now⟩)
  | @begin _ _ _ attempt _ next ran =>
    have begun := (beginChecked_ok ran).1
    obtain ⟨sha256, now, same⟩ := begun.row
    subst same
    rw [append_rows] at there
    obtain older | new := List.mem_append.1 there
    · exact (known row older).step (Or.inl rfl)
    · rw [List.mem_singleton.1 new]
      exact ⟨past, attempt, [], rfl, rfl, rfl, Or.inl begun.current⟩
  | finish ran =>
    have finished := finish_ok ran
    obtain ⟨old, before, id, runtime, _⟩ := finished.rows row there
    exact ((known old before).step (Or.inl finished.runtime)).same id runtime
  | recover ran =>
    have recovered := recover_ok ran
    exact (known row (recovered.rows row there)).step (Or.inl recovered.runtime)
  | other => exact (known row there).step (Or.inl rfl)

theorem names_iff : completion.names row = true ↔
    row.attemptId = completion.attemptId ∧ row.runtimeId = completion.runtimeId ∧
      row.ownerId = completion.ownerId ∧ row.generation = completion.generation ∧
      row.wireId = completion.wireId := by
  simp [Completion.names, and_assoc]

/-- No prepared attempt has the id. -/
def Unprepared (attemptId : String) (journal : MutationJournal) : Prop :=
  ∀ row ∈ journal.preparedAttempts, row.attemptId ≠ attemptId

theorem Finished.unprepared (finished : Finished completion journal next) (apart : Apart journal) :
    Unprepared completion.attemptId next := by
  obtain ⟨row, there, named, gone⟩ := finished.one
  intro other here same
  have before := finished.prepared other here
  have one := apart.ids other (mem_prepared.1 before).1 row (mem_prepared.1 there).1
    (same.trans (names_iff.1 named).1.symm)
  rw [one] at here
  exact gone here

/-- An id becomes prepared by a begin of it alone. -/
theorem unprepared_run {attemptId : String} (run : AttemptRun system events after)
    (unbegun : ∀ attempt, .begun attempt ∈ events → attempt.attemptId ≠ attemptId)
    (unprepared : Unprepared attemptId system.journal) : Unprepared attemptId after.journal := by
  refine run.preserves_of (fun system => Unprepared attemptId system.journal)
    (fun event => ∀ attempt, event = .begun attempt → attempt.attemptId ≠ attemptId) ?_ ?_ unprepared
  · intro u event v other step unprepared row there
    cases step with
    | activate ran =>
      have same := (activate_ok ran).2
      simp only [MutationJournal.preparedAttempts, same] at there
      exact unprepared row there
    | @begin _ _ _ attempt _ next ran =>
      obtain ⟨sha256, now, same⟩ := (beginChecked_ok ran).1.row
      subst same
      obtain old | new := (mem_append_prepared (by rfl)).1 there
      · exact unprepared row old
      · rw [new]
        exact other attempt rfl
    | finish ran => exact unprepared row ((finish_ok ran).prepared row there)
    | recover ran => exact unprepared row ((recover_ok ran).prepared there)
    | other => exact unprepared row there
  · intro event inside attempt same
    subst same
    exact unbegun attempt inside

/-- The attempts that a step leaves prepared, or what settles or retires one. -/
theorem AttemptStep.settles (step : AttemptStep system event after) (apart : Apart system.journal)
    (there : row ∈ system.journal.preparedAttempts)
    (gone : row ∉ after.journal.preparedAttempts) :
    (∃ completion, event = .finished completion ∧ completion.names row = true ∧
        system.journal.runtime = some row.runtimeId) ∨
      ∃ candidate runtime, event = .recovered candidate ∧ candidate.original = row ∧
        row.method = "thread/resume" ∧ row.isScoped = true ∧
        system.journal.runtime = some runtime ∧ runtime ≠ row.runtimeId := by
  cases step with
  | activate ran =>
    have same := (activate_ok ran).2
    simp only [MutationJournal.preparedAttempts, same] at gone
    exact absurd there gone
  | begin ran =>
    obtain ⟨sha256, now, same⟩ := (beginChecked_ok ran).1.row
    subst same
    exact absurd ((mem_append_prepared (by rfl)).2 (Or.inl there)) gone
  | @finish _ completion _ _ ran =>
    have finished := finish_ok ran
    cases named : completion.names row with
    | false => exact absurd (finished.kept row there named) gone
    | true =>
      refine Or.inl ⟨completion, rfl, named, ?_⟩
      rw [finished.current, (names_iff.1 named).2.1]
  | @recover _ _ _ _ _ _ candidate _ _ _ _ _ _ _ ran =>
    have recovered := recover_ok ran
    obtain ⟨inside, prepared⟩ := mem_prepared.1 there
    by_cases own : row.attemptId = candidate.original.attemptId
    · have one := apart.ids row inside _ (mem_prepared.1 recovered.row).1 own
      obtain ⟨runtime, current, other⟩ := recovered.current
      rw [one]
      exact Or.inr ⟨candidate, runtime, rfl, rfl, recovered.resume.1, recovered.resume.2,
        current, other⟩
    · exact absurd (mem_prepared.2 ⟨recovered.gone row inside own, prepared⟩) gone
  | other => exact absurd there gone

end

/-- A single unscoped attempt is prepared at a time, or scoped ones of different targets.  One is
settled by a finish that names it under its current runtime, or retired as an older runtime's
resume; pruning leaves them all; and after a finish an id can be finished again only if it is
begun again. -/
theorem mutation_journal_exclusive {ρ : Type} {db : QueueDb ρ} {events : List AttemptEvent}
    {system : AttemptsSystem ρ} (run : AttemptRun (.start db) events system) :
    Exclusive system.journal ∧
      (∀ archive, ∀ row ∈ system.journal.preparedAttempts,
        row ∈ (prune archive system.journal).preparedAttempts) ∧
      ∀ past before event after later, events = past ++ event :: later →
        AttemptRun (.start db) past before → AttemptStep before event after →
          AttemptRun after later system →
          (∀ row ∈ before.journal.preparedAttempts, row ∉ after.journal.preparedAttempts →
            (∃ completion, event = .finished completion ∧ completion.names row = true ∧
                before.journal.runtime = some row.runtimeId) ∨
              ∃ candidate runtime, event = .recovered candidate ∧ candidate.original = row ∧
                row.method = "thread/resume" ∧ row.isScoped = true ∧
                before.journal.runtime = some runtime ∧ runtime ≠ row.runtimeId ∧
                ∃ front attempt mid other, past = front ++ .begun attempt :: mid ∧
                  attempt.attemptId = row.attemptId ∧ attempt.runtimeId = row.runtimeId ∧
                  .activated other ∈ mid ∧ other ≠ row.runtimeId) ∧
          (∀ completion, event = .finished completion →
            (∃ row ∈ before.journal.preparedAttempts, completion.names row = true ∧
              row ∉ after.journal.preparedAttempts) ∧
            ∀ mid again rest, later = mid ++ .finished again :: rest →
              again.attemptId = completion.attemptId →
                ∃ attempt, .begun attempt ∈ mid ∧ attempt.attemptId = completion.attemptId) := by
  refine ⟨(attempt_run run).exclusive, fun archive row there => mem_prune_prepared.2 there, ?_⟩
  intro past before event after later _ front step back
  have apart := attempt_run front
  refine ⟨?_, ?_⟩
  · intro row there gone
    refine (step.settles apart there gone).imp_right ?_
    intro retired
    obtain ⟨candidate, runtime, same, original, resume, isScoped, current, other⟩ := retired
    refine ⟨candidate, runtime, same, original, resume, isScoped, current, other, ?_⟩
    obtain ⟨first, attempt, mid, begun, id, under, still | ⟨newer, differs, activated⟩⟩ :=
      begun_run front row (mem_prepared.1 there).1
    · rw [still] at current
      exact absurd (Option.some.inj current).symm other
    · exact ⟨first, attempt, mid, newer, begun, id, under, activated, differs⟩
  · intro completion finish
    subst finish
    cases step with
    | finish ran =>
      have finished := finish_ok ran
      refine ⟨finished.one, ?_⟩
      intro mid again rest same id
      rw [same] at back
      obtain ⟨next, last, middle, second, _⟩ := back.split_at
      by_contra unbegun
      have unprepared := unprepared_run middle
        (fun attempt inside begun => unbegun ⟨attempt, inside, begun⟩)
        (finished.unprepared apart)
      cases second with
      | finish ran =>
        obtain ⟨row, there, named, _⟩ := (finish_ok ran).one
        exact unprepared row there ((names_iff.1 named).1.trans id)

def exampleAttempts : AttemptArchive := ⟨fun _ => false, fun _ => false, fun _ => true⟩

def exampleResume : NewAttempt :=
  ⟨"runtime", "owner", 1, "attempt", "wire", "thread/resume", some "thread", true, .null⟩

def exampleActive : MutationJournal := { MutationJournal.empty with runtime := some "runtime" }

def exampleBegun : MutationJournal := exampleActive.append (exampleResume.row "" 1)

def otherResume : NewAttempt :=
  { exampleResume with
    attemptId := "attempt-2", wireId := "wire-2", targetThreadId := some "thread-2" }

def bothBegun : MutationJournal := exampleBegun.append (otherResume.row "" 2)

theorem example_begun : beginChecked exampleAttempts (fun _ => "") (fun _ => .ok ()) exampleResume 1
    exampleActive = .ok exampleBegun := by
  have alone : unblocked exampleResume.scope exampleActive = .ok () :=
    unblocked_ok.2 fun _ none => nomatch none
  have identified : exampleResume.identified = true := by decide +kernel
  simp only [beginChecked, identified, alone]
  rfl

theorem other_begun : beginChecked exampleAttempts (fun _ => "") (fun _ => .ok ()) otherResume 2
    exampleBegun = .ok bothBegun := by
  have apart : unblocked otherResume.scope exampleBegun = .ok () :=
    unblocked_ok.2 (by decide +kernel)
  have identified : otherResume.identified = true := by decide +kernel
  simp only [beginChecked, identified, apart]
  rfl

def exampleReply : Completion := ⟨"runtime", "owner", 1, "attempt", "wire", "reply_ok"⟩

def emptyDb : QueueDb Unit :=
  ⟨.empty, .empty, .empty, .empty, .empty, .empty, .empty, .empty, [], [], none, true, ()⟩

/-- The reply of one of two requests settles its attempt, and the other stays prepared. -/
theorem example_settled : ∃ system, AttemptRun (.start emptyDb)
    [.activated "runtime", .begun exampleResume, .begun otherResume, .finished exampleReply] system ∧
      Exclusive system.journal ∧
      (∀ archive, ∀ row ∈ system.journal.preparedAttempts,
        row ∈ (prune archive system.journal).preparedAttempts) ∧
      (∃ row ∈ bothBegun.preparedAttempts, exampleReply.names row = true ∧
        row ∉ system.journal.preparedAttempts) ∧
      ∃ row ∈ system.journal.preparedAttempts, row.attemptId = "attempt-2" := by
  have activated : activate "runtime" .empty = .ok exampleActive := rfl
  have finished : finish exampleAttempts exampleReply 2 bothBegun = .ok _ := rfl
  have front : AttemptRun (.start emptyDb)
      [.activated "runtime", .begun exampleResume, .begun otherResume] ⟨bothBegun, .empty, emptyDb⟩ :=
    .cons (AttemptStep.activate activated) <|
    .cons (AttemptStep.begin example_begun) <|
    .single (AttemptStep.begin other_begun)
  have last : AttemptStep ⟨bothBegun, .empty, emptyDb⟩ (.finished exampleReply) _ :=
    .finish finished
  have run := front.append (.single last)
  obtain ⟨exclusive, pruned, steps⟩ := mutation_journal_exclusive run
  obtain ⟨-, settles⟩ := steps _ _ _ _ [] rfl front last (.nil _)
  refine ⟨_, run, exclusive, pruned, (settles exampleReply rfl).1, ?_⟩
  decide +kernel

end CodexRemote.Verified.MutationAttempts

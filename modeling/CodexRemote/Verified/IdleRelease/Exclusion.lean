import CodexRemote.Verified.IdleRelease.System

/-! # Ordinary mutations and subscription maintenance exclude each other

The gate keeps the permits apart.  An exclusive permit is what takes an intent into maintenance, so
an intent whose thread has an ordinary permit stays a candidate or settled.
-/

namespace CodexRemote.Verified.IdleRelease

open Foundations Store Store.IdleRelease
open AppServer (TargetGate)

/-- The threads under maintenance. -/
def IdleSystem.maintained (system : IdleSystem) : List String := system.works.map (·.threadId)

/-- The intent that the event stages is a new one. -/
def IdleEvent.New (journal : Journal) (event : IdleEvent) : Prop :=
  ∀ staged, event.staged? = some staged → ∀ row ∈ journal.rows, row.intentId ≠ staged.2

/-! ## What a step does to the journal -/

section

variable {staged : Option (String × String)} {maintains other : String → Prop} {journal next : Journal}
  {system after : IdleSystem} {event : IdleEvent} {thread : String}

theorem JournalMove.mono (move : JournalMove staged maintains journal next)
    (wider : ∀ thread, maintains thread → other thread) : JournalMove staged other journal next := by
  intro thread
  have moved := move thread
  generalize journal.find thread = before at moved ⊢
  generalize next.find thread = after at moved ⊢
  cases moved with
  | same => exact .same
  | moved legal permitted => exact .moved legal (permitted.imp_left (wider thread))
  | staged free id candidate => exact .staged free id candidate
  | pruned settled => exact .pruned settled

/-- An intent goes into maintenance by a maintenance task or by the call that resumes it. -/
theorem IdleStep.journalMove (step : IdleStep system event after) (new : event.New system.journal) :
    JournalMove event.staged?
      (fun thread => thread ∈ system.maintained ∨
        ∃ token, event = .resumable token ∧ token.threadId = thread)
      system.journal after.journal := by
  cases step with
  | refuse | checkAll | grant | conflict | resubscribe | verify | unreserve | reserve | drop
  | release => exact journalMove_refl
  | check _ _ ran => exact (beforeMutation_none ran).1
  | @resume _ _ _ _ token _ _ _ ran =>
    obtain ⟨own, old, _, _, _, _, _, move⟩ := beforeMutation_some ran
    exact move.mono fun thread same => Or.inr ⟨token, rfl, own.trans same.symm⟩
  | reject _ ran =>
    rw [beforeMutation_error ran]
    exact journalMove_refl
  | advance alive ran =>
    exact transition_move ran (Or.inl (Or.inl (by simp [IdleSystem.maintained, alive])))
  | defer _ ran => exact transition_move ran (Or.inr (Or.inl rfl))
  | stage => exact stageCandidate_move (new _ rfl)
  | enqueue ran => exact beforeEnqueue_move ran
  | clean ran => exact beforeCleanup_move ran
  | exit => exact settleExitedOwner_move

end

/-! ## The permits -/

/-- What the call that holds the lock has established. -/
def GateCall.Sound (journal : Journal) (permits : List (Option String)) (maintained : List String) :
    GateCall → Prop
  | .granting none => maintained = []
  | .granting (some thread) => thread ∉ maintained ∧ Quiet (journal.find thread)
  | .reserving token =>
    token.threadId ∉ maintained ∧ none ∉ permits ∧ some token.threadId ∉ permits
  | .resubscribing token => token.threadId ∉ maintained

structure Excluded (system : IdleSystem) : Prop where
  counted : Counted system.gate system.permits
  exclusive : ∀ thread, thread ∈ system.gate.exclusive ↔ thread ∈ system.maintained
  distinct : system.maintained.Nodup
  apart : ∀ thread ∈ system.maintained, none ∉ system.permits ∧ some thread ∉ system.permits
  quiet : ∀ thread, some thread ∈ system.permits → Quiet (system.journal.find thread)
  holder : ∀ call, system.holder = some call →
    call.Sound system.journal system.permits system.maintained

section

variable {gate : TargetGate} {holder : Option GateCall} {journal next : Journal}
  {permits : List (Option String)} {works now : List Intent} {staged : Option (String × String)}
  {system after : IdleSystem} {event : IdleEvent} {token : Intent}

theorem excluded_start : Excluded (.start journal) where
  counted := fun _ => rfl
  exclusive := fun _ => Iff.rfl
  distinct := List.nodup_nil
  apart := fun _ none => absurd none List.not_mem_nil
  quiet := fun _ none => absurd none List.not_mem_nil
  holder := fun _ none => nomatch none

theorem Excluded.unmaintained (excluded : Excluded system) {target : Option String}
    (free : system.gate.maintained target = false) :
    match target with
    | none => system.maintained = []
    | some thread => thread ∉ system.maintained := by
  cases target with
  | none =>
    have empty : system.gate.exclusive = [] := by simpa [TargetGate.maintained] using free
    rw [List.eq_nil_iff_forall_not_mem]
    intro thread held
    have inside := (excluded.exclusive thread).2 held
    rw [empty] at inside
    exact absurd inside List.not_mem_nil
  | some thread =>
    intro held
    have inside := (excluded.exclusive thread).2 held
    simp [TargetGate.maintained, inside] at free

theorem Excluded.ordinary (excluded : Excluded system) {thread : String}
    (held : thread ∈ system.maintained) :
    some thread ∉ system.permits ∧ system.holder ≠ some (.granting (some thread)) := by
  refine ⟨(excluded.apart thread held).2, ?_⟩
  intro granting
  exact (excluded.holder _ granting).1 held

/-- A transaction takes only intents into maintenance that no ordinary mutation relies on. -/
theorem Excluded.move {maintains : String → Prop}
    (excluded : Excluded ⟨gate, holder, journal, permits, works⟩)
    (same : now.map (·.threadId) = works.map (·.threadId))
    (moved : JournalMove staged maintains journal next)
    (ordinary : ∀ thread, maintains thread →
      some thread ∉ permits ∧ holder ≠ some (.granting (some thread))) :
    Excluded ⟨gate, holder, next, permits, now⟩ := by
  have maintained : (IdleSystem.mk gate holder next permits now).maintained =
      (IdleSystem.mk gate holder journal permits works).maintained := same
  constructor
  · exact excluded.counted
  · rw [maintained]
    exact excluded.exclusive
  · rw [maintained]
    exact excluded.distinct
  · rw [maintained]
    exact excluded.apart
  · intro thread permit
    exact (moved thread).quiet (fun taken => (ordinary thread taken).1 permit)
      (excluded.quiet thread permit)
  · intro call held
    have sound := excluded.holder call held
    rw [maintained]
    cases call with
    | granting target =>
      cases target with
      | none => exact sound
      | some thread =>
        exact ⟨sound.1,
          (moved thread).quiet (fun taken => (ordinary thread taken).2 held) sound.2⟩
    | reserving token => exact sound
    | resubscribing token => exact sound

/-- The lock is given to a call, or released. -/
theorem Excluded.lock (excluded : Excluded system)
    (sound : ∀ call, holder = some call →
      call.Sound system.journal system.permits system.maintained) :
    Excluded { system with holder := holder } :=
  ⟨excluded.counted, excluded.exclusive, excluded.distinct, excluded.apart, excluded.quiet, sound⟩

/-- An exclusive permit is given. -/
theorem Excluded.reserve (excluded : Excluded system)
    (unmaintained : token.threadId ∉ system.maintained)
    (unmutated : none ∉ system.permits ∧ some token.threadId ∉ system.permits) :
    Excluded { system with
      gate := system.gate.insertExclusive token.threadId
      holder := none
      works := token :: system.works } := by
  constructor
  · exact excluded.counted
  · intro thread
    simp only [TargetGate.insertExclusive, List.mem_insert_iff, excluded.exclusive,
      IdleSystem.maintained, List.map_cons, List.mem_cons]
  · exact List.nodup_cons.2 ⟨unmaintained, excluded.distinct⟩
  · intro thread held
    obtain same | older := List.mem_cons.1 held
    · rw [same]
      exact unmutated
    · exact excluded.apart thread older
  · exact excluded.quiet
  · intro call none
    cases none

/-- An ordinary permit is given. -/
theorem Excluded.grant {target : Option String} (excluded : Excluded system)
    (held : system.holder = some (.granting target)) :
    Excluded { system with
      gate := system.gate.count target, holder := none, permits := target :: system.permits } := by
  have sound := excluded.holder _ held
  constructor
  · exact excluded.counted.count
  · exact excluded.exclusive
  · exact excluded.distinct
  · intro thread maintained
    obtain ⟨all, one⟩ := excluded.apart thread maintained
    cases target with
    | none =>
      have empty : system.maintained = [] := sound
      change thread ∈ system.maintained at maintained
      rw [empty] at maintained
      exact absurd maintained List.not_mem_nil
    | some other =>
      refine ⟨by simpa using all, ?_⟩
      intro permit
      obtain same | older := List.mem_cons.1 permit
      · cases same
        exact sound.1 maintained
      · exact one older
  · intro thread permit
    obtain same | older := List.mem_cons.1 permit
    · rw [← same] at sound
      exact sound.2
    · exact excluded.quiet thread older
  · intro call none
    cases none

theorem IdleStep.excluded (step : IdleStep system event after) (new : event.New system.journal)
    (excluded : Excluded system) : Excluded after := by
  have moved := step.journalMove new
  cases step with
  | refuse | unreserve => exact excluded
  | checkAll free unmaintained =>
    refine excluded.lock ?_
    intro call same
    cases same
    exact excluded.unmaintained unmaintained
  | @check _ _ thread _ _ free unmaintained ran =>
    obtain ⟨move, cleared⟩ :=
      @beforeMutation_none _ _ _ _ none (fun _ => False) _ _ ran
    refine (excluded.move rfl move (fun _ none => none.elim)).lock ?_
    intro call same
    cases same
    exact ⟨excluded.unmaintained unmaintained, cleared.quiet⟩
  | @resume _ _ thread _ token _ free unmaintained ran =>
    obtain ⟨own, old, found, unloading, _, _, _, move⟩ :=
      @beforeMutation_some _ _ _ _ none _ _ _ ran
    -- the intent awaits its unload, so its thread has no ordinary permit
    have unpermitted : some thread ∉ system.permits := by
      intro permit
      obtain candidate | settled := excluded.quiet thread permit old found
      · rw [unloading] at candidate
        cases candidate
      · rw [unloading] at settled
        cases settled
    refine (excluded.move rfl move ?_).lock ?_
    · intro other same
      subst same
      exact ⟨unpermitted, by rw [free]; intro none; cases none⟩
    · intro call same
      cases same
      show token.threadId ∉ system.maintained
      rw [own]
      exact excluded.unmaintained unmaintained
  | reject free ran =>
    rw [beforeMutation_error ran]
    exact excluded
  | grant held => exact excluded.grant held
  | conflict held _ => exact excluded.lock (fun _ none => nomatch none)
  | resubscribe held unmutating =>
    exact excluded.reserve (excluded.holder _ held) (excluded.counted.mutating.1 unmutating)
  | @verify _ _ token free open_ ran =>
    have unmutating : system.gate.mutating token.threadId = false ∧
        token.threadId ∉ system.gate.exclusive := by
      simpa [TargetGate.reservable] using open_
    refine excluded.lock ?_
    intro call same
    cases same
    refine ⟨?_, excluded.counted.mutating.1 unmutating.1⟩
    rw [← excluded.exclusive]
    exact unmutating.2
  | reserve held =>
    have sound := excluded.holder _ held
    exact excluded.reserve sound.1 sound.2
  | @drop front back target gate free alive ran =>
    have counted := excluded.counted
    rw [alive] at counted
    obtain ⟨next, dropped, fewer, kept⟩ := counted.drop
    cases ran.symm.trans dropped
    have sub : ∀ {permit}, permit ∈ front ++ back → permit ∈ system.permits := by
      intro permit inside
      rw [alive]
      simp only [List.mem_append, List.mem_cons] at inside ⊢
      exact inside.imp_right Or.inr
    constructor
    · exact fewer
    · intro thread
      rw [kept]
      exact excluded.exclusive thread
    · exact excluded.distinct
    · intro thread held
      obtain ⟨all, one⟩ := excluded.apart thread held
      exact ⟨fun permit => all (sub permit), fun permit => one (sub permit)⟩
    · intro thread permit
      exact excluded.quiet thread (sub permit)
    · intro call held
      rw [free] at held
      cases held
  | @release front back token free alive =>
    have threads : system.maintained =
        front.map (·.threadId) ++ token.threadId :: back.map (·.threadId) := by
      simp [IdleSystem.maintained, alive]
    have remaining : ∀ thread, thread ∈ (front ++ back).map (·.threadId) ↔
        thread ∈ system.maintained ∧ thread ≠ token.threadId := by
      have distinct := excluded.distinct
      rw [threads, List.nodup_middle, List.nodup_cons] at distinct
      intro thread
      rw [threads, List.map_append]
      constructor
      · intro inside
        refine ⟨?_, ?_⟩
        · simp only [List.mem_append, List.mem_cons] at inside ⊢
          exact inside.imp_right Or.inr
        · intro same
          rw [same] at inside
          exact distinct.1 inside
      · intro inside
        obtain ⟨inside, apart⟩ := inside
        simp only [List.mem_append, List.mem_cons] at inside ⊢
        exact inside.imp_right fun last => last.resolve_left apart
    constructor
    · exact excluded.counted
    · intro thread
      change thread ∈ (system.gate.releaseExclusive token.threadId).exclusive ↔
        thread ∈ (front ++ back).map (·.threadId)
      rw [remaining, ← excluded.exclusive]
      simp [TargetGate.releaseExclusive]
    · have distinct := excluded.distinct
      rw [threads, List.nodup_middle, List.nodup_cons] at distinct
      change ((front ++ back).map (·.threadId)).Nodup
      rw [List.map_append]
      exact distinct.2
    · intro thread held
      exact excluded.apart thread ((remaining thread).1 held).1
    · exact excluded.quiet
    · intro call held
      rw [free] at held
      cases held
  | @advance _ front back old token state detail next alive ran =>
    obtain ⟨_, updated, found⟩ := transition_ok ran
    have own : token.threadId = old.threadId := Table.find_key found.symm
    refine excluded.move ?_ moved ?_
    · simp [alive, own]
    · intro thread taken
      obtain held | ⟨_, resumed, _⟩ := taken
      · exact excluded.ordinary held
      · cases resumed
  | defer | stage | enqueue | clean | exit =>
    refine excluded.move rfl moved ?_
    intro thread taken
    obtain held | ⟨_, resumed, _⟩ := taken
    · exact excluded.ordinary held
    · cases resumed

end

/-! ## Revisions are spent once

An update raises the revision of the intent it found, and a staged intent has an id of its own.  So
the rows of a spent revision's intent keep larger revisions.
-/

/-- The journal had the intent at this revision, and has it no more. -/
def Consumes (before after : Journal) (intentId : String) (revision : Int) : Prop :=
  (∃ row ∈ before.rows, row.intentId = intentId ∧ row.revision = revision) ∧
    ∀ row ∈ after.rows, row.intentId = intentId → row.revision ≠ revision

/-- The intents in the journal are known, each under one thread. -/
structure Identified (known : List String) (journal : Journal) : Prop where
  known : ∀ row ∈ journal.rows, row.intentId ∈ known
  single : ∀ row ∈ journal.rows, ∀ other ∈ journal.rows, row.intentId = other.intentId → row = other

def Spent (intentId : String) (revision : Int) (journal : Journal) : Prop :=
  ∀ row ∈ journal.rows, row.intentId = intentId → revision < row.revision

section

variable {staged : Option (String × String)} {maintains : String → Prop} {journal next : Journal}
  {known : List String} {intentId thread : String} {revision : Int} {row : Intent}

/-- An intent is newly staged, or was there under the same id. -/
theorem IntentMove.origin {before : Option Intent} {permitted : Prop}
    (move : IntentMove staged permitted before (some row)) :
    staged = some (row.threadId, row.intentId) ∨ ∃ old, before = some old ∧ old.intentId = row.intentId ∧
      (old = row ∨ old.revision < row.revision) := by
  cases move with
  | same => exact Or.inr ⟨row, rfl, rfl, Or.inl rfl⟩
  | @moved old state detail legal permitted =>
    exact Or.inr ⟨old, rfl, rfl, Or.inr (Int.lt_succ old.revision)⟩
  | staged free id candidate => exact Or.inl id

theorem JournalMove.origin (move : JournalMove staged maintains journal next)
    (member : row ∈ next.rows) :
    staged = some (row.threadId, row.intentId) ∨ ∃ old ∈ journal.rows, old.threadId = row.threadId ∧
      old.intentId = row.intentId ∧ (old = row ∨ old.revision < row.revision) := by
  have moved := move row.threadId
  rw [Table.find_of_mem member] at moved
  obtain new | ⟨old, found, same, older⟩ := moved.origin
  · exact Or.inl new
  · exact Or.inr ⟨old, Table.mem_of_find found, Table.find_key found, same, older⟩

theorem Identified.unstaged (identified : Identified known journal)
    (new : ∀ pair, staged = some pair → pair.2 ∉ known)
    (fresh : staged = some (row.threadId, row.intentId)) {old : Intent}
    (there : old ∈ journal.rows) : old.intentId ≠ row.intentId := by
  intro same
  have unknown := new _ fresh
  rw [← same] at unknown
  exact unknown (identified.known old there)

theorem Identified.step (identified : Identified known journal)
    (move : JournalMove staged maintains journal next)
    (new : ∀ pair, staged = some pair → pair.2 ∉ known) :
    Identified (known ++ (staged.map Prod.snd).toList) next := by
  constructor
  · intro row member
    rw [List.mem_append, Option.mem_toList]
    obtain fresh | ⟨old, there, _, same, _⟩ := move.origin member
    · exact Or.inr (by rw [fresh]; rfl)
    · rw [← same]
      exact Or.inl (identified.known old there)
  · intro row member other otherMember same
    refine Table.eq_of_key member otherMember ?_
    obtain fresh | ⟨old, there, thread, id, _⟩ := move.origin member
    · obtain again | ⟨old, there, _, id, _⟩ := move.origin otherMember
      · rw [fresh] at again
        exact (Prod.mk.inj (Option.some.inj again)).1
      · exact absurd (id.trans same.symm) (identified.unstaged new fresh there)
    · obtain fresh | ⟨older, here, otherThread, otherId, _⟩ := move.origin otherMember
      · exact absurd (id.trans same) (identified.unstaged new fresh there)
      · rw [← thread, ← otherThread,
          identified.single old there older here (id.trans (same.trans otherId.symm))]

theorem Spent.step (spent : Spent intentId revision journal)
    (move : JournalMove staged maintains journal next)
    (new : ∀ pair, staged = some pair → pair.2 ≠ intentId) : Spent intentId revision next := by
  intro row member own
  obtain fresh | ⟨old, there, _, same, older⟩ := move.origin member
  · exact absurd own (new _ fresh)
  · have before := spent old there (same.trans own)
    obtain rfl | older := older
    · exact before
    · exact Int.lt_trans before older

/-- A revision that is consumed is spent. -/
theorem Consumes.spent (consumes : Consumes journal next intentId revision)
    (identified : Identified known journal) (move : JournalMove staged maintains journal next)
    (new : ∀ pair, staged = some pair → pair.2 ∉ known) : Spent intentId revision next := by
  obtain ⟨⟨spent, there, id, rev⟩, gone⟩ := consumes
  intro row member own
  obtain fresh | ⟨old, here, _, same, older⟩ := move.origin member
  · exact absurd (id.trans own.symm) (identified.unstaged new fresh there)
  · have one := identified.single old here spent there (same.trans (own.trans id.symm))
    obtain rfl | older := older
    · exact absurd (by rw [one, rev]) (gone old member own)
    · rw [← rev, ← one]
      exact older

/-- A spent revision is not consumed again. -/
theorem Spent.not_consumes (spent : Spent intentId revision journal) :
    ¬Consumes journal next intentId revision := by
  intro consumes
  obtain ⟨⟨row, there, id, rev⟩, _⟩ := consumes
  have above := spent row there id
  rw [rev] at above
  exact absurd above (Int.lt_irrefl revision)

/-- A transaction that changes a thread's intent consumes its revision. -/
theorem JournalMove.consumes (move : JournalMove staged maintains journal next)
    (identified : Identified known journal)
    (new : ∀ pair, staged = some pair → pair.2 ∉ known)
    (found : journal.find thread = some row) (changed : next.find thread ≠ some row) :
    Consumes journal next row.intentId row.revision := by
  have there := Table.mem_of_find found
  refine ⟨⟨row, there, rfl, rfl⟩, ?_⟩
  intro other member id
  obtain fresh | ⟨old, here, _, same, older⟩ := move.origin member
  · exact absurd id.symm (identified.unstaged new fresh there)
  · have one := identified.single old here row there (same.trans id)
    obtain rfl | older := older
    · rw [one] at member
      have kept := Table.find_of_mem member
      rw [Table.find_key found] at kept
      exact absurd kept changed
    · rw [one] at older
      exact (Int.ne_of_lt older).symm

theorem update_consumes {archive : IdleArchive} {old : Intent} {state : IdleState} {detail : String}
    (ran : update archive old state detail journal = .ok next)
    (move : JournalMove staged maintains journal next) (identified : Identified known journal)
    (new : ∀ pair, staged = some pair → pair.2 ∉ known) :
    Consumes journal next old.intentId old.revision := by
  obtain ⟨row, same, _, found, after, _⟩ := update_ok ran
  have equal := sameRevision_iff.1 same
  rw [← equal.1, ← equal.2.2.2.2.2.2]
  refine move.consumes identified new found ?_
  rw [after]
  intro unchanged
  have raised : row.revision + 1 = row.revision := congrArg Intent.revision (Option.some.inj unchanged)
  omega

theorem allowed_unknown {state : IdleState} {detail : String}
    (legal : allowed .unknown state detail) : state = .settled ∧ detail = "OldServerExited" := by
  cases state with
  | settled =>
    refine ⟨rfl, ?_⟩
    by_cases exited : detail = "OldServerExited"
    · exact exited
    · simp [allowed, exited] at legal
  | candidate | dispatching | awaitUnload | resubscribing | unknown => simp [allowed] at legal

/-- An unknown intent is settled by the exit of its server alone. -/
theorem IntentMove.unknown {permitted : Prop} {after : Option Intent}
    (move : IntentMove staged permitted (some row) after) (unknown : row.state = .unknown) :
    after = some row ∨ after = some (row.moved .settled "OldServerExited") := by
  cases move with
  | same => exact Or.inl rfl
  | @moved _ state detail legal permitted =>
    rw [unknown] at legal
    obtain legal | ⟨unloading, _⟩ := legal
    · obtain ⟨settled, exited⟩ := allowed_unknown legal
      rw [settled, exited]
      exact Or.inr rfl
    · cases unloading
  | staged free id candidate =>
    have settled := free row rfl
    rw [unknown] at settled
    cases settled
  | pruned settled =>
    rw [unknown] at settled
    cases settled

end

end CodexRemote.Verified.IdleRelease

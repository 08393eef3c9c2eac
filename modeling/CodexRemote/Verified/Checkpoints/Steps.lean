import CodexRemote.Foundations.Transactions
import CodexRemote.RemoteAgent.Checkpoints
import CodexRemote.Verified.Checkpoints.Writes

/-! # What the steps of a mutation do to the files

Reading changes nothing.  A step that succeeds gives its file what it is to have and records
the digest of that; one that fails records nothing, and leaves its file as it was unless it
tears it.
-/

namespace CodexRemote.Verified.Checkpoints

open RemoteAgent Foundations

variable {κ : Type}

/-- What the files hold. -/
def contents (w : World κ) (k : κ) : Option Bytes := contentOf (w.files k)

/-- The files and the records are the same. -/
structure Still (w w' : World κ) : Prop where
  files : w'.files = w.files
  records : w'.records = w.records

theorem Still.refl (w : World κ) : Still w w := ⟨rfl, rfl⟩

theorem Still.next (w : World κ) : Still w w.next := ⟨rfl, rfl⟩

variable {w w' : World κ} {steps : List Step} {tracker tracker' : MutationTracker}

theorem Still.trans {w'' : World κ} (first : Still w w') (second : Still w' w'') :
    Still w w'' :=
  ⟨second.files.trans first.files, second.records.trans first.records⟩

theorem Still.contents (still : Still w w') : contents w' = contents w := by
  funext k
  rw [Checkpoints.contents, Checkpoints.contents, still.files]

theorem contents_setFile [DecidableEq κ] (w : World κ) (k : κ) (file : Option File) :
    contents (w.next.setFile k file) = Function.update (contents w) k (contentOf file) := by
  funext other
  by_cases same : other = k
  · simp [contents, World.setFile, World.next, same]
  · simp [contents, World.setFile, World.next, same]

variable {access : Access κ}

/-- The file that a path names. -/
def named (access : Access κ) (path : String) : Option κ := (access.resolve path).toOption

theorem named_resolve {path : String} {k : κ} (resolved : access.resolve path = .ok k) :
    named access path = some k := by
  rw [named, resolved]
  rfl

/-! ## Reading -/

theorem fileExists_still (access : Access κ) (path : String) (w : World κ) :
    Still w (access.fileExists path w).2 := by
  simp only [Access.fileExists]
  split
  · exact .refl w
  · split <;> exact .next w

theorem fileExists_ok {path : String} {found : Bool}
    (ok : access.fileExists path w = (.ok found, w')) :
    Still w w' ∧ ∃ k, named access path = some k ∧ (contents w k).isSome = found := by
  have still := fileExists_still access path w
  rw [ok] at still
  refine ⟨still, ?_⟩
  simp only [Access.fileExists] at ok
  split at ok
  · cases ok
  · next k resolved =>
    refine ⟨k, named_resolve resolved, ?_⟩
    split at ok
    · next opened =>
      cases ok
      obtain ⟨-, present, -⟩ := openVerified_ok opened
      simp [contents, contentOf, present]
    · next opened =>
      cases ok
      obtain ⟨-, absent⟩ := openVerified_notFound opened
      simp [contents, contentOf, absent]
    · cases ok

theorem readBytes_still (access : Access κ) (path : String) (maxBytes : Nat) (w : World κ) :
    Still w (access.readBytes path maxBytes w).2 := by
  simp only [Access.readBytes]
  split
  · exact .refl w
  · split
    · exact .next w
    · split_ifs <;> exact .next w

theorem readBytes_ok {path : String} {maxBytes : Nat} {content : Bytes}
    (ok : access.readBytes path maxBytes w = (.ok content, w')) :
    Still w w' ∧ ∃ k, named access path = some k ∧ contents w k = some content := by
  have still := readBytes_still access path maxBytes w
  rw [ok] at still
  refine ⟨still, ?_⟩
  simp only [Access.readBytes] at ok
  split at ok
  · cases ok
  · next k resolved =>
    refine ⟨k, named_resolve resolved, ?_⟩
    split at ok
    · cases ok
    · next file opened =>
      obtain ⟨-, present, -⟩ := openVerified_ok opened
      split_ifs at ok
      · cases ok
      · cases ok
      · cases ok
        simp [contents, contentOf, present]

/-! ## Writing and deleting -/

variable [DecidableEq κ]

/-- The operation fails and leaves the file different. -/
def writeTears (access : Access κ) (path : String) (content : Bytes) (maxBytes : Nat)
    (expected : Option String) (w : World κ) : Bool :=
  match access.resolve path with
  | .error _ => false
  | .ok k =>
    content.length ≤ maxBytes && writeTorn access.hexDigest w.fails content expected (w.files k)

def deleteTears (access : Access κ) (path expected : String) (w : World κ) : Bool :=
  match access.resolve path with
  | .error _ => false
  | .ok k => deleteTorn access.hexDigest w.fails expected (w.files k)

/-- What an operation on a file that is to hold `outcome` does: it succeeds, it changes
nothing, or it tears the file. -/
inductive Operated (access : Access κ) (path : String) (outcome : Option Bytes) (tears : Bool)
    (w : World κ) : Bool → World κ → Prop where
  | done {k : κ} {w' : World κ} (file : named access path = some k)
      (effect : contents w' = Function.update (contents w) k outcome)
      (records : w'.records = w.records) : Operated access path outcome tears w true w'
  | kept {w' : World κ} (same : contents w' = contents w) (records : w'.records = w.records)
      (whole : tears = false) : Operated access path outcome tears w false w'
  | torn {k : κ} {x : Option Bytes} {w' : World κ} (broken : tears = true)
      (file : named access path = some k) (effect : contents w' = Function.update (contents w) k x)
      (records : w'.records = w.records) (differs : x ≠ contents w k)
      (seen : x = none ∨ x = outcome) : Operated access path outcome tears w false w'

theorem writeBytes_operated (access : Access κ) (path : String) (content : Bytes)
    (maxBytes : Nat) (expected : Option String) (w : World κ) :
    Operated access path (some content) (writeTears access path content maxBytes expected w) w
      (access.writeBytes path content maxBytes expected w).1.isOk
      (access.writeBytes path content maxBytes expected w).2 := by
  simp only [Access.writeBytes, writeTears]
  cases resolved : access.resolve path with
  | error error => exact .kept rfl rfl rfl
  | ok k =>
    by_cases large : maxBytes < content.length
    · simp only [if_pos large, not_le.mpr large, decide_false, Bool.false_and]
      exact .kept rfl rfl rfl
    · simp only [if_neg large, not_lt.mp large, decide_true, Bool.true_and]
      have cases := write_cases access.hexDigest (access.display k) w.fails content expected
        (w.files k)
      generalize write access.hexDigest (access.display k) w.fails content expected (w.files k) =
        result at cases
      cases cases with
      | done new =>
        refine .done (named_resolve resolved) ?_ rfl
        rw [contents_setFile, new]
        rfl
      | kept same whole =>
        refine .kept ?_ rfl whole
        rw [contents_setFile, same]
        exact Function.update_eq_self k (contents w)
      | lost broken differs seen =>
        exact .torn broken (named_resolve resolved) (contents_setFile w k _) rfl differs seen

theorem deleteFile_operated (access : Access κ) (path expected : String) (w : World κ) :
    Operated access path none (deleteTears access path expected w) w
      (access.deleteFile path expected w).1.isOk (access.deleteFile path expected w).2 := by
  simp only [Access.deleteFile, deleteTears]
  cases resolved : access.resolve path with
  | error error => exact .kept rfl rfl rfl
  | ok k =>
    dsimp only
    have cases := delete_cases access.hexDigest (access.display k) w.fails expected (w.files k)
    generalize delete access.hexDigest (access.display k) w.fails expected (w.files k) = result
      at cases
    cases cases with
    | done gone =>
      refine .done (named_resolve resolved) ?_ rfl
      rw [contents_setFile, gone]
      rfl
    | kept same whole =>
      refine .kept ?_ rfl whole
      rw [contents_setFile, same]
      exact Function.update_eq_self k (contents w)
    | lost broken there gone =>
      refine .torn broken (named_resolve resolved) (contents_setFile w k _) rfl ?_ (.inl ?_)
      · rw [gone]
        intro same
        exact there (Option.map_eq_none_iff.mp same.symm)
      · rw [gone]
        rfl

/-! ## Steps -/

def stepPath : Step → String
  | .check path _ => path
  | .write path _ _ _ => path
  | .delete path _ => path

/-- What the file of a step is to hold after it, if the step changes it. -/
def stepOutcome : Step → Option (Option Bytes)
  | .check _ _ => none
  | .write _ content _ _ => some (some content)
  | .delete _ _ => some none

/-- The step fails and leaves its file different. -/
def stepTears (access : Access κ) (step : Step) (w : World κ) : Bool :=
  match step with
  | .check _ _ => false
  | .write path content maxBytes expected => writeTears access path content maxBytes expected w
  | .delete path expected => deleteTears access path expected w

/-- What a step does: it changes nothing, or it succeeds and records what it produced, or it
fails and records nothing. -/
inductive Stepped (access : Access κ) (step : Step) (w : World κ) (tracker : MutationTracker) :
    Except CheckpointError Unit × World κ × MutationTracker → Prop where
  | passed {w' : World κ} (still : Still w w') (checks : stepOutcome step = none) :
      Stepped access step w tracker (.ok (), w', tracker)
  | done {k : κ} {x : Option Bytes} {w' : World κ} (outcome : stepOutcome step = some x)
      (file : named access (stepPath step) = some k)
      (effect : contents w' = Function.update (contents w) k x) (records : w'.records = w.records) :
      Stepped access step w tracker
        (.ok (), w', tracker ++ [⟨stepPath step, x.isSome, x.map access.hexDigest⟩])
  | kept {error : CheckpointError} {w' : World κ} (same : contents w' = contents w)
      (records : w'.records = w.records) (whole : stepTears access step w = false) :
      Stepped access step w tracker (.error error, w', tracker)
  | torn {error : CheckpointError} {k : κ} {x : Option Bytes} {w' : World κ}
      (broken : stepTears access step w = true) (file : named access (stepPath step) = some k)
      (effect : contents w' = Function.update (contents w) k x) (records : w'.records = w.records)
      (differs : x ≠ contents w k) (seen : x = none ∨ stepOutcome step = some x) :
      Stepped access step w tracker (.error error, w', tracker)

theorem runStep_stepped (access : Access κ) (step : Step) (w : World κ)
    (tracker : MutationTracker) :
    Stepped access step w tracker (runStep access step w tracker) := by
  cases step with
  | check path expected =>
    have still := readBytes_still access path maxFileBytes w
    simp only [runStep]
    generalize access.readBytes path maxFileBytes w = result at still
    obtain ⟨error | content, w'⟩ := result
    · exact .kept still.contents still.records rfl
    · dsimp only
      split_ifs
      · exact .kept still.contents still.records rfl
      · exact .passed still rfl
  | write path content maxBytes expected =>
    have operated := writeBytes_operated access path content maxBytes expected w
    simp only [runStep]
    generalize access.writeBytes path content maxBytes expected w = result at operated
    obtain ⟨error | created, w'⟩ := result
    · cases operated with
      | kept same records whole => exact .kept same records whole
      | torn broken file effect records differs seen =>
        exact .torn broken file effect records differs (seen.imp_right fun same => by rw [same]; rfl)
    · cases operated with
      | done file effect records => exact .done rfl file effect records
  | delete path expected =>
    have operated := deleteFile_operated access path expected w
    simp only [runStep]
    generalize access.deleteFile path expected w = result at operated
    obtain ⟨error | deleted, w'⟩ := result
    · cases operated with
      | kept same records whole => exact .kept same records whole
      | torn broken file effect records differs seen =>
        exact .torn broken file effect records differs (.inl (seen.elim id id))
    · cases operated with
      | done file effect records => exact .done rfl file effect records

/-! ## Runs of steps -/

/-- The step at which a run stops, and the state that it stops in. -/
def stoppedAt (access : Access κ) : List Step → World κ → MutationTracker → Option (Step × World κ)
  | [], _, _ => none
  | step :: rest, w, tracker =>
    match runStep access step w tracker with
    | (.error _, _, _) => some (step, w)
    | (.ok (), w, tracker) => stoppedAt access rest w tracker

def logOf (tracker : MutationTracker) : UndoLog String (Option String) :=
  tracker.map fun state => (state.path, state.sha256)

/-- The tracker keeps track of what has been done since the start, within the paths and with
contents from the given ones. -/
structure Recorded (access : Access κ) (paths : List String) (given : Set Bytes)
    (start : κ → Option Bytes) (w : World κ) (tracker : MutationTracker) : Prop where
  tracked : Tracked (named access) (Option.map access.hexDigest) start (contents w) (logOf tracker)
  shaped : ∀ state ∈ tracker, state.exists_ = state.sha256.isSome
  inside : ∀ state ∈ tracker, state.path ∈ paths
  written : ∀ k, Touched (named access) (logOf tracker) k → ∀ c, contents w k = some c → c ∈ given

/-- The step stays within the paths and the given contents. -/
def StepWithin (paths : List String) (given : Set Bytes) (step : Step) : Prop :=
  stepPath step ∈ paths ∧ ∀ content, stepOutcome step = some (some content) → content ∈ given

variable {paths : List String} {given : Set Bytes} {start : κ → Option Bytes}

omit [DecidableEq κ] in
theorem Recorded.nil (access : Access κ) (paths : List String) (given : Set Bytes) (w : World κ) :
    Recorded access paths given (contents w) w [] where
  tracked := .nil _ _ _
  shaped := nofun
  inside := nofun
  written := by
    rintro k ⟨entry, member, -⟩
    cases member

theorem Recorded.step {step : Step} {w w' : World κ} {tracker tracker' : MutationTracker}
    (recorded : Recorded access paths given start w tracker) (within : StepWithin paths given step)
    (ran : runStep access step w tracker = (.ok (), w', tracker')) :
    Recorded access paths given start w' tracker' ∧ w'.records = w.records := by
  have stepped := runStep_stepped access step w tracker
  rw [ran] at stepped
  cases stepped with
  | passed still checks =>
    refine ⟨⟨?_, recorded.shaped, recorded.inside, ?_⟩, still.records⟩
    · rw [still.contents]
      exact recorded.tracked
    · rw [still.contents]
      exact recorded.written
  | @done k x _ outcome file effect records =>
    have log : logOf (tracker ++ [⟨stepPath step, x.isSome, x.map access.hexDigest⟩]) =
        logOf tracker ++ [(stepPath step, x.map access.hexDigest)] := by simp [logOf]
    refine ⟨⟨?_, ?_, ?_, ?_⟩, records⟩
    · rw [log, effect]
      exact recorded.tracked.set file x
    · intro state member
      obtain member | member := List.mem_append.mp member
      · exact recorded.shaped state member
      · rw [List.mem_singleton.mp member]
        exact Option.isSome_map.symm
    · intro state member
      obtain member | member := List.mem_append.mp member
      · exact recorded.inside state member
      · rw [List.mem_singleton.mp member]
        exact within.1
    · intro other touched c holds
      rw [effect] at holds
      rw [log, touched_append] at touched
      by_cases same : other = k
      · rw [same, Function.update_self] at holds
        exact within.2 c (by rw [outcome, holds])
      · rw [Function.update_of_ne same] at holds
        obtain touched | touched := touched
        · exact recorded.written other touched c holds
        · rw [file] at touched
          exact absurd (Option.some.inj touched).symm same

/-- A run that succeeds has kept track all along. -/
theorem runSteps_ok (recorded : Recorded access paths given start w tracker)
    (within : ∀ step ∈ steps, StepWithin paths given step)
    (ran : runSteps access steps w tracker = (.ok (), w', tracker')) :
    Recorded access paths given start w' tracker' ∧ w'.records = w.records := by
  induction steps generalizing w tracker with
  | nil =>
    cases ran
    exact ⟨recorded, rfl⟩
  | cons step rest ih =>
    simp only [runSteps] at ran
    split at ran
    · cases ran
    · next w₁ tracker₁ first =>
      obtain ⟨recorded, records⟩ := recorded.step (within step (List.mem_cons_self ..)) first
      obtain ⟨recorded, later⟩ :=
        ih recorded (fun step member => within step (List.mem_cons_of_mem _ member)) ran
      exact ⟨recorded, later.trans records⟩

/-- A run that fails has kept track up to the step that failed. -/
theorem runSteps_error
    {error : CheckpointError} (recorded : Recorded access paths given start w tracker)
    (within : ∀ step ∈ steps, StepWithin paths given step)
    (ran : runSteps access steps w tracker = (.error error, w', tracker')) :
    ∃ step ∈ steps, ∃ w₀, stoppedAt access steps w tracker = some (step, w₀) ∧
      Recorded access paths given start w₀ tracker' ∧ w₀.records = w.records ∧
      Stepped access step w₀ tracker' (.error error, w', tracker') := by
  induction steps generalizing w tracker with
  | nil => cases ran
  | cons step rest ih =>
    cases first : runStep access step w tracker with
    | mk result after =>
      obtain ⟨w₁, tracker₁⟩ := after
      simp only [runSteps, first] at ran
      simp only [stoppedAt, first]
      cases result with
      | error stopped =>
        cases ran
        have stepped := runStep_stepped access step w tracker
        rw [first] at stepped
        have same : tracker' = tracker := by cases stepped <;> rfl
        refine ⟨step, List.mem_cons_self .., w, rfl, ?_, rfl, ?_⟩
        · rw [same]
          exact recorded
        · rw [← same] at stepped
          exact stepped
      | ok done =>
        obtain ⟨recorded, records⟩ := recorded.step (within step (List.mem_cons_self ..)) first
        obtain ⟨last, member, w₀, stopped, recorded, earlier, stepped⟩ :=
          ih recorded (fun step member => within step (List.mem_cons_of_mem _ member)) ran
        exact ⟨last, List.mem_cons_of_mem _ member, w₀, stopped, recorded, earlier.trans records,
          stepped⟩

theorem stoppedAt_ok (ran : runSteps access steps w tracker = (.ok (), w', tracker')) :
    stoppedAt access steps w tracker = none := by
  induction steps generalizing w tracker with
  | nil => rfl
  | cons step rest ih =>
    cases first : runStep access step w tracker with
    | mk result after =>
      obtain ⟨w₁, tracker₁⟩ := after
      simp only [runSteps, first] at ran
      simp only [stoppedAt, first]
      cases result with
      | error stopped => cases ran
      | ok done => exact ih ran

/-- A run of steps that each give a file its start content restores these files. -/
theorem runSteps_restores (restoring : ∀ step ∈ steps, ∀ x, stepOutcome step = some x →
      ∀ k, named access (stepPath step) = some k → start k = x)
    (ran : runSteps access steps w tracker = (.ok (), w', tracker')) :
    contents w' = restoreAll start
      ((steps.filter fun step => (stepOutcome step).isSome).filterMap
        fun step => named access (stepPath step)) (contents w) := by
  induction steps generalizing w tracker with
  | nil =>
    cases ran
    rfl
  | cons step rest ih =>
    simp only [runSteps] at ran
    split at ran
    · cases ran
    · next w₁ tracker₁ first =>
      have later := ih (fun step member => restoring step (List.mem_cons_of_mem _ member)) ran
      have stepped := runStep_stepped access step w tracker
      rw [first] at stepped
      rw [later]
      cases stepped with
      | passed still checks => simp [checks, still.contents]
      | done outcome file effect records =>
        have value := restoring step (List.mem_cons_self ..) _ outcome _ file
        simp [outcome, file, restoreAll, effect, value]

end CodexRemote.Verified.Checkpoints

import CodexRemote.Verified.Checkpoints.Records

/-! # A failed mutation

When a mutation fails and its rollback goes through, everything is as it was, unless the step
that failed tore its file: that file is in nobody's record and stays torn.
-/

namespace CodexRemote.Verified.Checkpoints

open RemoteAgent Foundations

variable {κ : Type} [DecidableEq κ] (access : Access κ) (json : RecordCodec)

/-! ## Mutations -/

/-- The rollback of the mutation fails. -/
def rollbackFails (createdAt reason : String) (paths : List String) (steps : List Step)
    (w : World κ) : Bool :=
  match beginCheckpoint access createdAt reason paths w with
  | (.error _, _) => false
  | (.ok draft, w) =>
    match runSteps access steps w [] with
    | (.error _, w, tracker) => !(rollback access draft tracker w).1.isOk
    | (.ok (), w, tracker) =>
      match finish access json draft w with
      | (.ok _, _) => false
      | (.error _, w) => !(rollback access draft tracker w).1.isOk

/-- Applying stops at a step that tears its file. -/
def applyTears (createdAt reason : String) (paths : List String) (steps : List Step)
    (w : World κ) : Bool :=
  match beginCheckpoint access createdAt reason paths w with
  | (.error _, _) => false
  | (.ok _, w) =>
    match stoppedAt access steps w [] with
    | none => false
    | some (step, w) => stepTears access step w

variable {access json}

/-- What is left after the rollback of a run that was tracked. -/
theorem rolled_back {draft : CheckpointDraft} {paths : List String} {given : Set Bytes}
    {start : κ → Option Bytes} {w w₁ w' : World κ} {tracker : MutationTracker}
    (recorded : Recorded access paths given start w tracker)
    (snapped : Snapped access start draft.snapshots)
    (covered : ∀ path ∈ paths, ∃ snapshot ∈ draft.snapshots, snapshot.path = path)
    (same : contents w₁ = contents w)
    (ok : rollback access draft tracker w₁ = (.ok (), w')) :
    contents w' = start ∧ w'.records = w₁.records := by
  obtain ⟨records, confirmed, keys, restored, only⟩ := rollback_ok recorded.shaped snapped
    (fun state member => covered state.path (recorded.inside state member)) ok
  refine ⟨?_, records⟩
  rw [restored]
  exact recorded.tracked.restored (fun k touched => (only k).mpr touched)
    fun k untouched => by rw [same]

/-- A torn file stays torn: the tracker cannot name it, or the rollback would have failed. -/
theorem torn_stays {draft : CheckpointDraft} {paths : List String} {given : Set Bytes}
    {start : κ → Option Bytes} {w w₁ w' : World κ} {tracker : MutationTracker} {k : κ}
    {x : Option Bytes} (recorded : Recorded access paths given start w tracker)
    (snapped : Snapped access start draft.snapshots)
    (covered : ∀ path ∈ paths, ∃ snapshot ∈ draft.snapshots, snapshot.path = path)
    (distinct : Set.InjOn access.hexDigest given)
    (effect : contents w₁ = Function.update (contents w) k x) (differs : x ≠ contents w k)
    (seen : x = none ∨ ∃ content ∈ given, x = some content)
    (ok : rollback access draft tracker w₁ = (.ok (), w')) :
    contents w' k ≠ start k := by
  obtain ⟨-, confirmed, keys, restored, only⟩ := rollback_ok recorded.shaped snapped
    (fun state member => covered state.path (recorded.inside state member)) ok
  have holds : contents w₁ k = x := by rw [effect, Function.update_self]
  have untouched : ¬ Touched (named access) (logOf tracker) k := by
    intro touched
    have digest := recorded.tracked.confirmed confirmed touched
    rw [holds] at digest
    apply differs
    obtain gone | ⟨content, member, new⟩ := seen
    · rw [gone] at digest ⊢
      exact (Option.map_eq_none_iff.mp digest.symm).symm
    · rw [new, Option.map_some] at digest
      obtain ⟨old, held, same⟩ := Option.map_eq_some_iff.mp digest.symm
      have old_given := recorded.written k touched old held
      rw [new, held, distinct old_given member same]
  rw [restored]
  exact recorded.tracked.kept (fun k member => (only k).mp member) untouched (by rwa [holds])

/-- How a failed mutation whose rollback went through has ended. -/
theorem mutate_ended {createdAt reason : String} {paths : List String} {steps : List Step}
    {w w' : World κ} {error : CheckpointError}
    (failed : mutate access json createdAt reason paths steps w = (.error error, w'))
    (rolled : rollbackFails access json createdAt reason paths steps w = false) :
    beginCheckpoint access createdAt reason paths w = (.error error, w') ∨
      ∃ draft w₁, beginCheckpoint access createdAt reason paths w = (.ok draft, w₁) ∧
        ∃ w₂ tracker w₃, rollback access draft tracker w₃ = (.ok (), w') ∧
          (runSteps access steps w₁ [] = (.error error, w₃, tracker) ∨
            runSteps access steps w₁ [] = (.ok (), w₂, tracker) ∧
              finish access json draft w₂ = (.error error, w₃)) := by
  cases begun : beginCheckpoint access createdAt reason paths w with
  | mk result w₁ =>
    simp only [mutate, begun] at failed
    simp only [rollbackFails, begun] at rolled
    cases result with
    | error first =>
      cases failed
      exact .inl rfl
    | ok draft =>
      refine .inr ⟨draft, w₁, rfl, ?_⟩
      dsimp only at failed rolled
      split at failed
      · next stopped w₂ tracker ran =>
        rw [ran] at rolled
        dsimp only at rolled
        split at failed
        · next undone => simp [undone, Except.isOk, Except.toBool] at rolled
        · next w₃ undone =>
          cases failed
          exact ⟨w₁, tracker, w₂, undone, .inl ran⟩
      · next w₂ tracker ran =>
        rw [ran] at rolled
        dsimp only at rolled
        split at failed
        · cases failed
        · next stopped w₃ finished =>
          rw [finished] at rolled
          dsimp only at rolled
          split at failed
          · next undone => simp [undone, Except.isOk, Except.toBool] at rolled
          · next w₄ undone =>
            cases failed
            exact ⟨w₂, tracker, w₃, undone, .inr ⟨ran, finished⟩⟩

section Failed

variable {createdAt reason : String} {paths : List String} {steps : List Step} {given : Set Bytes}
  {w w' : World κ} {error : CheckpointError}

/-- No record that can be read is new. -/
theorem mutate_noneNew
    (failed : mutate access json createdAt reason paths steps w = (.error error, w'))
    (rolled : rollbackFails access json createdAt reason paths steps w = false)
    (within : ∀ step ∈ steps, StepWithin paths given step) : NoneNew w w' := by
  have still := beginCheckpoint_still access createdAt reason paths w
  obtain begun | ⟨draft, w₁, begun, w₂, tracker, w₃, undone, stopped⟩ := mutate_ended failed rolled
  · rw [begun] at still
    exact still.settled.noneNew
  · rw [begun] at still
    obtain ⟨-, snapped, covered⟩ := beginCheckpoint_ok begun
    have nil := Recorded.nil access paths given w₁
    refine still.settled.noneNew.trans ?_
    obtain ran | ⟨ran, finished⟩ := stopped
    · obtain ⟨step, -, w₀, -, recorded, records, stepped⟩ := runSteps_error nil within ran
      have same : w₃.records = w₁.records := by cases stepped <;> simp_all
      obtain ⟨last, -⟩ := rollback_ok recorded.shaped snapped
        (fun state member => covered state.path (recorded.inside state member)) undone
      exact .of_records (last.trans same)
    · obtain ⟨recorded, records⟩ := runSteps_ok nil within ran
      obtain ⟨last, -⟩ := rollback_ok recorded.shaped snapped
        (fun state member => covered state.path (recorded.inside state member)) undone
      exact (NoneNew.of_records records).trans
        ((finish_error finished).noneNew.trans (.of_records last))

/-- Unless the step that failed tears its file, all files hold what they held. -/
theorem mutate_restored
    (failed : mutate access json createdAt reason paths steps w = (.error error, w'))
    (rolled : rollbackFails access json createdAt reason paths steps w = false)
    (within : ∀ step ∈ steps, StepWithin paths given step)
    (whole : applyTears access createdAt reason paths steps w = false) :
    contents w' = contents w := by
  have still := beginCheckpoint_still access createdAt reason paths w
  obtain begun | ⟨draft, w₁, begun, w₂, tracker, w₃, undone, stopped⟩ := mutate_ended failed rolled
  · rw [begun] at still
    exact still.contents
  · rw [begun] at still
    obtain ⟨-, snapped, covered⟩ := beginCheckpoint_ok begun
    rw [← still.contents] at snapped
    rw [← still.contents]
    have nil := Recorded.nil access paths given w₁
    obtain ran | ⟨ran, finished⟩ := stopped
    · obtain ⟨step, -, w₀, stop, recorded, -, stepped⟩ := runSteps_error nil within ran
      simp only [applyTears, begun, stop] at whole
      have same : contents w₃ = contents w₀ := by
        cases stepped with
        | kept same records untorn => exact same
        | torn broken => rw [whole] at broken; cases broken
      exact (rolled_back recorded snapped covered same undone).1
    · obtain ⟨recorded, -⟩ := runSteps_ok nil within ran
      exact (rolled_back recorded snapped covered (finish_error finished).contents undone).1

/-- If the step that failed tears its file, that file holds something else. -/
theorem mutate_torn
    (failed : mutate access json createdAt reason paths steps w = (.error error, w'))
    (rolled : rollbackFails access json createdAt reason paths steps w = false)
    (within : ∀ step ∈ steps, StepWithin paths given step)
    (distinct : Set.InjOn access.hexDigest given)
    (tears : applyTears access createdAt reason paths steps w = true) :
    ∃ path ∈ paths, ∃ k, named access path = some k ∧ contents w' k ≠ contents w k := by
  have still := beginCheckpoint_still access createdAt reason paths w
  obtain begun | ⟨draft, w₁, begun, w₂, tracker, w₃, undone, stopped⟩ := mutate_ended failed rolled
  · simp [applyTears, begun] at tears
  · rw [begun] at still
    obtain ⟨-, snapped, covered⟩ := beginCheckpoint_ok begun
    rw [← still.contents] at snapped
    rw [← still.contents]
    have nil := Recorded.nil access paths given w₁
    obtain ran | ⟨ran, finished⟩ := stopped
    · obtain ⟨step, member, w₀, stop, recorded, -, stepped⟩ := runSteps_error nil within ran
      simp only [applyTears, begun, stop] at tears
      cases stepped with
      | kept same records untorn => rw [tears] at untorn; cases untorn
      | @torn _ k x _ broken file effect records differs seen =>
        refine ⟨stepPath step, (within step member).1, k, file, ?_⟩
        have contents_ : x = none ∨ ∃ content ∈ given, x = some content := by
          obtain gone | outcome := seen
          · exact .inl gone
          · cases x with
            | none => exact .inl rfl
            | some content => exact .inr ⟨content, (within step member).2 content outcome, rfl⟩
        exact torn_stays recorded snapped covered distinct effect differs contents_ undone
    · have none_ : stoppedAt access steps w₁ [] = none := stoppedAt_ok ran
      simp [applyTears, begun, none_] at tears

end Failed

end CodexRemote.Verified.Checkpoints

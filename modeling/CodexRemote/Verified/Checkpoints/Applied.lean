import CodexRemote.Verified.Checkpoints.Restore

/-! # An applied patch

What a patch that succeeds makes of the files.
-/

namespace CodexRemote.Verified.Checkpoints

open RemoteAgent RemoteAgent.Patches Foundations

variable {κ : Type} [DecidableEq κ] {access : Access κ} {json : RecordCodec}
  {held now : κ → Option Bytes} {w w' : World κ}

/-- The file that a path names, if any, is given other content. -/
def setAt (access : Access κ) (now : κ → Option Bytes) (path : String) (x : Option Bytes) :
    κ → Option Bytes :=
  (named access path).elim now fun k => Function.update now k x

/-- What a change asks for, where the files held something before the patch -/
def asked (access : Access κ) (held now : κ → Option Bytes) (change : FileChange) :
    κ → Option Bytes :=
  match change.action with
  | .create | .update => setAt access now change.path (some (utf8Bytes (change.content.getD "")))
  | .delete => setAt access now change.path none
  | .move => setAt access (setAt access now (change.destination.getD "")
      ((change.content.map utf8Bytes).or ((named access change.path).bind held))) change.path none

def stepEffect (access : Access κ) (now : κ → Option Bytes) (step : Step) : κ → Option Bytes :=
  (stepOutcome step).elim now (setAt access now (stepPath step))

theorem runSteps_effect {steps : List Step} {tracker tracker' : MutationTracker}
    (ran : runSteps access steps w tracker = (.ok (), w', tracker')) :
    contents w' = steps.foldl (stepEffect access) (contents w) := by
  induction steps generalizing w tracker with
  | nil =>
    cases ran
    rfl
  | cons step rest ih =>
    simp only [runSteps] at ran
    split at ran
    · cases ran
    · next w₁ tracker₁ first =>
      have stepped := runStep_stepped access step w tracker
      rw [first] at stepped
      rw [ih ran, List.foldl_cons]
      congr 1
      cases stepped with
      | passed still checks => rw [stepEffect, checks, still.contents, Option.elim_none]
      | done outcome file effect records =>
        rw [stepEffect, outcome, effect, Option.elim_some, setAt, file, Option.elim_some]

theorem applyOne_effect {change : FileChange} {mutation : PlannedMutation}
    (planned : plan access change w = (.ok mutation, w')) :
    (applyOne mutation).foldl (stepEffect access) now = asked access (contents w) now change := by
  simp only [plan] at planned
  cases action : change.action with
  | create =>
    rw [action] at planned
    dsimp only at planned
    split at planned <;> cases planned
    rw [asked, action]
    rfl
  | update | delete =>
    rw [action] at planned
    obtain ⟨original, k, -, -, rfl⟩ := planExisting_ok planned
    rw [asked, action]
    rfl
  | move =>
    rw [action] at planned
    obtain ⟨original, k, file, there, rfl⟩ := planExisting_ok planned
    -- the source is read before any change is made
    have source : (named access change.path).bind (contents w) = some (utf8Bytes original) := by
      rw [file, Option.bind_some, there]
    rw [asked, action, source]
    cases change.content <;> rfl

theorem applyAll_effect {changes : List AcceptedChange} {planned : List PlannedMutation}
    (plans : planAll access changes w = (.ok planned, w')) :
    (planned.flatMap applyOne).foldl (stepEffect access) now =
      changes.foldl (fun now change => asked access (contents w) now change.toFileChange) now := by
  induction changes generalizing w planned now with
  | nil =>
    cases plans
    rfl
  | cons change rest ih =>
    have still := plan_still access change.toFileChange w
    simp only [planAll] at plans
    split at plans
    · cases plans
    · next mutation w₁ first =>
      rw [first] at still
      split at plans
      · cases plans
      · next later w₂ rested =>
        cases plans
        rw [List.flatMap_cons, List.foldl_append, applyOne_effect first, ih rested, still.contents,
          List.foldl_cons]

/-- A patch that succeeds has done what its changes ask for, one after the other, and nothing
else; a move takes what its file held when the patch began. -/
theorem applied_patch_as_asked {createdAt id : String} {changes : List AcceptedChange}
    (applied : applyPatch access json createdAt changes w = (.ok id, w')) :
    contents w' = changes.foldl
      (fun now change => asked access (contents w) now change.toFileChange) (contents w) := by
  have planning := planAll_still access changes w
  simp only [applyPatch] at applied
  split at applied
  · cases applied
  · next planned w₁ plans =>
    rw [plans] at planning
    -- only the steps of the plan write: planning, the snapshot and the record do not
    rw [← applyAll_effect plans, ← planning.contents]
    simp only [mutate] at applied
    split at applied
    · cases applied
    · next draft w₂ begun =>
      obtain ⟨still, snapped, covered⟩ := beginCheckpoint_ok begun
      split at applied
      · split at applied <;> cases applied
      · next w₃ tracker ran =>
        split at applied
        · next finished =>
          cases applied
          rw [(finish_ok (still.contents ▸ snapped) covered finished).1, runSteps_effect ran,
            still.contents]
        · split at applied <;> cases applied

theorem creations_applied :
    contents (examplePatched []) "a.txt" = some [120] ∧
      contents (examplePatched []) "c.txt" = none := by
  have ran : (applyPatch exampleAccess exampleCodec exampleTime exampleCreations
      (failingAt [])).1 = .ok "cp_55d7822d3411f197" := by decide +kernel
  have patched : applyPatch exampleAccess exampleCodec exampleTime exampleCreations (failingAt []) =
      (.ok "cp_55d7822d3411f197", examplePatched []) := by
    rw [examplePatched, ← ran, Prod.mk.eta]
  rw [applied_patch_as_asked patched]
  decide +kernel

end CodexRemote.Verified.Checkpoints

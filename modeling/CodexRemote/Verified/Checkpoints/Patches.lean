import CodexRemote.RemoteAgent.Patches
import CodexRemote.Verified.Checkpoints.AllOrNothing

/-! # A failed patch

The steps of a patch stay within the paths of its changes and the contents at hand, so that
what holds of a failed mutation holds of a failed patch.
-/

namespace CodexRemote.Verified.Checkpoints

open RemoteAgent RemoteAgent.Patches Foundations

variable {κ : Type} {access : Access κ} {json : RecordCodec}

/-! ## Plans -/

/-- An accepted change has a destination exactly if it is a move. -/
theorem accepted_destination (change : AcceptedChange) :
    change.destination.isSome = (change.action == .move) := by
  have valid := change.valid
  simp only [FileChange.validate, bind_ok] at valid
  obtain ⟨_, -, _, -, _, -, _, -, _, action, valid⟩ := valid
  by_cases move : change.action = .move
  · simp only [FileChange.validateAction, move] at action
    split_ifs at action with digest destination
    rw [move]
    simpa [Option.isNone_iff_eq_none, Option.isSome_iff_ne_none] using destination
  · have none_ : change.destination.isSome = false := by
      split_ifs at valid with stray
      simpa [move] using stray
    rw [none_]
    simpa using move

def namedPaths (changes : List AcceptedChange) : List String :=
  changes.flatMap fun change => change.path :: change.destination.toList

/-- The contents of the files and of the changes. -/
def involved (changes : List AcceptedChange) (held : κ → Option Bytes) : Set Bytes :=
  {content | content = [] ∨ (∃ k, held k = some content) ∨
    ∃ change ∈ changes, ∃ text, change.content = some text ∧ utf8Bytes text = content}

/-- What a planned mutation takes from its change. -/
structure PlannedFrom (change : AcceptedChange) (given : Set Bytes) (mutation : PlannedMutation) :
    Prop where
  path : mutation.path = change.path
  destination : mutation.destination = change.destination
  move : mutation.action = .move → mutation.destination.isSome
  content : mutation.written ∈ given

theorem planDestination_still (access : Access κ) (destination : Option String) (w : World κ) :
    Still w (planDestination access destination w).2 := by
  cases destination with
  | none => exact .refl w
  | some destination =>
    have still := fileExists_still access destination w
    simp only [planDestination]
    split <;> next found => rw [found] at still; exact still

theorem planExisting_still (access : Access κ) (change : FileChange) (action : PatchAction)
    (content : String → Option String) (w : World κ) :
    Still w (planExisting access change action content w).2 := by
  have first := readBytes_still access change.path maxFileBytes w
  simp only [planExisting]
  split
  · next read => rw [read] at first; exact first
  · next original w₁ read =>
    rw [read] at first
    split_ifs
    · exact first
    · split
      · exact first
      · have second := planDestination_still access change.destination w₁
        split <;> next free => rw [free] at second; exact first.trans second

variable {w w' : World κ} {given : Set Bytes} {changes : List AcceptedChange}

theorem planExisting_ok {change : FileChange} {action : PatchAction}
    {content : String → Option String} {mutation : PlannedMutation}
    (ok : planExisting access change action content w = (.ok mutation, w')) :
    ∃ original k, named access change.path = some k ∧ contents w k = some (utf8Bytes original) ∧
      mutation = ⟨change.path, action, change.destination, content original,
        some (change.expectedSha256.getD "")⟩ := by
  simp only [planExisting] at ok
  split at ok
  · cases ok
  · next raw w₁ read =>
    obtain ⟨-, k, file, held⟩ := readBytes_ok read
    split_ifs at ok with differs
    · cases ok
    · split at ok
      · cases ok
      · next original spelled =>
        split at ok
        · cases ok
        · cases ok
          exact ⟨original, k, file, by rw [held, utf8Bytes_of_text spelled], rfl⟩

theorem plan_still (access : Access κ) (change : FileChange) (w : World κ) :
    Still w (plan access change w).2 := by
  simp only [plan]
  cases change.action with
  | create =>
    have still := fileExists_still access change.path w
    dsimp only
    split <;> next found => rw [found] at still; exact still
  | update => exact planExisting_still ..
  | delete => exact planExisting_still ..
  | move => exact planExisting_still ..

theorem plan_ok {change : AcceptedChange} {mutation : PlannedMutation} (empty : [] ∈ given)
    (files : ∀ k content, contents w k = some content → content ∈ given)
    (texts : ∀ text, change.content = some text → utf8Bytes text ∈ given)
    (ok : plan access change.toFileChange w = (.ok mutation, w')) :
    PlannedFrom change given mutation := by
  have destination := accepted_destination change
  have default : utf8Bytes (change.content.getD "") ∈ given := by
    cases text : change.content with
    | none => exact empty
    | some text_ => exact texts text_ text
  simp only [plan] at ok
  cases action : change.action with
  | create =>
    rw [action] at ok destination
    dsimp only at ok
    split at ok
    · cases ok
    · cases ok
    · cases ok
      have none_ : change.destination = none := by
        rw [← Option.isNone_iff_eq_none, ← Option.not_isSome, destination]
        rfl
      exact ⟨rfl, none_.symm, nofun, default⟩
  | update =>
    rw [action] at ok destination
    obtain ⟨original, k, -, held, rfl⟩ := planExisting_ok ok
    exact ⟨rfl, rfl, nofun, default⟩
  | delete =>
    rw [action] at ok destination
    obtain ⟨original, k, -, held, rfl⟩ := planExisting_ok ok
    exact ⟨rfl, rfl, nofun, empty⟩
  | move =>
    rw [action] at ok destination
    obtain ⟨original, k, -, held, rfl⟩ := planExisting_ok ok
    refine ⟨rfl, rfl, fun _ => destination, ?_⟩
    cases text : change.content with
    | none =>
      have written : PlannedMutation.written ⟨change.path, .move, change.destination,
          some (change.content.getD original), some (change.expectedSha256.getD "")⟩ =
          utf8Bytes original := by simp [PlannedMutation.written, text]
      rw [← text, written]
      exact files k _ held
    | some text_ =>
      have written : PlannedMutation.written ⟨change.path, .move, change.destination,
          some (change.content.getD original), some (change.expectedSha256.getD "")⟩ =
          utf8Bytes text_ := by simp [PlannedMutation.written, text]
      rw [← text, written]
      exact texts text_ text

theorem planAll_still (access : Access κ) (changes : List AcceptedChange) (w : World κ) :
    Still w (planAll access changes w).2 := by
  induction changes generalizing w with
  | nil => exact .refl w
  | cons change rest ih =>
    have first := plan_still access change.toFileChange w
    simp only [planAll]
    split
    · next planned => rw [planned] at first; exact first
    · next mutation w₁ planned =>
      rw [planned] at first
      have later := ih w₁
      split <;> next rested => rw [rested] at later; exact first.trans later

/-- Every planned mutation comes from its change. -/
theorem planAll_ok {planned : List PlannedMutation} (empty : [] ∈ given)
    (files : ∀ k content, contents w k = some content → content ∈ given)
    (texts : ∀ change ∈ changes, ∀ text, change.content = some text → utf8Bytes text ∈ given)
    (ok : planAll access changes w = (.ok planned, w')) :
    List.Forall₂ (fun change mutation => PlannedFrom change given mutation) changes planned := by
  induction changes generalizing w planned with
  | nil =>
    cases ok
    exact .nil
  | cons change rest ih =>
    have still := plan_still access change.toFileChange w
    simp only [planAll] at ok
    split at ok
    · cases ok
    · next mutation w₁ first =>
      rw [first] at still
      split at ok
      · cases ok
      · next later w₂ rested =>
        cases ok
        refine .cons (plan_ok empty files (texts change (List.mem_cons_self ..)) first) (ih ?_ ?_ rested)
        · rw [still.contents]
          exact files
        · exact fun change member => texts change (List.mem_cons_of_mem _ member)

/-- The paths of a plan are those that the changes name. -/
theorem planned_paths {planned : List PlannedMutation}
    (from_ : List.Forall₂ (fun change mutation => PlannedFrom change given mutation) changes planned) :
    planned.flatMap PlannedMutation.paths = namedPaths changes := by
  induction from_ with
  | nil => rfl
  | cons first rest ih =>
    rw [List.flatMap_cons, ih, namedPaths, namedPaths, List.flatMap_cons, PlannedMutation.paths,
      first.path, first.destination]

theorem applyOne_within {change : AcceptedChange} {mutation : PlannedMutation}
    (from_ : PlannedFrom change given mutation) :
    ∀ step ∈ applyOne mutation, StepWithin mutation.paths given step := by
  have here : mutation.path ∈ mutation.paths := List.mem_cons_self ..
  have writes : ∀ path ∈ mutation.paths, ∀ expected,
      StepWithin mutation.paths given (.write path mutation.written maxFileBytes expected) := by
    refine fun path member expected => ⟨member, fun content outcome => ?_⟩
    cases outcome
    exact from_.content
  have deletes : ∀ expected, StepWithin mutation.paths given (.delete mutation.path expected) :=
    fun expected => ⟨here, nofun⟩
  intro step member
  obtain checks | acts := List.mem_append.mp member
  · obtain ⟨expected, -, rfl⟩ := List.mem_map.mp checks
    exact ⟨here, nofun⟩
  · cases action : mutation.action with
    | add =>
      rw [action] at acts
      rw [List.mem_singleton.mp acts]
      exact writes _ here _
    | update =>
      rw [action] at acts
      rw [List.mem_singleton.mp acts]
      exact writes _ here _
    | delete =>
      rw [action] at acts
      rw [List.mem_singleton.mp acts]
      exact deletes _
    | move =>
      rw [action] at acts
      obtain ⟨destination, there⟩ := Option.isSome_iff_exists.mp (from_.move action)
      have inside : mutation.destination.getD "" ∈ mutation.paths := by
        simp [PlannedMutation.paths, there]
      obtain rfl | acts := List.mem_cons.mp acts
      · exact writes _ inside _
      · rw [List.mem_singleton.mp acts]
        exact deletes _

theorem applyAll_within {planned : List PlannedMutation}
    (from_ : List.Forall₂ (fun change mutation => PlannedFrom change given mutation) changes planned) :
    ∀ step ∈ planned.flatMap applyOne,
      StepWithin (planned.flatMap PlannedMutation.paths) given step := by
  induction from_ with
  | nil => exact nofun
  | cons first rest ih =>
    intro step member
    rw [List.flatMap_cons] at member ⊢
    obtain member | member := List.mem_append.mp member
    · obtain ⟨path, content⟩ := applyOne_within first step member
      exact ⟨List.mem_append_left _ path, content⟩
    · obtain ⟨path, content⟩ := ih step member
      exact ⟨List.mem_append_right _ path, content⟩

/-! ## Failed patches -/

/-- Every path that the changes name holds what it held before, and every checkpoint that is
listed has the record that it had before. -/
structure AllAsBefore (access : Access κ) (json : RecordCodec) (changes : List AcceptedChange)
    (w w' : World κ) : Prop where
  files : ∀ path ∈ namedPaths changes, ∀ k, named access path = some k →
    contents w' k = contents w k
  checkpoints : ∀ id, Listed json w' id → w'.record (recordName id) = w.record (recordName id)

theorem AllAsBefore.of_settled (settled : Settled w w') : AllAsBefore access json changes w w' where
  files := fun _ _ k _ => by rw [settled.contents]
  checkpoints := by
    intro id listed
    obtain ⟨file, readable⟩ := listed_readable listed
    rw [readable.1, (settled.noneNew _ _ readable).1]

variable [DecidableEq κ]

/-- The rollback of the patch fails. -/
def patchRollbackFails (access : Access κ) (json : RecordCodec) (createdAt : String)
    (changes : List AcceptedChange) (w : World κ) : Bool :=
  match planAll access changes w with
  | (.error _, _) => false
  | (.ok planned, w) =>
    rollbackFails access json createdAt "patch" (planned.flatMap PlannedMutation.paths)
      (planned.flatMap applyOne) w

/-- Applying the patch stops at a step that tears its file. -/
def patchTears (access : Access κ) (createdAt : String) (changes : List AcceptedChange)
    (w : World κ) : Bool :=
  match planAll access changes w with
  | (.error _, _) => false
  | (.ok planned, w) =>
    applyTears access createdAt "patch" (planned.flatMap PlannedMutation.paths)
      (planned.flatMap applyOne) w

/-- A patch that fails and is rolled back leaves everything as it was, if and only if applying
it did not stop at a step that tears its file. -/
theorem failed_patch_all_or_nothing {createdAt : String} {changes : List AcceptedChange}
    {w w' : World κ} {error : CheckpointError}
    (failed : applyPatch access json createdAt changes w = (.error error, w'))
    (rolled : patchRollbackFails access json createdAt changes w = false)
    (distinct : Set.InjOn access.hexDigest (involved changes (contents w))) :
    AllAsBefore access json changes w w' ↔ patchTears access createdAt changes w = false := by
  have planning := planAll_still access changes w
  cases plans : planAll access changes w with
  | mk result w₁ =>
    rw [plans] at planning
    simp only [applyPatch, plans] at failed
    simp only [patchRollbackFails, plans] at rolled
    simp only [patchTears, plans]
    cases result with
    | error first =>
      cases failed
      exact ⟨fun _ => rfl, fun _ => .of_settled planning.settled⟩
    | ok planned =>
      dsimp only at failed rolled ⊢
      have empty : [] ∈ involved changes (contents w) := .inl rfl
      have from_ := planAll_ok empty (fun k content held => .inr (.inl ⟨k, held⟩))
        (fun change member text there => .inr (.inr ⟨change, member, text, there, rfl⟩)) plans
      have within := applyAll_within from_
      constructor
      · intro before
        rw [Bool.eq_false_iff]
        intro tears
        obtain ⟨path, member, k, file, differs⟩ := mutate_torn failed rolled within distinct tears
        rw [planned_paths from_] at member
        rw [planning.contents] at differs
        exact differs (before.files path member k file)
      · intro whole
        have restored := mutate_restored failed rolled within whole
        have records := mutate_noneNew failed rolled within
        exact .of_settled (planning.settled.trans ⟨restored, records⟩)

/-! ## Examples -/

def exampleTime : String := "2026-01-01T00:00:00+00:00"

def exampleDigest (bytes : Bytes) : String :=
  if bytes = [] then "e3b0c44298fc1c149afbf4c8996fb92427ae41e4649b934ca495991b7852b855"
  else if bytes = [120] then "2d711642b726b04401627ca9fbac32f5c8530fb1903cc4db02258717921a4881"
  else if bytes = [121] then "a1fce4363854ff888cff4b8e7875d600c2682390412a8cf79b37d0b11148b0fa"
  else if bytes = utf8Bytes (exampleTime ++ "\x00patch\x00a.txt\x00b.txt") then
    "55d7822d3411f19737f11198aac15026fabfbb138190555804b7e2802a403fae"
  else ""

def exampleAccess : Access String := ⟨.ok, id, exampleDigest⟩

def exampleCreation (path content : String)
    (valid : FileChange.validate ⟨.create, path, some content, none, none⟩ = .ok ()) :
    AcceptedChange :=
  ⟨⟨.create, path, some content, none, none⟩, valid⟩

def exampleCreations : List AcceptedChange :=
  [exampleCreation "a.txt" "x" rfl, exampleCreation "b.txt" "y" rfl]

def exampleRecord : StoredCheckpoint :=
  ⟨"cp_55d7822d3411f197", exampleTime, "patch",
    [⟨"a.txt", false, "", true, "eA=="⟩, ⟨"b.txt", false, "", true, "eQ=="⟩]⟩

def exampleCodec : RecordCodec :=
  knownCodec exampleRecord (utf8Bytes ("\x7b\"checkpoint_id\":\"cp_55d7822d3411f197\"," ++
    "\"created_at\":\"2026-01-01T00:00:00+00:00\",\"reason\":\"patch\",\"snapshots\":[" ++
    "\x7b\"path\":\"a.txt\",\"before_exists\":false,\"before_base64\":\"\"," ++
    "\"after_exists\":true,\"after_base64\":\"eA==\"\x7d," ++
    "\x7b\"path\":\"b.txt\",\"before_exists\":false,\"before_base64\":\"\"," ++
    "\"after_exists\":true,\"after_base64\":\"eQ==\"\x7d]\x7d")) (by decide +kernel)

/-- An empty workspace in which the given calls of operations fail. -/
def failingAt (calls : List (Nat × FileCall)) : World String :=
  ⟨fun _ => none, [], fun tick call => calls.contains (tick, call), 0, 0⟩

theorem exampleDigest_distinct (calls : List (Nat × FileCall)) :
    Set.InjOn exampleDigest (involved exampleCreations (contents (failingAt calls))) := by
  have few : ∀ content ∈ involved exampleCreations (contents (failingAt calls)),
      content ∈ [[], [120], [121]] := by
    rintro content (rfl | ⟨k, held⟩ | ⟨change, member, text, there, rfl⟩)
    · decide
    · cases held
    · simp only [exampleCreations, List.mem_cons, List.not_mem_nil, or_false] at member
      obtain rfl | rfl := member <;> cases there <;> decide
  have distinct : ∀ a ∈ [[], [120], [121]], ∀ b ∈ [[], [120], [121]],
      exampleDigest a = exampleDigest b → a = b := by decide +kernel
  exact fun a first b second same => distinct a (few a first) b (few b second) same

/-- The second file cannot be written, and the first one is deleted again. -/
theorem failed_creations_undone :
    AllAsBefore exampleAccess exampleCodec exampleCreations (failingAt [(5, .parents)])
      (applyPatch exampleAccess exampleCodec exampleTime exampleCreations
        (failingAt [(5, .parents)])).2 := by
  have failed : (applyPatch exampleAccess exampleCodec exampleTime exampleCreations
      (failingAt [(5, .parents)])).1 = .error (.file .io) := by decide +kernel
  exact (failed_patch_all_or_nothing (Prod.ext failed rfl) (by decide +kernel)
    (exampleDigest_distinct _)).mpr (by decide +kernel)

/-- The first file is written, but its links cannot be counted: the patch fails, its rollback
goes through, and the file is there. -/
theorem late_creation_stays :
    (applyPatch exampleAccess exampleCodec exampleTime exampleCreations
        (failingAt [(4, .countLinks)])).1 = .error (.file .io) ∧
      patchRollbackFails exampleAccess exampleCodec exampleTime exampleCreations
        (failingAt [(4, .countLinks)]) = false ∧
      Set.InjOn exampleDigest
        (involved exampleCreations (contents (failingAt [(4, .countLinks)]))) ∧
      ¬ AllAsBefore exampleAccess exampleCodec exampleCreations (failingAt [(4, .countLinks)])
        (applyPatch exampleAccess exampleCodec exampleTime exampleCreations
          (failingAt [(4, .countLinks)])).2 := by
  refine ⟨by decide +kernel, by decide +kernel, exampleDigest_distinct _, fun before => ?_⟩
  have same := before.files "a.txt" (by decide) "a.txt" rfl
  have there : contents (applyPatch exampleAccess exampleCodec exampleTime exampleCreations
      (failingAt [(4, .countLinks)])).2 "a.txt" = some [120] := by decide +kernel
  rw [there] at same
  cases same

end CodexRemote.Verified.Checkpoints

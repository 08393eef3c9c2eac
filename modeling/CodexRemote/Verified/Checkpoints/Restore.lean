import CodexRemote.Verified.Checkpoints.Patches

/-! # Restoring a checkpoint

The record of a checkpoint holds what every path held before and after the mutation.  A
restore goes on only while all of them are as the mutation left them, and gives each of them
back what it held before.
-/

namespace CodexRemote.Verified.Checkpoints

open RemoteAgent RemoteAgent.Patches Foundations

variable {κ : Type} {access : Access κ} {json : RecordCodec}

/-! ## What is recorded -/

def stateOf (present : Bool) (content : Bytes) : Option Bytes :=
  if present then some content else none

/-- The snapshot has the encoded states of its path before and after. -/
def Encodes (access : Access κ) (start final : κ → Option Bytes) (snapshot : StoredSnapshot) :
    Prop :=
  ∃ k before after, named access snapshot.path = some k ∧
    base64Decode snapshot.beforeBase64 = some before ∧
    base64Decode snapshot.afterBase64 = some after ∧
    start k = stateOf snapshot.beforeExists before ∧ final k = stateOf snapshot.afterExists after

variable {start : κ → Option Bytes} {w w' : World κ} {record : StoredCheckpoint}
  {id createdAt : String} {paths : List String} {decoded : List Decoded}

theorem finishSnapshots_ok {total : Nat} {snapshots : List BeforeSnapshot}
    {stored : List StoredSnapshot} (snapped : Snapped access start snapshots)
    (ok : finishSnapshots access total snapshots w = (.ok stored, w')) :
    (∀ snapshot ∈ stored, Encodes access start (contents w) snapshot) ∧
      stored.map (·.path) = snapshots.map (·.path) := by
  induction snapshots generalizing total w stored with
  | nil =>
    cases ok
    exact ⟨nofun, rfl⟩
  | cons snapshot rest ih =>
    simp only [finishSnapshots] at ok
    split at ok
    · cases ok
    · next afterExists w₁ found =>
      split at ok
      · cases ok
      · next after w₂ read =>
        split_ifs at ok
        · cases ok
        · split at ok
          · cases ok
          · next later w₃ rested =>
            cases ok
            obtain ⟨still, k, file, holds⟩ := read_state found read
            obtain ⟨k', file', before⟩ := snapped snapshot (List.mem_cons_self ..)
            rw [file] at file'
            cases file'
            obtain ⟨encoded, paths⟩ :=
              ih (fun snapshot member => snapped snapshot (List.mem_cons_of_mem _ member)) rested
            rw [still.contents] at encoded
            refine ⟨fun other member => ?_, by rw [List.map_cons, List.map_cons, paths]⟩
            obtain rfl | member := List.mem_cons.mp member
            · exact ⟨k, snapshot.content, after, file, base64Decode_encode _,
                base64Decode_encode _, before, holds⟩
            · exact encoded other member

theorem writeRecord_ok {name : String} {content : Bytes}
    (ok : access.writeRecord name content w = (.ok (), w')) :
    contents w' = contents w ∧ w'.record name = some ⟨content, 1⟩ := by
  simp only [Access.writeRecord, Prod.mk.injEq] at ok
  obtain ⟨result, rfl⟩ := ok
  have cases := write_cases access.hexDigest name w.fails content none (w.record name)
  generalize write access.hexDigest name w.fails content none (w.record name) = written
    at cases result
  cases cases with
  | done new =>
    refine ⟨by rw [contents_setRecord, (Still.next w).contents], ?_⟩
    rw [record_setRecord, if_pos rfl, new]
  | kept same whole => cases result
  | lost broken differs seen => cases result

theorem persist_ok (ok : persist access json record w = (.ok (), w')) :
    contents w' = contents w ∧
      w'.record (recordName record.checkpointId) = some ⟨json.encode record, 1⟩ := by
  have pruned := prune_settled access (json.encode record).length w
  simp only [persist] at ok
  split_ifs at ok
  · cases ok
  · split at ok
    · cases ok
    · next w₁ done =>
      rw [done] at pruned
      split at ok
      · cases ok
      · next w₂ written =>
        cases ok
        obtain ⟨same, there⟩ := writeRecord_ok written
        exact ⟨same.trans pruned.contents, there⟩

/-- The record of a checkpoint is there and says what its paths held before and after. -/
structure Persisted (access : Access κ) (json : RecordCodec) (paths : List String)
    (start final : κ → Option Bytes) (w : World κ) (id : String) (record : StoredCheckpoint) :
    Prop where
  there : w.record (recordName id) = some ⟨json.encode record, 1⟩
  encodes : ∀ snapshot ∈ record.snapshots, Encodes access start final snapshot
  covered : ∀ path ∈ paths, ∃ snapshot ∈ record.snapshots, snapshot.path = path

theorem finish_ok {draft : CheckpointDraft} (snapped : Snapped access start draft.snapshots)
    (covered : ∀ path ∈ paths, ∃ snapshot ∈ draft.snapshots, snapshot.path = path)
    (ok : finish access json draft w = (.ok id, w')) :
    contents w' = contents w ∧
      ∃ record, Persisted access json paths start (contents w') w' id record := by
  have still := finishSnapshots_still access 0 draft.snapshots w
  simp only [finish] at ok
  split at ok
  · cases ok
  · next stored w₁ read =>
    rw [read] at still
    split at ok
    · cases ok
    · next w₂ persisted =>
      cases ok
      obtain ⟨encodes, same⟩ := finishSnapshots_ok snapped read
      obtain ⟨held, there⟩ := persist_ok persisted
      have unchanged : contents w' = contents w := held.trans still.contents
      refine ⟨unchanged, _, there, by rw [unchanged]; exact encodes, fun path member => ?_⟩
      obtain ⟨snapshot, taken, rfl⟩ := covered path member
      have mapped : snapshot.path ∈ stored.map (·.path) := by
        rw [same]
        exact List.mem_map_of_mem taken
      exact List.mem_map.mp mapped

/-! ## Checks -/

/-- A snapshot whose contents were decoded, and whose path is as the mutation left it. -/
structure Checked (access : Access κ) (held : κ → Option Bytes) (snapshot : StoredSnapshot)
    (decoded : Decoded) : Prop where
  path : decoded.path = snapshot.path
  beforeExists : decoded.beforeExists = snapshot.beforeExists
  before : base64Decode snapshot.beforeBase64 = some decoded.before
  afterExists : decoded.afterExists = snapshot.afterExists
  after : base64Decode snapshot.afterBase64 = some decoded.after
  same : ∃ k, named access snapshot.path = some k ∧
    held k = stateOf decoded.afterExists decoded.after

/-- Every snapshot was checked, and nothing else was decoded. -/
structure AllChecked (access : Access κ) (held : κ → Option Bytes)
    (snapshots : List StoredSnapshot) (decoded : List Decoded) : Prop where
  every : ∀ snapshot ∈ snapshots, ∃ state ∈ decoded, Checked access held snapshot state
  only : ∀ state ∈ decoded, ∃ snapshot ∈ snapshots, Checked access held snapshot state

theorem AllChecked.cons {held : κ → Option Bytes} {snapshot : StoredSnapshot} {state : Decoded}
    {snapshots : List StoredSnapshot} {decoded : List Decoded}
    (first : Checked access held snapshot state) (rest : AllChecked access held snapshots decoded) :
    AllChecked access held (snapshot :: snapshots) (state :: decoded) where
  every := by
    intro other member
    obtain rfl | member := List.mem_cons.mp member
    · exact ⟨state, List.mem_cons_self .., first⟩
    · obtain ⟨found, member, checked⟩ := rest.every other member
      exact ⟨found, List.mem_cons_of_mem _ member, checked⟩
  only := by
    intro other member
    obtain rfl | member := List.mem_cons.mp member
    · exact ⟨snapshot, List.mem_cons_self .., first⟩
    · obtain ⟨found, member, checked⟩ := rest.only other member
      exact ⟨found, List.mem_cons_of_mem _ member, checked⟩

theorem checkSnapshots_ok {snapshots : List StoredSnapshot}
    (ok : checkSnapshots access snapshots w = (.ok decoded, w')) :
    Still w w' ∧ AllChecked access (contents w) snapshots decoded := by
  induction snapshots generalizing w decoded with
  | nil =>
    cases ok
    exact ⟨.refl _, nofun, nofun⟩
  | cons snapshot rest ih =>
    simp only [checkSnapshots] at ok
    split at ok
    · cases ok
    · cases ok
    · next before after before_ after_ =>
      split at ok
      · cases ok
      · next found w₁ exists_ =>
        by_cases conflict : (found != snapshot.afterExists) = true
        · rw [if_pos conflict] at ok
          cases ok
        rw [if_neg conflict] at ok
        split at ok
        · cases ok
        · next content w₂ read =>
          split_ifs at ok with differs
          · cases ok
          · split at ok
            · cases ok
            · next later w₃ rested =>
              cases ok
              have present : found = snapshot.afterExists := by simpa using conflict
              have same : content = after := by simpa using differs
              obtain ⟨still, k, file, holds⟩ := read_state exists_ read
              obtain ⟨more, checked⟩ := ih rested
              rw [still.contents] at checked
              refine ⟨still.trans more, .cons ⟨rfl, rfl, before_, rfl, after_, k, file, ?_⟩ checked⟩
              rw [holds, present, same]
              rfl

theorem checkSnapshots_still (access : Access κ) (snapshots : List StoredSnapshot) (w : World κ) :
    Still w (checkSnapshots access snapshots w).2 := by
  induction snapshots generalizing w with
  | nil => exact .refl w
  | cons snapshot rest ih =>
    simp only [checkSnapshots]
    split
    · exact .refl w
    · exact .refl w
    · next before after before_ after_ =>
      have first := fileExists_still access snapshot.path w
      split
      · next found => rw [found] at first; exact first
      · next found w₁ exists_ =>
        rw [exists_] at first
        have second := readIf_still access found snapshot.path maxCheckpointBytes after w₁
        by_cases conflict : (found != snapshot.afterExists) = true
        · rw [if_pos conflict]
          exact first
        rw [if_neg conflict]
        split
        · next read => rw [read] at second; exact first.trans second
        · next content w₂ read =>
          rw [read] at second
          have third := ih w₂
          split_ifs
          · exact first.trans second
          · split <;> next rested => rw [rested] at third; exact (first.trans second).trans third

theorem load_still (json : RecordCodec) (id : String) (w : World κ) :
    Still w (load json id w).2 := by
  have reading := readRecord_still (recordName id) maxRecordBytes w
  simp only [load, loadFrom]
  split_ifs
  · split
    · next read => rw [read] at reading; exact reading
    · next raw w₁ read =>
      rw [read] at reading
      split
      · exact reading
      · split_ifs <;> exact reading
  · exact .refl w

/-- What is loaded is what was persisted, if the record is still the same. -/
theorem load_ok {loaded : StoredCheckpoint}
    (kept : w.record (recordName id) = some ⟨json.encode record, 1⟩ ∨ w.record (recordName id) = none)
    (ok : load json id w = (.ok loaded, w')) : loaded = record := by
  simp only [load] at ok
  split_ifs at ok
  · obtain ⟨-, -, file, readable, decoded⟩ := loadFrom_ok ok
    obtain same | gone := kept
    · rw [readable.1] at same
      cases same
      rw [json.decode_encode] at decoded
      exact (Option.some.inj decoded).symm
    · rw [readable.1] at gone
      cases gone
  · cases ok

/-! ## Steps of a restore -/

/-- A step of a restore gives its path the state from before. -/
theorem mem_restoreStep {decoded : Decoded} {step : Step} (member : step ∈ restoreStep access decoded) :
    stepPath step = decoded.path ∧
      stepOutcome step = some (stateOf decoded.beforeExists decoded.before) := by
  rw [restoreStep] at member
  by_cases before : decoded.beforeExists = true
  · rw [if_pos before] at member
    rw [List.mem_singleton.mp member, stateOf, if_pos before]
    exact ⟨rfl, rfl⟩
  · rw [if_neg before] at member
    by_cases after : decoded.afterExists = true
    · rw [if_pos after] at member
      rw [List.mem_singleton.mp member, stateOf, if_neg before]
      exact ⟨rfl, rfl⟩
    · rw [if_neg after] at member
      cases member

/-- There is nothing to restore only if the path was absent before and after. -/
theorem restoreStep_nil {decoded : Decoded} (none_ : restoreStep access decoded = []) :
    stateOf decoded.beforeExists decoded.before = none ∧
      stateOf decoded.afterExists decoded.after = none := by
  rw [restoreStep] at none_
  by_cases before : decoded.beforeExists = true
  · rw [if_pos before] at none_
    cases none_
  · rw [if_neg before] at none_
    by_cases after : decoded.afterExists = true
    · rw [if_pos after] at none_
      cases none_
    · exact ⟨if_neg before, if_neg after⟩

/-- The steps of a restore stay within the paths of the record. -/
theorem restoreSteps_within {held : κ → Option Bytes} {snapshots : List StoredSnapshot}
    (checked : AllChecked access held snapshots decoded) :
    ∀ step ∈ decoded.flatMap (restoreStep access),
      StepWithin (snapshots.map (·.path)) Set.univ step := by
  intro step member
  obtain ⟨state, decoded_, member⟩ := List.mem_flatMap.mp member
  obtain ⟨snapshot, taken, matched⟩ := checked.only state decoded_
  refine ⟨?_, fun _ _ => trivial⟩
  rw [(mem_restoreStep member).1, matched.path]
  exact List.mem_map_of_mem taken

/-- A snapshot and what was decoded of it tell the same states. -/
theorem decoded_states {final held : κ → Option Bytes} {snapshot : StoredSnapshot}
    {decoded : Decoded} (encodes : Encodes access start final snapshot)
    (checked : Checked access held snapshot decoded) :
    ∃ k, named access snapshot.path = some k ∧
      start k = stateOf decoded.beforeExists decoded.before ∧
      final k = stateOf decoded.afterExists decoded.after ∧ held k = final k := by
  obtain ⟨k, before, after, file, before_, after_, started, ended⟩ := encodes
  obtain ⟨k', file', same⟩ := checked.same
  rw [file] at file'
  cases file'
  have first := checked.before
  have second := checked.after
  rw [before_] at first
  rw [after_] at second
  cases first
  cases second
  rw [← checked.beforeExists] at started
  rw [← checked.afterExists] at ended
  exact ⟨k, file, started, ended, same.trans ended.symm⟩

/-- A restore that has begun has found every path as the mutation left it. -/
theorem checked_unchanged {final held : κ → Option Bytes}
    (encodes : ∀ snapshot ∈ record.snapshots, Encodes access start final snapshot)
    (covered : ∀ path ∈ paths, ∃ snapshot ∈ record.snapshots, snapshot.path = path)
    (checked : AllChecked access held record.snapshots decoded) :
    ∀ path ∈ paths, ∀ k, named access path = some k → held k = final k := by
  intro path member k file
  obtain ⟨snapshot, taken, rfl⟩ := covered path member
  obtain ⟨state, -, matched⟩ := checked.every snapshot taken
  obtain ⟨k', file', -, -, same⟩ := decoded_states (encodes snapshot taken) matched
  rw [file] at file'
  cases file'
  exact same

/-! ## Runs -/

variable [DecidableEq κ]

theorem mutate_ok {reason : String} {steps : List Step}
    (ok : mutate access json createdAt reason paths steps w = (.ok id, w')) :
    ∃ record, Persisted access json paths (contents w) (contents w') w' id record := by
  simp only [mutate] at ok
  split at ok
  · cases ok
  · next draft w₁ begun =>
    obtain ⟨-, snapped, covered⟩ := beginCheckpoint_ok begun
    split at ok
    · split at ok <;> cases ok
    · next w₂ tracker ran =>
      split at ok
      · next finished =>
        cases ok
        exact (finish_ok snapped covered finished).2
      · split at ok <;> cases ok

theorem applyPatch_ok {changes : List AcceptedChange}
    (ok : applyPatch access json createdAt changes w = (.ok id, w')) :
    ∃ record,
      Persisted access json (namedPaths changes) (contents w) (contents w') w' id record := by
  have planning := planAll_still access changes w
  simp only [applyPatch] at ok
  split at ok
  · cases ok
  · next planned w₁ plans =>
    rw [plans] at planning
    have empty : ([] : Bytes) ∈ Set.univ := trivial
    have from_ := planAll_ok empty (fun _ _ _ => trivial) (fun _ _ _ _ => trivial) plans
    rw [← planning.contents, ← planned_paths from_]
    exact mutate_ok ok

/-- The rollback of the restore fails. -/
def restoreRollbackFails (access : Access κ) (json : RecordCodec) (createdAt id : String)
    (w : World κ) : Bool :=
  match load json id w with
  | (.error _, _) => false
  | (.ok record, w) =>
    match checkSnapshots access record.snapshots w with
    | (.error _, _) => false
    | (.ok decoded, w) =>
      match beginCheckpoint access createdAt ("rollback failed restore " ++ id)
          (record.snapshots.map (·.path)) w with
      | (.error _, _) => false
      | (.ok draft, w) =>
        match runSteps access (decoded.flatMap (restoreStep access)) w [] with
        | (.ok (), _, _) => false
        | (.error _, w, tracker) => !(rollback access draft tracker w).1.isOk

/-- The restore stops at a step that tears its file. -/
def restoreTears (access : Access κ) (json : RecordCodec) (createdAt id : String)
    (w : World κ) : Bool :=
  match load json id w with
  | (.error _, _) => false
  | (.ok record, w) =>
    match checkSnapshots access record.snapshots w with
    | (.error _, _) => false
    | (.ok decoded, w) =>
      applyTears access createdAt ("rollback failed restore " ++ id)
        (record.snapshots.map (·.path)) (decoded.flatMap (restoreStep access)) w

/-- A restore that has begun: the record was loaded and every path was as it should be. -/
structure Begun (access : Access κ) (json : RecordCodec) (createdAt id : String) (w : World κ)
    (record : StoredCheckpoint) (decoded : List Decoded) (draft : CheckpointDraft) (w' : World κ) :
    Prop where
  loaded : ∃ w₁ w₂, load json id w = (.ok record, w₁) ∧
    checkSnapshots access record.snapshots w₁ = (.ok decoded, w₂) ∧
    beginCheckpoint access createdAt ("rollback failed restore " ++ id)
      (record.snapshots.map (·.path)) w₂ = (.ok draft, w')
  still : Still w w'
  checked : AllChecked access (contents w) record.snapshots decoded

/-- How a restore ends: it is refused, it succeeds, or it is rolled back. -/
theorem restore_ended {result : Except CheckpointError (List String)}
    (ended : restore access json createdAt id w = (result, w')) :
    (result.isOk = false ∧ Still w w') ∨
      ∃ record decoded draft w₁, Begun access json createdAt id w record decoded draft w₁ ∧
        ((result.isOk = true ∧ ∃ tracker,
            runSteps access (decoded.flatMap (restoreStep access)) w₁ [] = (.ok (), w', tracker)) ∨
          (result.isOk = false ∧ ∃ error tracker w₂,
            runSteps access (decoded.flatMap (restoreStep access)) w₁ [] =
              (.error error, w₂, tracker) ∧
            (restoreRollbackFails access json createdAt id w = false →
              rollback access draft tracker w₂ = (.ok (), w')))) := by
  have first := load_still json id w
  simp only [restore] at ended
  split at ended
  · next loaded =>
    cases ended
    rw [loaded] at first
    exact .inl ⟨rfl, first⟩
  · next record w₁ loaded =>
    rw [loaded] at first
    have second := checkSnapshots_still access record.snapshots w₁
    split at ended
    · next refused =>
      cases ended
      rw [refused] at second
      exact .inl ⟨rfl, first.trans second⟩
    · next decoded w₂ checked =>
      rw [checked] at second
      have third := beginCheckpoint_still access createdAt ("rollback failed restore " ++ id)
        (record.snapshots.map (·.path)) w₂
      split at ended
      · next unbegun =>
        cases ended
        rw [unbegun] at third
        exact .inl ⟨rfl, (first.trans second).trans third⟩
      · next draft w₃ begun =>
        rw [begun] at third
        have states := (checkSnapshots_ok checked).2
        rw [first.contents] at states
        refine .inr ⟨record, decoded, draft, w₃,
          ⟨⟨w₁, w₂, loaded, checked, begun⟩, (first.trans second).trans third, states⟩, ?_⟩
        split at ended
        · next w₄ tracker ran =>
          cases ended
          exact .inl ⟨rfl, tracker, ran⟩
        · next error w₄ tracker ran =>
          have fails : restoreRollbackFails access json createdAt id w =
              !(rollback access draft tracker w₄).1.isOk := by
            simp only [restoreRollbackFails, loaded, checked, begun, ran]
          split at ended
          · next undone =>
            cases ended
            refine .inr ⟨rfl, error, tracker, w₄, ran, fun rolled => ?_⟩
            rw [fails, undone] at rolled
            cases rolled
          · next undone =>
            cases ended
            exact .inr ⟨rfl, error, tracker, w₄, ran, fun _ => undone⟩

/-- Unless it stops at a step that tears its file, a restore that fails and is rolled back
leaves every file as it was. -/
theorem restore_failed {result : Except CheckpointError (List String)}
    (ended : restore access json createdAt id w = (result, w')) (failed : result.isOk = false)
    (rolled : restoreRollbackFails access json createdAt id w = false)
    (whole : restoreTears access json createdAt id w = false) : contents w' = contents w := by
  obtain ⟨-, still⟩ | ⟨record, decoded, draft, w₁, begun, ⟨ok, -⟩ | ⟨-, error, tracker, w₂, ran, undo⟩⟩ :=
    restore_ended ended
  · exact still.contents
  · rw [ok] at failed
    cases failed
  · obtain ⟨w₃, w₄, loaded, checks, drafted⟩ := begun.loaded
    obtain ⟨still, snapped, covered⟩ := beginCheckpoint_ok drafted
    rw [← still.contents] at snapped
    obtain ⟨step, -, w₀, stop, recorded, -, stepped⟩ := runSteps_error
      (.nil access (record.snapshots.map (·.path)) Set.univ w₁) (restoreSteps_within begun.checked) ran
    simp only [restoreTears, loaded, checks, applyTears, drafted, stop] at whole
    have same : contents w₂ = contents w₀ := by
      cases stepped with
      | kept same records untorn => exact same
      | torn broken => rw [whole] at broken; cases broken
    rw [(rolled_back recorded snapped covered same (undo rolled)).1, begun.still.contents]

/-! ## Restoring what a patch has changed -/

/-- When all steps of a restore have succeeded, every path holds what it held at the start. -/
theorem restored_paths {final : κ → Option Bytes} {tracker : MutationTracker}
    (encodes : ∀ snapshot ∈ record.snapshots, Encodes access start final snapshot)
    (covered : ∀ path ∈ paths, ∃ snapshot ∈ record.snapshots, snapshot.path = path)
    (checked : AllChecked access (contents w) record.snapshots decoded)
    (ran : runSteps access (decoded.flatMap (restoreStep access)) w [] = (.ok (), w', tracker)) :
    ∀ path ∈ paths, ∀ k, named access path = some k → contents w' k = start k := by
  have restoring : ∀ step ∈ decoded.flatMap (restoreStep access), ∀ x,
      stepOutcome step = some x → ∀ k, named access (stepPath step) = some k → start k = x := by
    intro step member x outcome k file
    obtain ⟨state, decoded_, member⟩ := List.mem_flatMap.mp member
    obtain ⟨snapshot, taken, matched⟩ := checked.only state decoded_
    obtain ⟨k', file', started, -, -⟩ := decoded_states (encodes snapshot taken) matched
    obtain ⟨path, given⟩ := mem_restoreStep member
    rw [path, matched.path, file'] at file
    cases file
    rw [given] at outcome
    rw [started, Option.some.inj outcome]
  intro path member k file
  obtain ⟨snapshot, taken, rfl⟩ := covered path member
  obtain ⟨state, decoded_, matched⟩ := checked.every snapshot taken
  obtain ⟨k', file', started, ended, same⟩ := decoded_states (encodes snapshot taken) matched
  rw [file] at file'
  cases file'
  rw [runSteps_restores restoring ran, restoreAll_apply]
  split_ifs with again
  · rfl
  · cases steps : restoreStep access state with
    | nil =>
      obtain ⟨before, after⟩ := restoreStep_nil steps
      rw [same, ended, after, started, before]
    | cons step rest =>
      -- the path has a step, so that its key is among the restored ones
      exfalso
      apply again
      have inside : step ∈ restoreStep access state := by
        rw [steps]
        exact List.mem_cons_self ..
      obtain ⟨path, outcome⟩ := mem_restoreStep inside
      rw [List.mem_filterMap]
      refine ⟨step, List.mem_filter.mpr ⟨List.mem_flatMap.mpr ⟨state, decoded_, inside⟩, ?_⟩, ?_⟩
      · rw [outcome]
        rfl
      · rw [path, matched.path]
        exact file

/-- What a patch has changed can be restored: a restore that succeeds gives every path back
what it held before the patch; one that finds a path changed since is refused; any other one
that fails leaves all files as they are, unless its rollback fails as well or the step that
failed tears its file. -/
theorem restore_undoes_patch {createdAt restoredAt id : String} {changes : List AcceptedChange}
    {w w₁ w₂ w₃ : World κ} {result : Except CheckpointError (List String)}
    (patched : applyPatch access json createdAt changes w = (.ok id, w₁))
    (kept : w₂.record (recordName id) = w₁.record (recordName id) ∨
      w₂.record (recordName id) = none)
    (ended : restore access json restoredAt id w₂ = (result, w₃)) :
    (result.isOk = true → ∀ path ∈ namedPaths changes, ∀ k, named access path = some k →
        contents w₃ k = contents w k) ∧
      ((∃ path ∈ namedPaths changes, ∃ k, named access path = some k ∧
        contents w₂ k ≠ contents w₁ k) → result.isOk = false ∧ contents w₃ = contents w₂) ∧
      (restoreTears access json restoredAt id w₂ = false →
        result.isOk = true ∨ contents w₃ = contents w₂ ∨
          restoreRollbackFails access json restoredAt id w₂ = true) := by
  obtain ⟨record, persisted⟩ := applyPatch_ok patched
  rw [persisted.there] at kept
  have same : ∀ {loaded decoded draft w'},
      Begun access json restoredAt id w₂ loaded decoded draft w' → loaded = record := by
    rintro loaded decoded draft w' ⟨⟨w₄, w₅, load_, -, -⟩, -, -⟩
    exact load_ok kept load_
  refine ⟨fun ok => ?_, fun ⟨path, member, k, file, differs⟩ => ?_, fun whole => ?_⟩
  · obtain ⟨failed, -⟩ | ⟨loaded, decoded, draft, w', begun, ⟨-, tracker, ran⟩ | ⟨failed, -⟩⟩ :=
      restore_ended ended
    · rw [ok] at failed
      cases failed
    · cases same begun
      have checked := begun.checked
      rw [← begun.still.contents] at checked
      exact restored_paths persisted.encodes persisted.covered checked ran
    · rw [ok] at failed
      cases failed
  · obtain ⟨failed, still⟩ | ⟨loaded, decoded, draft, w', begun, -⟩ := restore_ended ended
    · exact ⟨failed, still.contents⟩
    · cases same begun
      exact absurd (checked_unchanged persisted.encodes persisted.covered begun.checked path member
        k file) differs
  · by_cases ok : result.isOk = true
    · exact .inl ok
    · by_cases rolled : restoreRollbackFails access json restoredAt id w₂ = true
      · exact .inr (.inr rolled)
      · rw [Bool.not_eq_true] at ok rolled
        exact .inr (.inl (restore_failed ended ok rolled whole))

/-! ## Examples -/

/-- The workspace after both files were created; calls that come later may fail. -/
def examplePatched (calls : List (Nat × FileCall)) : World String :=
  (applyPatch exampleAccess exampleCodec exampleTime exampleCreations (failingAt calls)).2

/-- The files that were created are gone again. -/
theorem creations_restored :
    contents (restore exampleAccess exampleCodec exampleTime "cp_55d7822d3411f197"
      (examplePatched [])).2 "b.txt" = contents (failingAt []) "b.txt" := by
  have ran : (applyPatch exampleAccess exampleCodec exampleTime exampleCreations
      (failingAt [])).1 = .ok "cp_55d7822d3411f197" ∧
      (restore exampleAccess exampleCodec exampleTime "cp_55d7822d3411f197"
        (examplePatched [])).1.isOk = true := by decide +kernel
  have patched : applyPatch exampleAccess exampleCodec exampleTime exampleCreations (failingAt []) =
      (.ok "cp_55d7822d3411f197", examplePatched []) := by
    rw [examplePatched, ← ran.1, Prod.mk.eta]
  exact (restore_undoes_patch patched (.inl rfl) (Prod.eta _).symm).1 ran.2 "b.txt"
    (List.mem_cons_of_mem _ (List.mem_singleton_self _)) "b.txt" rfl

/-- Nothing has changed since the patch, but the second file cannot be deleted and the rollback
cannot write the first one: the restore has neither succeeded nor been rolled back. -/
theorem restore_stranded :
    let patched := examplePatched [(22, .parents), (24, .parents)]
    let restored := restore exampleAccess exampleCodec exampleTime "cp_55d7822d3411f197" patched
    (applyPatch exampleAccess exampleCodec exampleTime exampleCreations
        (failingAt [(22, .parents), (24, .parents)])).1 = .ok "cp_55d7822d3411f197" ∧
      restored.1 = .error (.file .io) ∧
      contents patched "a.txt" = some [120] ∧ contents restored.2 "a.txt" = none ∧
      contents (failingAt [(22, .parents), (24, .parents)]) "b.txt" = none ∧
      contents restored.2 "b.txt" = some [121] := by
  decide +kernel

end CodexRemote.Verified.Checkpoints

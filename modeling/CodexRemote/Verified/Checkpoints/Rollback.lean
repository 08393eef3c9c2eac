import CodexRemote.Verified.Checkpoints.Steps

/-! # Snapshots and the rollback to them

The snapshots that a mutation begins with hold what its paths held.  A rollback that goes
through has found every recorded state confirmed and has given every recorded path its
snapshot back, so that it restores all keys that the tracker names and no others.
-/

namespace CodexRemote.Verified.Checkpoints

open RemoteAgent Foundations

variable {κ : Type} {access : Access κ}

/-! ## Snapshots -/

def snapshotBefore (snapshot : BeforeSnapshot) : Option Bytes :=
  if snapshot.existed then some snapshot.content else none

/-- The snapshots hold what the files held at the start. -/
def Snapped (access : Access κ) (start : κ → Option Bytes) (snapshots : List BeforeSnapshot) :
    Prop :=
  ∀ snapshot ∈ snapshots, ∃ k, named access snapshot.path = some k ∧
    start k = snapshotBefore snapshot

variable {w w' : World κ}

/-- A file that was found to exist or not is read if it does. -/
theorem read_state {path : String} {found : Bool} {w₁ w₂ : World κ} {maxBytes : Nat}
    {absent content : Bytes} (exists_ : access.fileExists path w = (.ok found, w₁))
    (read : (if found then access.readBytes path maxBytes w₁ else (.ok absent, w₁)) =
      (.ok content, w₂)) :
    Still w w₂ ∧ ∃ k, named access path = some k ∧
      contents w k = if found then some content else none := by
  obtain ⟨still, k, file, holds⟩ := fileExists_ok exists_
  cases found with
  | true =>
    rw [if_pos rfl] at read
    obtain ⟨reading, k', file', content_⟩ := readBytes_ok read
    rw [still.contents] at content_
    rw [file] at file'
    cases file'
    exact ⟨still.trans reading, k, file, content_⟩
  | false =>
    rw [if_neg Bool.false_ne_true] at read
    cases read
    exact ⟨still, k, file, by simpa using holds⟩

theorem readIf_still (access : Access κ) (found : Bool) (path : String) (maxBytes : Nat)
    (absent : Bytes) (w : World κ) :
    Still w (if found then access.readBytes path maxBytes w else (.ok absent, w)).2 := by
  split_ifs
  · exact readBytes_still ..
  · exact .refl w

theorem snapshotPaths_ok {seen : List String} {total : Nat} {paths : List String}
    {snapshots : List BeforeSnapshot}
    (ok : snapshotPaths access seen total paths w = (.ok snapshots, w')) :
    Still w w' ∧ Snapped access (contents w) snapshots ∧
      ∀ path ∈ paths, path ∈ seen ∨ ∃ snapshot ∈ snapshots, snapshot.path = path := by
  induction paths generalizing seen total w snapshots with
  | nil =>
    cases ok
    exact ⟨.refl _, nofun, nofun⟩
  | cons path rest ih =>
    simp only [snapshotPaths] at ok
    split at ok
    · next again =>
      obtain ⟨still, snapped, covered⟩ := ih ok
      refine ⟨still, snapped, fun other member => ?_⟩
      obtain rfl | member := List.mem_cons.mp member
      · exact .inl (by simpa using again)
      · exact covered other member
    · split at ok
      · cases ok
      · next existed w₁ found =>
        split at ok
        · cases ok
        · next content w₂ read =>
          split at ok
          · cases ok
          · next later w₃ rested =>
            cases ok
            obtain ⟨still, k, file, holds⟩ := read_state found read
            obtain ⟨more, snapped, covered⟩ := ih rested
            rw [still.contents] at snapped
            refine ⟨still.trans more, ?_, fun other member => ?_⟩
            · intro snapshot member
              obtain rfl | member := List.mem_cons.mp member
              · exact ⟨k, file, holds⟩
              · exact snapped snapshot member
            · obtain rfl | member := List.mem_cons.mp member
              · exact .inr ⟨_, List.mem_cons_self .., rfl⟩
              · obtain seen | ⟨snapshot, member, same⟩ := covered other member
                · obtain rfl | seen := List.mem_cons.mp seen
                  · exact .inr ⟨_, List.mem_cons_self .., rfl⟩
                  · exact .inl seen
                · exact .inr ⟨snapshot, List.mem_cons_of_mem _ member, same⟩

/-- Taking snapshots changes nothing, also when it fails. -/
theorem snapshotPaths_still (access : Access κ) (seen : List String) (total : Nat)
    (paths : List String) (w : World κ) : Still w (snapshotPaths access seen total paths w).2 := by
  induction paths generalizing seen total w with
  | nil => exact .refl w
  | cons path rest ih =>
    simp only [snapshotPaths]
    split
    · exact ih ..
    · have first := fileExists_still access path w
      split
      · next found => rw [found] at first; exact first
      · next existed w₁ found =>
        rw [found] at first
        have second := readIf_still access existed path (maxCheckpointBytes - total) [] w₁
        split
        · next read => rw [read] at second; exact first.trans second
        · next content w₂ read =>
          rw [read] at second
          have third := ih (path :: seen) (total + content.length) w₂
          split <;> next rested => rw [rested] at third; exact (first.trans second).trans third

theorem beginCheckpoint_still (access : Access κ) (createdAt reason : String) (paths : List String)
    (w : World κ) : Still w (beginCheckpoint access createdAt reason paths w).2 := by
  have still := snapshotPaths_still access [] 0 paths w
  simp only [beginCheckpoint]
  split <;> next taken => rw [taken] at still; exact still

theorem beginCheckpoint_ok {createdAt reason : String} {paths : List String}
    {draft : CheckpointDraft} (ok : beginCheckpoint access createdAt reason paths w = (.ok draft, w')) :
    Still w w' ∧ Snapped access (contents w) draft.snapshots ∧
      ∀ path ∈ paths, ∃ snapshot ∈ draft.snapshots, snapshot.path = path := by
  simp only [beginCheckpoint] at ok
  split at ok
  · cases ok
  · next snapshots w₁ taken =>
    cases ok
    obtain ⟨still, snapped, covered⟩ := snapshotPaths_ok taken
    exact ⟨still, snapped, fun path member => (covered path member).resolve_left nofun⟩

/-! ## Confirming what was recorded -/

theorem validateState_ok {state : ProducedState}
    (ok : validateState access state w = (.ok (), w')) :
    Still w w' ∧ ∃ k, named access state.path = some k ∧ (contents w k).isSome = state.exists_ ∧
      ∀ c, contents w k = some c → access.hexDigest c = state.sha256.getD "" := by
  simp only [validateState] at ok
  split at ok
  · cases ok
  · next found w₁ exists_ =>
    obtain ⟨still, k, file, holds⟩ := fileExists_ok exists_
    split_ifs at ok with conflict there
    · cases ok
    · have same : found = state.exists_ := by simpa using conflict
      split at ok
      · cases ok
      · next content w₂ read =>
        split_ifs at ok with differs
        · cases ok
        · cases ok
          obtain ⟨reading, k', file', content_⟩ := readBytes_ok read
          rw [file] at file'
          cases file'
          rw [still.contents] at content_
          refine ⟨still.trans reading, k, file, by rw [holds, same], fun c has => ?_⟩
          rw [content_] at has
          cases has
          simpa using differs
    · cases ok
      have same : found = state.exists_ := by simpa using conflict
      refine ⟨still, k, file, by rw [holds, same], fun c has => ?_⟩
      rw [has] at holds
      exact absurd holds.symm there

/-- What is recorded was confirmed: the file is there or not, and has the digest. -/
theorem validateStates_ok {tracker : MutationTracker}
    (shaped : ∀ state ∈ tracker, state.exists_ = state.sha256.isSome)
    (ok : validateStates access tracker w = (.ok (), w')) :
    Still w w' ∧
      Confirmed (named access) (Option.map access.hexDigest) (contents w) (logOf tracker) := by
  induction tracker generalizing w with
  | nil =>
    cases ok
    exact ⟨.refl _, nofun⟩
  | cons state rest ih =>
    simp only [validateStates] at ok
    split at ok
    · cases ok
    · next w₁ first =>
      obtain ⟨still, k, file, there, digest⟩ := validateState_ok first
      obtain ⟨more, confirmed⟩ := ih (fun state member => shaped state (List.mem_cons_of_mem _ member)) ok
      refine ⟨still.trans more, ?_⟩
      rw [still.contents] at confirmed
      intro entry member other named_
      obtain rfl | member := List.mem_cons.mp member
      · rw [file] at named_
        cases named_
        show Option.map access.hexDigest (contents w k) = state.sha256
        have shape := shaped state (List.mem_cons_self ..)
        cases held : contents w k with
        | none =>
          rw [held, shape] at there
          have gone : state.sha256 = none := by simpa using there.symm
          rw [gone]
          rfl
        | some c =>
          rw [held, shape] at there
          obtain ⟨sha256, recorded⟩ := Option.isSome_iff_exists.mp there.symm
          have same := digest c held
          rw [recorded] at same
          rw [recorded, Option.map_some, same]
          rfl
      · exact confirmed entry member other named_

/-! ## Rolling back -/

variable [DecidableEq κ]

/-- The key that a rollback restores for a snapshot, if any. -/
def restoredKey (access : Access κ) (tracker : MutationTracker) (snapshot : BeforeSnapshot) :
    Option κ :=
  if (tracker.reverse.find? (·.path == snapshot.path)).isSome then named access snapshot.path
  else none

theorem restoreAll_append (start : κ → Option Bytes) (first second : List κ)
    (cur : κ → Option Bytes) :
    restoreAll start (first ++ second) cur = restoreAll start second (restoreAll start first cur) :=
  List.foldl_append

variable {start found : κ → Option Bytes}

/-- One snapshot is given back, provided that the others before it were, and that what the
tracker recorded was confirmed to begin with. -/
theorem restoreSnapshot_ok {tracker : MutationTracker} {snapshot : BeforeSnapshot}
    {finished : List κ} (shaped : ∀ state ∈ tracker, state.exists_ = state.sha256.isSome)
    (confirmed : Confirmed (named access) (Option.map access.hexDigest) found (logOf tracker))
    (snapped : ∃ k, named access snapshot.path = some k ∧ start k = snapshotBefore snapshot)
    (so : contents w = restoreAll start finished found)
    (ok : restoreSnapshot access tracker snapshot w = (.ok (), w')) :
    w'.records = w.records ∧
      contents w' = restoreAll start (finished ++ (restoredKey access tracker snapshot).toList) found := by
  obtain ⟨k, file, before⟩ := snapped
  simp only [restoreSnapshot] at ok
  split at ok
  · next absent =>
    cases ok
    exact ⟨rfl, by simp [restoredKey, absent, so]⟩
  · next state recorded =>
    have key : restoredKey access tracker snapshot = some k := by simp [restoredKey, recorded, file]
    rw [key, Option.toList_some, restoreAll_append, ← so]
    have single : restoreAll start [k] (contents w) = Function.update (contents w) k (start k) := rfl
    rw [single]
    split_ifs at ok with existed there
    · have operated := writeBytes_operated access snapshot.path snapshot.content maxCheckpointBytes
        state.sha256 w
      generalize access.writeBytes snapshot.path snapshot.content maxCheckpointBytes state.sha256 w =
        result at ok operated
      obtain ⟨error | created, w₁⟩ := result
      · cases ok
      · cases ok
        cases operated with
        | done file' effect records =>
          rw [file] at file'
          cases file'
          exact ⟨records, by rw [effect, before, snapshotBefore, if_pos existed]⟩
    · have operated := deleteFile_operated access snapshot.path (state.sha256.getD "") w
      generalize access.deleteFile snapshot.path (state.sha256.getD "") w = result at ok operated
      obtain ⟨error | deleted, w₁⟩ := result
      · cases ok
      · cases ok
        cases operated with
        | done file' effect records =>
          rw [file] at file'
          cases file'
          exact ⟨records, by rw [effect, before, snapshotBefore, if_neg existed]⟩
    · cases ok
      -- the path was not there and was recorded as not being there: nothing is to be done
      have member : state ∈ tracker := List.mem_reverse.mp (List.mem_of_find?_eq_some recorded)
      have path : state.path = snapshot.path := by simpa using List.find?_some recorded
      have missing : found k = none := by
        have digest := confirmed (state.path, state.sha256) (List.mem_map_of_mem member) k
          (by rw [path]; exact file)
        have shape := shaped state member
        rw [Bool.eq_false_iff.mpr there] at shape
        rw [Option.isSome_eq_false_iff.mp shape.symm |> Option.isNone_iff_eq_none.mp] at digest
        exact Option.map_eq_none_iff.mp digest
      have absent : start k = none := by rw [before, snapshotBefore, if_neg existed]
      refine ⟨rfl, ?_⟩
      have held : contents w k = start k := by
        rw [so, restoreAll_apply, missing, absent, ite_self]
      rw [← held]
      exact (Function.update_eq_self k (contents w)).symm

theorem restoreSnapshots_ok {tracker : MutationTracker} {snapshots : List BeforeSnapshot}
    {w w' : World κ} {finished : List κ}
    (shaped : ∀ state ∈ tracker, state.exists_ = state.sha256.isSome)
    (confirmed : Confirmed (named access) (Option.map access.hexDigest) found (logOf tracker))
    (snapped : Snapped access start snapshots) (so : contents w = restoreAll start finished found)
    (ok : restoreSnapshots access tracker snapshots w = (.ok (), w')) :
    w'.records = w.records ∧ contents w' =
      restoreAll start (finished ++ snapshots.filterMap (restoredKey access tracker)) found := by
  induction snapshots generalizing w finished with
  | nil =>
    cases ok
    exact ⟨rfl, by rw [so, List.filterMap_nil, List.append_nil]⟩
  | cons snapshot rest ih =>
    simp only [restoreSnapshots] at ok
    split at ok
    · cases ok
    · next w₁ first =>
      obtain ⟨records, so⟩ := restoreSnapshot_ok shaped confirmed
        (snapped snapshot (List.mem_cons_self ..)) so first
      obtain ⟨later, so⟩ :=
        ih (fun snapshot member => snapped snapshot (List.mem_cons_of_mem _ member)) so ok
      refine ⟨later.trans records, ?_⟩
      rw [so, List.append_assoc]
      cases key : restoredKey access tracker snapshot with
      | none => rw [List.filterMap_cons_none key]; rfl
      | some k => rw [List.filterMap_cons_some key]; rfl

/-- A rollback that goes through restores the keys that the tracker names, if each of its paths
has a snapshot. -/
theorem rollback_ok {draft : CheckpointDraft} {tracker : MutationTracker}
    (shaped : ∀ state ∈ tracker, state.exists_ = state.sha256.isSome)
    (snapped : Snapped access start draft.snapshots)
    (covered : ∀ state ∈ tracker, ∃ snapshot ∈ draft.snapshots, snapshot.path = state.path)
    (ok : rollback access draft tracker w = (.ok (), w')) :
    w'.records = w.records ∧
      Confirmed (named access) (Option.map access.hexDigest) (contents w) (logOf tracker) ∧
      ∃ keys, contents w' = restoreAll start keys (contents w) ∧
        ∀ k, k ∈ keys ↔ Touched (named access) (logOf tracker) k := by
  simp only [rollback] at ok
  split at ok
  · cases ok
  · next w₁ valid =>
    obtain ⟨still, confirmed⟩ := validateStates_ok shaped valid
    have reversed : Snapped access start draft.snapshots.reverse :=
      fun snapshot member => snapped snapshot (List.mem_reverse.mp member)
    obtain ⟨records, so⟩ := @restoreSnapshots_ok _ _ _ _ _ _ _ _ _ [] shaped confirmed reversed
      still.contents ok
    refine ⟨records.trans still.records, confirmed, _, so, fun k => ?_⟩
    rw [List.nil_append, List.mem_filterMap]
    constructor
    · rintro ⟨snapshot, -, key⟩
      simp only [restoredKey] at key
      split_ifs at key with recorded
      obtain ⟨state, recorded⟩ := Option.isSome_iff_exists.mp recorded
      have path : state.path = snapshot.path := by simpa using List.find?_some recorded
      refine ⟨(state.path, state.sha256), ?_, by rw [path]; exact key⟩
      exact List.mem_map_of_mem (List.mem_reverse.mp (List.mem_of_find?_eq_some recorded))
    · rintro ⟨entry, member, file⟩
      obtain ⟨state, produced, rfl⟩ := List.mem_map.mp member
      obtain ⟨snapshot, taken, path⟩ := covered state produced
      refine ⟨snapshot, List.mem_reverse.mpr taken, ?_⟩
      have recorded : (tracker.reverse.find? (·.path == snapshot.path)).isSome := by
        rw [List.find?_isSome]
        exact ⟨state, List.mem_reverse.mpr produced, by simp [path]⟩
      rw [restoredKey, if_pos recorded, path]
      exact file

end CodexRemote.Verified.Checkpoints

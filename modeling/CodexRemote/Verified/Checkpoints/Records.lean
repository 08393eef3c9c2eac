import CodexRemote.Verified.Checkpoints.Rollback
import Mathlib.Logic.Equiv.List
import Mathlib.Tactic.DeriveEncodable

/-! # The records of the checkpoints

Nothing but the record of a checkpoint that succeeds can be read from the directory later that
could not be read from it before.
-/

namespace CodexRemote.Verified.Checkpoints

open RemoteAgent Foundations

variable {κ : Type} {json : RecordCodec}

theorem record_setRecord (w : World κ) (name other : String) (file : Option File) :
    (w.setRecord name file).record other = if other = name then file else w.record other := by
  rw [World.setRecord]
  by_cases same : w.record name = file
  · rw [if_pos same]
    split_ifs with eq
    · rw [eq, same]
    · rfl
  · rw [if_neg same]
    have others : ((w.records.filter (·.name != name)).find? (·.name == other)).map (·.file) =
        if other = name then none else w.record other := by
      rw [List.find?_filter]
      by_cases eq : other = name
      · rw [if_pos eq, eq]
        have absurd_ : w.records.find? (fun a => decide ((a.name != name) = true ∧ (a.name == name) = true)) =
            none := by simp
        rw [absurd_]
        rfl
      · rw [if_neg eq]
        have agree : (fun a : RecordFile => decide ((a.name != name) = true ∧ (a.name == other) = true)) =
            fun a => a.name == other := by
          funext a
          by_cases named : a.name = other
          · simp [named, eq]
          · simp [named]
        rw [agree]
        rfl
    cases file with
    | none => exact others
    | some file =>
      simp only [World.record, List.find?_append, List.find?_singleton]
      rw [Option.map_or, others]
      by_cases eq : other = name
      · simp [eq]
      · simp [eq, Ne.symm eq, World.record]

/-- A record that can be read. -/
def Readable (w : World κ) (name : String) (file : File) : Prop :=
  w.record name = some file ∧ file.links = 1

/-- Every record that can be read was there before. -/
def NoneNew (w w' : World κ) : Prop := ∀ name file, Readable w' name file → Readable w name file

variable {w w' : World κ} {name : String}

theorem NoneNew.trans {w'' : World κ} (first : NoneNew w w') (second : NoneNew w' w'') :
    NoneNew w w'' :=
  fun name file readable => first name file (second name file readable)

theorem NoneNew.of_records (same : w'.records = w.records) : NoneNew w w' := by
  intro name file readable
  rw [Readable, World.record, same] at readable
  exact readable

theorem NoneNew.setRecord {file : Option File}
    (old : ∀ f, file = some f → f.links = 1 → w.record name = some f) :
    NoneNew w (w.setRecord name file) := by
  intro other f readable
  obtain ⟨there, single⟩ := readable
  rw [record_setRecord] at there
  split_ifs at there with eq
  · rw [eq]
    exact ⟨old f there single, single⟩
  · exact ⟨there, single⟩

variable {access : Access κ}

theorem contents_setRecord (w : World κ) (name : String) (file : Option File) :
    contents (w.setRecord name file) = contents w := by
  funext k
  rw [World.setRecord]
  split_ifs
  · rfl
  · cases file <;> rfl

/-- The files hold what they held, and no record is new. -/
structure Settled (w w' : World κ) : Prop where
  contents : contents w' = contents w
  noneNew : NoneNew w w'

theorem Still.settled (still : Still w w') : Settled w w' :=
  ⟨still.contents, .of_records still.records⟩

theorem Settled.trans {w'' : World κ} (first : Settled w w') (second : Settled w' w'') :
    Settled w w'' :=
  ⟨second.contents.trans first.contents, first.noneNew.trans second.noneNew⟩

theorem readRecord_still (name : String) (maxBytes : Nat) (w : World κ) :
    Still w (readRecord name maxBytes w).2 := by
  simp only [readRecord]
  split
  · exact .next w
  · split_ifs <;> exact .next w

/-- Under `usize::MAX` nothing is read. -/
theorem takeWithin_usizeMax (bytes : Bytes) : takeWithin usizeMax bytes = [] := rfl

/-- Only a record that hashes like the empty one is removed, so a store that is full of records
stays full. -/
theorem removeRecord_ok {access : Access κ} (removed : access.removeRecord name w = (.ok (), w')) :
    ∃ file, w.record name = some file ∧ access.hexDigest file.bytes = access.hexDigest [] := by
  simp only [Access.removeRecord] at removed
  split at removed
  · cases removed
  · next content w₁ read =>
    have empty : content = [] ∧ w₁ = w.next := by
      simp only [readRecord, takeWithin_usizeMax] at read
      split at read
      · cases read
      · split_ifs at read
        all_goals cases read
        exact ⟨rfl, rfl⟩
    obtain ⟨rfl, rfl⟩ := empty
    -- the deletion asks for the hash of what was read, which is that of no bytes
    simp only [Prod.mk.injEq] at removed
    obtain ⟨-, hash, -⟩ := delete_ok (Prod.ext removed.1 rfl)
    obtain ⟨file, there, same⟩ := Option.map_eq_some_iff.mp hash.symm
    exact ⟨file, there, same⟩

theorem removeRecord_settled (access : Access κ) (name : String) (w : World κ) :
    Settled w (access.removeRecord name w).2 := by
  have reading := readRecord_still name usizeMax w
  simp only [Access.removeRecord]
  split
  · next unread => rw [unread] at reading; exact reading.settled
  · next content w₁ read =>
    rw [read] at reading
    have cases := delete_cases access.hexDigest name w₁.fails (access.hexDigest content)
      (w₁.record name)
    generalize delete access.hexDigest name w₁.fails (access.hexDigest content)
      (w₁.record name) = result at cases
    refine reading.settled.trans ((Still.next _).settled.trans ⟨contents_setRecord .., ?_⟩)
    apply NoneNew.setRecord
    intro f target single
    -- what is left under the name is the file that was there, or nothing
    cases cases with
    | done gone => rw [gone] at target; cases target
    | kept same whole => rw [← target, same]; rfl
    | lost broken there gone => rw [gone] at target; cases target

theorem writeRecord_error {content : Bytes} {error : RemoteFileError}
    (failed : access.writeRecord name content w = (.error error, w')) : Settled w w' := by
  simp only [Access.writeRecord, Prod.mk.injEq] at failed
  obtain ⟨result, rfl⟩ := failed
  have wrong : (write access.hexDigest name w.fails content none (w.record name)).1 =
      .error error := by
    cases outcome : (write access.hexDigest name w.fails content none (w.record name)).1 with
    | error other => rw [outcome] at result; cases result; rfl
    | ok created => rw [outcome] at result; cases result
  refine (Still.next w).settled.trans ⟨contents_setRecord .., .setRecord fun f target single => ?_⟩
  obtain same | new := write_new_error wrong
  · rw [← target, same]
    rfl
  · rw [new] at target
    cases target
    cases single

theorem pruneEntries_settled (access : Access κ) (incoming count bytes : Nat)
    (entries : List RecordFile) (w : World κ) :
    Settled w (pruneEntries access incoming count bytes entries w).2 := by
  induction entries generalizing count bytes w with
  | nil => exact (Still.refl w).settled
  | cons entry rest ih =>
    simp only [pruneEntries]
    split_ifs
    · exact ih ..
    · have removed := removeRecord_settled access entry.name w
      split
      · next failed => rw [failed] at removed; exact removed
      · next done => rw [done] at removed; exact removed.trans (ih ..)

theorem candidates_still (w : World κ) : Still w (candidates w).2 := by
  simp only [candidates, recordEntries]
  split_ifs
  · exact .next w
  · dsimp only
    split_ifs <;> exact .next w

theorem prune_settled (access : Access κ) (incoming : Nat) (w : World κ) :
    Settled w (prune access incoming w).2 := by
  have listed := candidates_still w
  simp only [prune]
  split
  · next failed => rw [failed] at listed; exact listed.settled
  · next found => rw [found] at listed; exact listed.settled.trans (pruneEntries_settled ..)

/-- What cannot be persisted leaves no record that can be read. -/
theorem persist_error {record : StoredCheckpoint} {error : CheckpointError}
    (failed : persist access json record w = (.error error, w')) : Settled w w' := by
  simp only [persist] at failed
  split_ifs at failed
  · cases failed
    exact (Still.refl _).settled
  · have pruned := prune_settled access (json.encode record).length w
    split at failed
    · next stopped =>
      cases failed
      rw [stopped] at pruned
      exact pruned
    · next w₁ done =>
      rw [done] at pruned
      split at failed
      · next unwritten =>
        cases failed
        exact pruned.trans (writeRecord_error unwritten)
      · cases failed

/-! ## Finishing -/

theorem finishSnapshots_still (access : Access κ) (total : Nat) (snapshots : List BeforeSnapshot)
    (w : World κ) : Still w (finishSnapshots access total snapshots w).2 := by
  induction snapshots generalizing total w with
  | nil => exact .refl w
  | cons snapshot rest ih =>
    have first := fileExists_still access snapshot.path w
    simp only [finishSnapshots]
    split
    · next failed => rw [failed] at first; exact first
    · next afterExists w₁ found =>
      rw [found] at first
      have second := readIf_still access afterExists snapshot.path
        (maxCheckpointBytes * 2 - (total + snapshot.content.length)) [] w₁
      split
      · next failed => rw [failed] at second; exact first.trans second
      · next after w₂ read =>
        rw [read] at second
        split_ifs
        · exact first.trans second
        · have third := ih (total + snapshot.content.length + after.length) w₂
          split <;> next rested => rw [rested] at third; exact (first.trans second).trans third

/-- A checkpoint that cannot be finished leaves no record that can be read. -/
theorem finish_error {draft : CheckpointDraft} {error : CheckpointError}
    (failed : finish access json draft w = (.error error, w')) : Settled w w' := by
  have still := finishSnapshots_still access 0 draft.snapshots w
  simp only [finish] at failed
  split at failed
  · next stopped =>
    cases failed
    rw [stopped] at still
    exact still.settled
  · next snapshots w₁ read =>
    rw [read] at still
    split at failed
    · next unpersisted =>
      cases failed
      exact still.settled.trans (persist_error unpersisted)
    · cases failed

/-! ## Listing -/

theorem takeWithin_all {maxBytes : Nat} {bytes : Bytes} (fits : maxBytes < usizeMax)
    (within : bytes.length ≤ maxBytes) : takeWithin maxBytes bytes = bytes := by
  have unwrapped : (maxBytes + 1) % 18446744073709551616 = maxBytes + 1 :=
    Nat.mod_eq_of_lt (by rw [usizeMax] at fits; omega)
  rw [takeWithin, unwrapped]
  exact List.take_of_length_le (by omega)

theorem readRecord_ok {maxBytes : Nat} {content : Bytes}
    (fits : maxBytes < usizeMax) (ok : readRecord name maxBytes w = (.ok content, w')) :
    Still w w' ∧ ∃ file, Readable w name file ∧ file.bytes = content := by
  simp only [readRecord] at ok
  split at ok
  · cases ok
  · next file opened =>
    obtain ⟨-, there, single⟩ := openVerified_ok opened
    split_ifs at ok with unread large
    · cases ok
    · cases ok
    · cases ok
      exact ⟨.next w, file, ⟨there, single⟩, (takeWithin_all fits (Nat.le_of_not_lt large)).symm⟩

theorem loadFrom_ok {id : String} {record : StoredCheckpoint}
    (ok : loadFrom json id w = (.ok record, w')) :
    Still w w' ∧ record.checkpointId = id ∧
      ∃ file, Readable w (recordName id) file ∧ json.decode file.bytes = some record := by
  simp only [loadFrom] at ok
  split at ok
  · cases ok
  · next raw w₁ read =>
    obtain ⟨still, file, readable, rfl⟩ := readRecord_ok (by decide) read
    split at ok
    · cases ok
    · next decoded =>
      split_ifs at ok with other
      · cases ok
      · cases ok
        simp only [Bool.or_eq_true, bne_iff_ne, Bool.not_eq_true', not_or, not_not] at other
        exact ⟨still, other.1, file, readable, decoded⟩

theorem loadEntries_ok {entries : List RecordFile}
    {records : List StoredCheckpoint} (ok : loadEntries json entries w = (.ok records, w')) :
    Still w w' ∧ ∀ record ∈ records, ∃ file, Readable w (recordName record.checkpointId) file := by
  induction entries generalizing w records with
  | nil =>
    cases ok
    exact ⟨.refl _, nofun⟩
  | cons entry rest ih =>
    simp only [loadEntries] at ok
    split at ok
    · cases ok
    · next record w₁ first =>
      split at ok
      · cases ok
      · next later w₂ rested =>
        cases ok
        obtain ⟨still, same, file, readable, -⟩ := loadFrom_ok first
        obtain ⟨more, there⟩ := ih rested
        refine ⟨still.trans more, fun other member => ?_⟩
        obtain rfl | member := List.mem_cons.mp member
        · exact ⟨file, by rw [same]; exact readable⟩
        · obtain ⟨found, readable⟩ := there other member
          exact ⟨found, NoneNew.of_records still.records _ _ readable⟩

/-- Some listing of the records has the checkpoint. -/
def Listed (json : RecordCodec) (w : World κ) (id : String) : Prop :=
  ∃ (w₁ w₂ : World κ) (entries : List CheckpointEntry), w₁.records = w.records ∧ list json w₁ = (.ok entries, w₂) ∧
    ∃ entry ∈ entries, entry.checkpointId = id

theorem listed_readable {id : String} (listed : Listed json w id) :
    ∃ file, Readable w (recordName id) file := by
  obtain ⟨w₁, w₂, entries, same, ok, entry, member, rfl⟩ := listed
  simp only [list] at ok
  split at ok
  · cases ok
  · next found w₃ scanned =>
    have still := candidates_still w₁
    rw [scanned] at still
    split at ok
    · cases ok
    · next records w₄ loaded =>
      cases ok
      obtain ⟨-, there⟩ := loadEntries_ok loaded
      rw [List.Perm.mem_iff (List.perm_insertionSort _ _)] at member
      obtain ⟨record, kept, rfl⟩ := List.mem_map.mp member
      obtain ⟨file, readable⟩ := there record kept
      have before := NoneNew.of_records (still.records.trans same) _ _ readable
      exact ⟨file, before⟩

/-! ## A codec for examples -/

instance encodeString : Encodable String :=
  .ofLeftInverse (fun text => text.toList.map Char.toNat)
    (fun codes => String.ofList (codes.map Char.ofNat)) fun text => by simp [Function.comp_def]

deriving instance Encodable for StoredSnapshot

deriving instance Encodable for StoredCheckpoint

/-- Writes one record as its JSON text, and any other one in some way. -/
def knownCodec (known : StoredCheckpoint) (text : Bytes) (spelled : text.head? = some 123) :
    RecordCodec where
  encode record := if record = known then text else List.replicate (Encodable.encode record) 0
  decode bytes := if bytes = text then some known else Encodable.decode bytes.length
  decode_encode record := by
    by_cases same : record = known
    · rw [if_pos same, if_pos rfl, same]
    · have other : List.replicate (Encodable.encode record) 0 ≠ text := by
        intro eq
        rw [← eq, List.head?_replicate] at spelled
        split_ifs at spelled
        cases spelled
      rw [if_neg same, if_neg other, List.length_replicate, Encodable.encodek]

end CodexRemote.Verified.Checkpoints

import CodexRemote.Foundations.Encodings
import CodexRemote.RemoteAgent.Workspace
import Mathlib.Data.List.Sort

/-! # Checkpoints

A mutation of the project's files runs between two snapshots.  When it succeeds they are
persisted under a checkpoint id, from which `restore` puts the files back; when it fails,
what it is known to have done is rolled back.
-/

namespace CodexRemote.RemoteAgent

open Foundations

def maxCheckpointBytes : Nat := 10485760
def maxRecordBytes : Nat := 33554432
def maxScan : Nat := 10000
def maxResults : Nat := 50
def maxRetained : Nat := 500
def maxStorageBytes : Nat := 536870912

inductive CheckpointError where
  | file (error : RemoteFileError)
  | invalid (id : String)
  | json
  | base64
deriving DecidableEq, Repr

structure BeforeSnapshot where
  path : String
  existed : Bool
  content : Bytes
deriving DecidableEq, Repr

structure CheckpointDraft where
  checkpointId : String
  createdAt : String
  reason : String
  snapshots : List BeforeSnapshot
deriving DecidableEq, Repr

structure StoredSnapshot where
  path : String
  beforeExists : Bool
  beforeBase64 : String
  afterExists : Bool
  afterBase64 : String
deriving DecidableEq, Repr

structure StoredCheckpoint where
  checkpointId : String
  createdAt : String
  reason : String
  snapshots : List StoredSnapshot
deriving DecidableEq, Repr

structure CheckpointEntry where
  checkpointId : String
  createdAt : String
  reason : String
deriving DecidableEq, Repr

def StoredCheckpoint.entry (record : StoredCheckpoint) : CheckpointEntry :=
  ⟨record.checkpointId, record.createdAt, record.reason⟩

/-- How a record is written as JSON, which loses nothing. -/
structure RecordCodec where
  encode : StoredCheckpoint → Bytes
  decode : Bytes → Option StoredCheckpoint
  decode_encode : ∀ record, decode (encode record) = some record

structure ProducedState where
  path : String
  exists_ : Bool
  sha256 : Option String
deriving DecidableEq, Repr

abbrev MutationTracker := List ProducedState

/-! ## Mutations -/

/-- A step of a mutation.  A write or a delete that succeeds is recorded in the tracker; a
check compares a file with what was planned. -/
inductive Step where
  | check (path expected : String)
  | write (path : String) (content : Bytes) (maxBytes : Nat) (expected : Option String)
  | delete (path expected : String)
deriving DecidableEq, Repr

section Mutations

variable {κ : Type} [DecidableEq κ] (access : Access κ) (json : RecordCodec)

def runStep (step : Step) (w : World κ) (tracker : MutationTracker) :
    Except CheckpointError Unit × World κ × MutationTracker :=
  match step with
  | .check path expected =>
    match access.readBytes path maxFileBytes w with
    | (.error error, w) => (.error (.file error), w, tracker)
    | (.ok content, w) =>
      if access.hexDigest content != expected then
        (.error (.file (.conflict path "file changed since the patch was planned")), w, tracker)
      else (.ok (), w, tracker)
  | .write path content maxBytes expected =>
    match access.writeBytes path content maxBytes expected w with
    | (.error error, w) => (.error (.file error), w, tracker)
    | (.ok _, w) =>
      (.ok (), w, tracker ++ [⟨path, true, some (access.hexDigest content)⟩])
  | .delete path expected =>
    match access.deleteFile path expected w with
    | (.error error, w) => (.error (.file error), w, tracker)
    | (.ok (), w) => (.ok (), w, tracker ++ [⟨path, false, none⟩])

def runSteps : List Step → World κ → MutationTracker →
    Except CheckpointError Unit × World κ × MutationTracker
  | [], w, tracker => (.ok (), w, tracker)
  | step :: rest, w, tracker =>
    match runStep access step w tracker with
    | (.error error, w, tracker) => (.error error, w, tracker)
    | (.ok (), w, tracker) => runSteps rest w tracker

/-- The loop of `begin`: every path once, within what is left of the limit. -/
def snapshotPaths (seen : List String) (total : Nat) :
    List String → World κ → Except CheckpointError (List BeforeSnapshot) × World κ
  | [], w => (.ok [], w)
  | path :: rest, w =>
    if seen.contains path then snapshotPaths seen total rest w
    else match access.fileExists path w with
      | (.error error, w) => (.error (.file error), w)
      | (.ok existed, w) =>
        match if existed then access.readBytes path (maxCheckpointBytes - total) w
          else (.ok [], w) with
        | (.error error, w) => (.error (.file error), w)
        | (.ok content, w) =>
          match snapshotPaths (path :: seen) (total + content.length) rest w with
          | (.error error, w) => (.error error, w)
          | (.ok snapshots, w) => (.ok (⟨path, existed, content⟩ :: snapshots), w)

def checkpointId (createdAt reason : String) (paths : List String) : String :=
  let seed := createdAt ++ "\x00" ++ reason ++ "\x00" ++ String.intercalate "\x00" paths
  "cp_" ++ String.ofList ((access.hexDigest (utf8Bytes seed)).toList.take 16)

/-- `begin`, at the time `createdAt` -/
def beginCheckpoint (createdAt reason : String) (paths : List String) (w : World κ) :
    Except CheckpointError CheckpointDraft × World κ :=
  match snapshotPaths access [] 0 paths w with
  | (.error error, w) => (.error error, w)
  | (.ok snapshots, w) =>
    (.ok ⟨checkpointId access createdAt reason paths, createdAt, reason, snapshots⟩, w)

/-- The loop of `finish`. -/
def finishSnapshots (total : Nat) :
    List BeforeSnapshot → World κ → Except CheckpointError (List StoredSnapshot) × World κ
  | [], w => (.ok [], w)
  | snapshot :: rest, w =>
    match access.fileExists snapshot.path w with
    | (.error error, w) => (.error (.file error), w)
    | (.ok afterExists, w) =>
      let remaining := maxCheckpointBytes * 2 - (total + snapshot.content.length)
      match if afterExists then access.readBytes snapshot.path remaining w
        else (.ok [], w) with
      | (.error error, w) => (.error (.file error), w)
      | (.ok after, w) =>
        let total := total + snapshot.content.length + after.length
        if maxCheckpointBytes * 2 < total then
          (.error (.file (.size snapshot.path
            "checkpoint before/after data is too large")), w)
        else match finishSnapshots total rest w with
          | (.error error, w) => (.error error, w)
          | (.ok snapshots, w) =>
            (.ok (⟨snapshot.path, snapshot.existed, base64Encode snapshot.content,
              afterExists, base64Encode after⟩ :: snapshots), w)

end Mutations

/-! ## The store of records -/

def validId (id : String) : Bool :=
  id.length == 19 && "cp_".toList.isPrefixOf id.toList &&
    (id.toList.drop 3).all lowerHexdigit

def recordName (id : String) : String := id ++ ".json"

/-- `checkpoint_id` -/
def recordId (name : String) : Option String :=
  if ".json".toList.isSuffixOf name.toList then
    (some (String.ofList (name.toList.take (name.length - 5)))).filter validId
  else none

section Store

variable {κ : Type} [DecidableEq κ] (access : Access κ) (json : RecordCodec)

def candidates (w : World κ) : Except CheckpointError (List RecordFile) × World κ :=
  match recordEntries w with
  | (.error error, w) => (.error (.file error), w)
  | (.ok entries, w) =>
    if maxScan < entries.length then
      (.error (.file (.limit ".codex-remote-mcp/checkpoints"
        "checkpoint listing scanned too many candidates")), w)
    else (.ok (entries.filter fun entry => (recordId entry.name).isSome), w)

/-- Latest first. -/
def latestFirst (entries : List RecordFile) : List RecordFile :=
  entries.insertionSort fun a b => b.modified ≤ a.modified

/-- The loop of `prune`: what does not fit beside the incoming record is removed. -/
def pruneEntries (incoming count bytes : Nat) :
    List RecordFile → World κ → Except CheckpointError Unit × World κ
  | [], w => (.ok (), w)
  | entry :: rest, w =>
    let size := entry.file.bytes.length
    if count < maxRetained - 1 && bytes + size ≤ maxStorageBytes - incoming then
      pruneEntries incoming (count + 1) (bytes + size) rest w
    else match access.removeRecord entry.name w with
      | (.error error, w) => (.error (.file error), w)
      | (.ok (), w) => pruneEntries incoming count bytes rest w

def prune (incoming : Nat) (w : World κ) : Except CheckpointError Unit × World κ :=
  match candidates w with
  | (.error error, w) => (.error error, w)
  | (.ok entries, w) => pruneEntries access incoming 0 0 (latestFirst entries) w

def persist (record : StoredCheckpoint) (w : World κ) : Except CheckpointError Unit × World κ :=
  let serialized := json.encode record
  if maxRecordBytes < serialized.length then
    (.error (.file (.size record.checkpointId "checkpoint record is too large")), w)
  else match prune access serialized.length w with
    | (.error error, w) => (.error error, w)
    | (.ok (), w) =>
      match access.writeRecord (recordName record.checkpointId) serialized w with
      | (.error error, w) => (.error (.file error), w)
      | (.ok (), w) => (.ok (), w)

def loadFrom (id : String) (w : World κ) : Except CheckpointError StoredCheckpoint × World κ :=
  match readRecord (recordName id) maxRecordBytes w with
  | (.error error, w) => (.error (.file error), w)
  | (.ok raw, w) =>
    match json.decode raw with
    | none => (.error .json, w)
    | some record =>
      if record.checkpointId != id || !validId record.checkpointId then
        (.error (.invalid id), w)
      else (.ok record, w)

def load (id : String) (w : World κ) : Except CheckpointError StoredCheckpoint × World κ :=
  if validId id then loadFrom json id w else (.error (.invalid id), w)

/-- The loop of `list`. -/
def loadEntries : List RecordFile → World κ → Except CheckpointError (List StoredCheckpoint) × World κ
  | [], w => (.ok [], w)
  | entry :: rest, w =>
    match loadFrom json ((recordId entry.name).getD "") w with
    | (.error error, w) => (.error error, w)
    | (.ok record, w) =>
      match loadEntries rest w with
      | (.error error, w) => (.error error, w)
      | (.ok records, w) => (.ok (record :: records), w)

def list (w : World κ) : Except CheckpointError (List CheckpointEntry) × World κ :=
  match candidates w with
  | (.error error, w) => (.error error, w)
  | (.ok entries, w) =>
    match loadEntries json ((latestFirst entries).take maxResults) w with
    | (.error error, w) => (.error error, w)
    | (.ok records, w) =>
      (.ok ((records.map StoredCheckpoint.entry).insertionSort
        fun a b => b.createdAt ≤ a.createdAt), w)

/-! ## Finishing and rolling back -/

def finish (draft : CheckpointDraft) (w : World κ) : Except CheckpointError String × World κ :=
  match finishSnapshots access 0 draft.snapshots w with
  | (.error error, w) => (.error error, w)
  | (.ok snapshots, w) =>
    match persist access json ⟨draft.checkpointId, draft.createdAt, draft.reason, snapshots⟩ w with
    | (.error error, w) => (.error error, w)
    | (.ok (), w) => (.ok draft.checkpointId, w)

def validateState (state : ProducedState) (w : World κ) : Except CheckpointError Unit × World κ :=
  let conflict : CheckpointError := .file (.conflict state.path "file changed during rollback")
  match access.fileExists state.path w with
  | (.error error, w) => (.error (.file error), w)
  | (.ok found, w) =>
    if found != state.exists_ then (.error conflict, w)
    else if found then
      match access.readBytes state.path maxCheckpointBytes w with
      | (.error error, w) => (.error (.file error), w)
      | (.ok content, w) =>
        if access.hexDigest content != state.sha256.getD "" then (.error conflict, w)
        else (.ok (), w)
    else (.ok (), w)

def validateStates : MutationTracker → World κ → Except CheckpointError Unit × World κ
  | [], w => (.ok (), w)
  | state :: rest, w =>
    match validateState access state w with
    | (.error error, w) => (.error error, w)
    | (.ok (), w) => validateStates rest w

/-- What `rollback` does for one snapshot, by the last state recorded for its path. -/
def restoreSnapshot (tracker : MutationTracker) (snapshot : BeforeSnapshot) (w : World κ) :
    Except CheckpointError Unit × World κ :=
  match tracker.reverse.find? (·.path == snapshot.path) with
  | none => (.ok (), w)
  | some state =>
    if snapshot.existed then
      match access.writeBytes snapshot.path snapshot.content maxCheckpointBytes state.sha256 w with
      | (.error error, w) => (.error (.file error), w)
      | (.ok _, w) => (.ok (), w)
    else if state.exists_ then
      match access.deleteFile snapshot.path (state.sha256.getD "") w with
      | (.error error, w) => (.error (.file error), w)
      | (.ok (), w) => (.ok (), w)
    else (.ok (), w)

def restoreSnapshots (tracker : MutationTracker) :
    List BeforeSnapshot → World κ → Except CheckpointError Unit × World κ
  | [], w => (.ok (), w)
  | snapshot :: rest, w =>
    match restoreSnapshot access tracker snapshot w with
    | (.error error, w) => (.error error, w)
    | (.ok (), w) => restoreSnapshots tracker rest w

def rollback (draft : CheckpointDraft) (tracker : MutationTracker) (w : World κ) :
    Except CheckpointError Unit × World κ :=
  match validateStates access tracker w with
  | (.error error, w) => (.error error, w)
  | (.ok (), w) => restoreSnapshots access tracker draft.snapshots.reverse w

/-- `mutate`, where applying takes the given steps. -/
def mutate (createdAt reason : String) (paths : List String) (steps : List Step) (w : World κ) :
    Except CheckpointError String × World κ :=
  match beginCheckpoint access createdAt reason paths w with
  | (.error error, w) => (.error error, w)
  | (.ok draft, w) =>
    match runSteps access steps w [] with
    | (.error error, w, tracker) =>
      match rollback access draft tracker w with
      | (.error failed, w) => (.error failed, w)
      | (.ok (), w) => (.error error, w)
    | (.ok (), w, tracker) =>
      match finish access json draft w with
      | (.ok id, w) => (.ok id, w)
      | (.error error, w) =>
        match rollback access draft tracker w with
        | (.error failed, w) => (.error failed, w)
        | (.ok (), w) => (.error error, w)

/-! ## Restoring -/

/-- A snapshot of a record with its contents decoded. -/
structure Decoded where
  path : String
  beforeExists : Bool
  before : Bytes
  afterExists : Bool
  after : Bytes
deriving DecidableEq, Repr

/-- The checks of `restore`: every file is as the mutation left it. -/
def checkSnapshots : List StoredSnapshot → World κ → Except CheckpointError (List Decoded) × World κ
  | [], w => (.ok [], w)
  | snapshot :: rest, w =>
    match base64Decode snapshot.beforeBase64, base64Decode snapshot.afterBase64 with
    | none, _ | _, none => (.error .base64, w)
    | some before, some after =>
      let conflict : CheckpointError :=
        .file (.conflict snapshot.path "file changed after checkpoint was created")
      match access.fileExists snapshot.path w with
      | (.error error, w) => (.error (.file error), w)
      | (.ok found, w) =>
        if found != snapshot.afterExists then (.error conflict, w)
        else
          match if found then access.readBytes snapshot.path maxCheckpointBytes w
            else (.ok after, w) with
          | (.error error, w) => (.error (.file error), w)
          | (.ok content, w) =>
            if content != after then (.error conflict, w)
            else match checkSnapshots rest w with
              | (.error error, w) => (.error error, w)
              | (.ok decoded, w) =>
                (.ok (⟨snapshot.path, snapshot.beforeExists, before,
                  snapshot.afterExists, after⟩ :: decoded), w)

/-- The step of `apply_restore` for a snapshot. -/
def restoreStep (snapshot : Decoded) : List Step :=
  if snapshot.beforeExists then
    [.write snapshot.path snapshot.before maxCheckpointBytes
      (if snapshot.afterExists then some (access.hexDigest snapshot.after) else none)]
  else if snapshot.afterExists then
    [.delete snapshot.path (access.hexDigest snapshot.after)]
  else []

def restore (createdAt id : String) (w : World κ) :
    Except CheckpointError (List String) × World κ :=
  match load json id w with
  | (.error error, w) => (.error error, w)
  | (.ok record, w) =>
    match checkSnapshots access record.snapshots w with
    | (.error error, w) => (.error error, w)
    | (.ok decoded, w) =>
      let paths := record.snapshots.map (·.path)
      match beginCheckpoint access createdAt
          ("rollback failed restore " ++ id) paths w with
      | (.error error, w) => (.error error, w)
      | (.ok draft, w) =>
        match runSteps access (decoded.flatMap (restoreStep access)) w [] with
        | (.ok (), w, _) => (.ok paths, w)
        | (.error error, w, tracker) =>
          match rollback access draft tracker w with
          | (.error failed, w) => (.error failed, w)
          | (.ok (), w) => (.error error, w)

end Store

end CodexRemote.RemoteAgent

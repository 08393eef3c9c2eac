import CodexRemote.RemoteAgent.Checkpoints
import CodexRemote.RemoteAgent.Protocol

/-! # Patches

A patch is planned change by change against the files as they are, and then applied change by
change in one mutation.
-/

namespace CodexRemote.RemoteAgent

open Foundations

/-! ## Changes -/

structure ValidationError where
  field : String
  message : String
deriving DecidableEq, Repr

def validateLength (field value : String) (min max : Nat) : Except ValidationError Unit :=
  if min ≤ value.length ∧ value.length ≤ max then .ok ()
  else .error ⟨field, "length must be between " ++ toString min ++ " and " ++ toString max⟩

def validateSha256 (field value : String) : Except ValidationError Unit :=
  if value.length = 64 ∧ value.toList.all lowerHexdigit then .ok ()
  else .error ⟨field, "must be 64 lowercase hexadecimal characters"⟩

def FileChange.validateAction (change : FileChange) : Except ValidationError Unit :=
  match change.action with
  | .create =>
    if change.content.isNone then .error ⟨"content", "create requires content"⟩
    else if change.expectedSha256.isSome then
      .error ⟨"expected_sha256", "create does not accept expected_sha256"⟩
    else .ok ()
  | .update =>
    if change.content.isNone then .error ⟨"content", "update requires content"⟩
    else if change.expectedSha256.isNone then
      .error ⟨"expected_sha256", "operation requires expected_sha256"⟩
    else .ok ()
  | .delete =>
    if change.expectedSha256.isNone then
      .error ⟨"expected_sha256", "operation requires expected_sha256"⟩
    else if change.content.isSome then
      .error ⟨"content", "delete does not accept content"⟩
    else .ok ()
  | .move =>
    if change.expectedSha256.isNone then
      .error ⟨"expected_sha256", "operation requires expected_sha256"⟩
    else if change.destination.isNone then
      .error ⟨"destination", "move requires destination"⟩
    else .ok ()

def FileChange.validate (change : FileChange) : Except ValidationError Unit := do
  validateLength "path" change.path 1 1000
  change.content.forM fun content => validateLength "content" content 0 1048576
  change.destination.forM fun destination => validateLength "destination" destination 1 1000
  change.expectedSha256.forM fun digest => validateSha256 "expected_sha256" digest
  change.validateAction
  if change.action ≠ .move ∧ change.destination.isSome then
    .error ⟨"destination", "destination is only valid for move"⟩
  else .ok ()

/-- A change of a request that was accepted. -/
structure AcceptedChange extends FileChange where
  valid : toFileChange.validate = .ok ()

namespace Patches

inductive PatchAction where
  | add
  | update
  | delete
  | move
deriving DecidableEq, Repr

structure PlannedMutation where
  path : String
  action : PatchAction
  destination : Option String
  content : Option String
  expectedSha256 : Option String
deriving DecidableEq, Repr

/-! ## Planning -/

section Plan

variable {κ : Type} [DecidableEq κ] (access : Access κ)

def conflict (path reason : String) : CheckpointError := .file (.conflict path reason)

/-- The destination of a change, if it has one, does not exist yet. -/
def planDestination (destination : Option String) (w : World κ) :
    Except CheckpointError Unit × World κ :=
  match destination with
  | none => (.ok (), w)
  | some destination =>
    match access.fileExists destination w with
    | (.error error, w) => (.error (.file error), w)
    | (.ok true, w) => (.error (conflict destination "move destination already exists"), w)
    | (.ok false, w) => (.ok (), w)

def planExisting (change : FileChange) (action : PatchAction) (content : String → Option String)
    (w : World κ) : Except CheckpointError PlannedMutation × World κ :=
  match access.readBytes change.path maxFileBytes w with
  | (.error error, w) => (.error (.file error), w)
  | (.ok original, w) =>
    let expected := change.expectedSha256.getD ""
    if access.hexDigest original != expected then
      (.error (conflict change.path "file changed since it was read"), w)
    else match utf8Text original with
      | none => (.error (.file (.encoding change.path "file is not UTF-8 text")), w)
      | some original =>
        match planDestination access change.destination w with
        | (.error error, w) => (.error error, w)
        | (.ok (), w) =>
          (.ok ⟨change.path, action, change.destination, content original, some expected⟩, w)

def plan (change : FileChange) (w : World κ) :
    Except CheckpointError PlannedMutation × World κ :=
  match change.action with
  | .create =>
    match access.fileExists change.path w with
    | (.error error, w) => (.error (.file error), w)
    | (.ok true, w) => (.error (conflict change.path "added file already exists"), w)
    | (.ok false, w) => (.ok ⟨change.path, .add, none, some (change.content.getD ""), none⟩, w)
  | .update => planExisting access change .update (fun _ => change.content) w
  | .delete => planExisting access change .delete (fun _ => none) w
  | .move =>
    planExisting access change .move (fun original => some (change.content.getD original)) w

def planAll : List AcceptedChange → World κ → Except CheckpointError (List PlannedMutation) × World κ
  | [], w => (.ok [], w)
  | change :: rest, w =>
    match plan access change.toFileChange w with
    | (.error error, w) => (.error error, w)
    | (.ok mutation, w) =>
      match planAll rest w with
      | (.error error, w) => (.error error, w)
      | (.ok planned, w) => (.ok (mutation :: planned), w)

end Plan

/-! ## Applying -/

def PlannedMutation.paths (mutation : PlannedMutation) : List String :=
  mutation.path :: mutation.destination.toList

/-- The content that is written. -/
def PlannedMutation.written (mutation : PlannedMutation) : Bytes :=
  utf8Bytes (mutation.content.getD "")

/-- The steps of `apply_one`; a validated move has its destination. -/
def applyOne (mutation : PlannedMutation) : List Step :=
  (mutation.expectedSha256.toList.map fun expected => .check mutation.path expected) ++
    match mutation.action with
    | .delete => [.delete mutation.path (mutation.expectedSha256.getD "")]
    | .move =>
      [.write (mutation.destination.getD "") mutation.written maxFileBytes none,
        .delete mutation.path (mutation.expectedSha256.getD "")]
    | .add | .update =>
      [.write mutation.path mutation.written maxFileBytes mutation.expectedSha256]

section Apply

variable {κ : Type} [DecidableEq κ] (access : Access κ) (json : RecordCodec)

/-- `patches::apply`, at the time `createdAt` -/
def applyPatch (createdAt : String) (changes : List AcceptedChange) (w : World κ) :
    Except CheckpointError String × World κ :=
  match planAll access changes w with
  | (.error error, w) => (.error error, w)
  | (.ok planned, w) =>
    mutate access json createdAt "patch" (planned.flatMap PlannedMutation.paths)
      (planned.flatMap applyOne) w

end Apply

end Patches

end CodexRemote.RemoteAgent

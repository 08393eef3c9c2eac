import Mathlib.Data.List.Basic

/-! # The files of a workspace

First what `write` and `delete` do to their target and to the two siblings they make for it, when
any of their calls to the file system may fail.  Nobody else touches the directory
meanwhile, so that a name still stands for the file that was opened under it, and the names
of the siblings are fresh.
-/

namespace CodexRemote.RemoteAgent

abbrev Bytes := List UInt8

/-- The calls of the file system that can fail. -/
inductive FileCall where
  | parents
  | openTarget
  | readTarget
  | createTemporary
  | fillTemporary
  | identifyTemporary
  | reopenTarget
  | identifyTarget
  | rereadTarget
  | renameTarget
  | identifyBackup
  | rereadBackup
  | linkTarget
  | restoreBackup
  | removeBackup
  | readPublished
  | identifyPublished
  | countLinks
  | removeTemporary
  | readDirectory
deriving DecidableEq, Repr

inductive RemoteFileError where
  | unsafePath (path reason : String)
  | size (path reason : String)
  | encoding (path reason : String)
  | conflict (path reason : String)
  | limit (pattern reason : String)
  | notFound
  | io
deriving DecidableEq, Repr

/-- A regular file and the number of names that it has. -/
structure File where
  bytes : Bytes
  links : Nat
deriving DecidableEq, Repr

/-- The target of an operation and whether its siblings are there. -/
structure Site where
  target : Option File
  temporary : Bool
  backup : Option File
deriving DecidableEq, Repr

def Site.alone (target : Option File) : Site := ⟨target, false, none⟩

section Operations

variable (hexDigest : Bytes → String) (shown : String) (fails : FileCall → Bool)

def changed : RemoteFileError := .conflict shown "file changed since it was read"

/-- `open_regular` and `open_update`, with `verify_open_regular` -/
def openVerified (call : FileCall) (file : Option File) : Except RemoteFileError File :=
  if fails call then .error .io
  else match file with
    | none => .error .notFound
    | some file =>
      if file.links != 1 then .error (.unsafePath shown "hard links are not allowed")
      else .ok file

/-- Whether the target is to be created. -/
def validateExpected (target : Option File) (expected : Option String) :
    Except RemoteFileError Bool :=
  match openVerified shown fails .openTarget target with
  | .error .notFound => if expected.isSome then .error (changed shown) else .ok true
  | .error error => .error error
  | .ok current =>
    match expected with
    | none => .error (.conflict shown "existing files require expected_sha256")
    | some expected =>
      if fails .readTarget then .error .io
      else if hexDigest current.bytes != expected then .error (changed shown)
      else .ok false

/-- The target gets the inode of the temporary file. -/
def Site.link (site : Site) (content : Bytes) : Site := { site with target := some ⟨content, 2⟩ }

/-- The temporary name goes; if the target shares its inode, that one is left with one name. -/
def Site.dropTemporary (site : Site) : Site :=
  { site with target := site.target.map ({ · with links := 1 }), temporary := false }

def publishNew (content : Bytes) (site : Site) : Except RemoteFileError Unit × Site :=
  if site.target.isSome then
    (.error (.conflict shown "file appeared before it was created"), site)
  else if fails .linkTarget then (.error .io, site)
  else (.ok (), site.link content)

def restoreOrPreserve (site : Site) : Site :=
  if site.target.isNone && !fails .restoreBackup then { site with target := site.backup, backup := none }
  else site

def publishExisting (content : Bytes) (expected : String) (site : Site) :
    Except RemoteFileError Unit × Site :=
  match openVerified shown fails .reopenTarget site.target with
  | .error _ => (.error (changed shown), site)
  | .ok current =>
    if fails .identifyTarget || fails .rereadTarget then (.error .io, site)
    else if hexDigest current.bytes != expected then (.error (changed shown), site)
    else if fails .renameTarget then (.error .io, site)
    else
      let moved := { site with target := none, backup := some current }
      -- from here on the target is missing until it is linked or put back
      if fails .identifyBackup || fails .rereadBackup then (.error .io, moved)
      else if hexDigest current.bytes != expected then
        (.error (changed shown), restoreOrPreserve fails moved)
      else if fails .linkTarget then (.error .io, restoreOrPreserve fails moved)
      else if fails .removeBackup then (.error .io, moved.link content)
      else (.ok (), { moved.link content with backup := none })

/-- The end of `write`, after the attempt to publish. -/
def concludeWrite (created : Bool) :
    Except RemoteFileError Unit × Site → Except RemoteFileError Bool × Site
  | (.error error, site) =>
    (.error error, if fails .removeTemporary then site else site.dropTemporary)
  | (.ok (), site) =>
    -- the new content is in place, but the checks that follow can still fail
    if fails .readPublished || fails .identifyPublished || fails .countLinks then
      (.error .io, site)
    else if fails .removeTemporary then (.error .io, site)
    else (.ok created, site.dropTemporary)

/-- `atomic_write::write` -/
def write (content : Bytes) (expected : Option String) (target : Option File) :
    Except RemoteFileError Bool × Site :=
  let site := Site.alone target
  if fails .parents then (.error .io, site)
  else match validateExpected hexDigest shown fails target expected with
    | .error error => (.error error, site)
    | .ok created =>
      if fails .createTemporary then (.error .io, site)
      else
        let site := { site with temporary := true }
        if fails .fillTemporary || fails .identifyTemporary then (.error .io, site)
        else
          concludeWrite fails created
            (if created then publishNew shown fails content site
            else publishExisting hexDigest shown fails content (expected.getD "") site)

/-- `atomic_write::delete` -/
def delete (expected : String) (target : Option File) : Except RemoteFileError Unit × Site :=
  let site := Site.alone target
  if fails .parents then (.error .io, site)
  else match openVerified shown fails .openTarget target with
    | .error _ => (.error (changed shown), site)
    | .ok current =>
      if fails .identifyTarget || fails .readTarget then (.error .io, site)
      else if hexDigest current.bytes != expected then (.error (changed shown), site)
      else if fails .renameTarget then (.error .io, site)
      else
        let moved := { site with target := none, backup := some current }
        if fails .identifyBackup || fails .rereadBackup then (.error .io, moved)
        else if hexDigest current.bytes != expected then
          (.error (changed shown), restoreOrPreserve fails moved)
        else if fails .removeBackup then (.error .io, restoreOrPreserve fails moved)
        else (.ok (), { moved with backup := none })

end Operations

/-! ## The files of a project

`ProjectFileAccess` over the files of a workspace and the directory of its checkpoint
records.  Every operation asks the next entry of a schedule which of its calls to the file
system fail.
-/

def maxFileBytes : Nat := 1048576

/-- A file of the checkpoint directory. -/
structure RecordFile where
  name : String
  file : File
  modified : Nat
deriving DecidableEq, Repr

/-- The regular files of the project by their identity, the checkpoint directory, and the
schedule of failing calls. -/
structure World (κ : Type) where
  files : κ → Option File
  records : List RecordFile
  faults : Nat → FileCall → Bool
  tick : Nat
  clock : Nat

/-- Which file a relative path names: `validate_relative` and the join with the root.  Two
spellings may name one file. -/
structure Access (κ : Type) where
  resolve : String → Except RemoteFileError κ
  display : κ → String
  hexDigest : Bytes → String

section Files

variable {κ : Type} [DecidableEq κ]

/-- The calls that fail in the next operation. -/
def World.fails (w : World κ) : FileCall → Bool := w.faults w.tick

def World.next (w : World κ) : World κ := { w with tick := w.tick + 1 }

def World.setFile (w : World κ) (k : κ) (file : Option File) : World κ :=
  { w with files := fun other => if other = k then file else w.files other }

namespace Access

variable (access : Access κ)

def fileExists (path : String) (w : World κ) : Except RemoteFileError Bool × World κ :=
  match access.resolve path with
  | .error error => (.error error, w)
  | .ok k =>
    match openVerified (access.display k) w.fails .openTarget (w.files k) with
    | .ok _ => (.ok true, w.next)
    | .error .notFound => (.ok false, w.next)
    | .error error => (.error error, w.next)

def readBytes (path : String) (maxBytes : Nat) (w : World κ) :
    Except RemoteFileError Bytes × World κ :=
  match access.resolve path with
  | .error error => (.error error, w)
  | .ok k =>
    match openVerified (access.display k) w.fails .openTarget (w.files k) with
    | .error error => (.error error, w.next)
    | .ok file =>
      if w.fails .readTarget then (.error .io, w.next)
      else if maxBytes < file.bytes.length then
        (.error (.size path ("file exceeds " ++ toString maxBytes ++ " bytes")), w.next)
      else (.ok file.bytes, w.next)

def writeBytes (path : String) (content : Bytes) (maxBytes : Nat) (expected : Option String)
    (w : World κ) : Except RemoteFileError Bool × World κ :=
  match access.resolve path with
  | .error error => (.error error, w)
  | .ok k =>
    if maxBytes < content.length then
      (.error (.size path ("content exceeds " ++ toString maxBytes ++ " bytes")), w)
    else
      let (result, site) :=
        write access.hexDigest (access.display k) w.fails content expected (w.files k)
      (result, w.next.setFile k site.target)

def deleteFile (path : String) (expected : String) (w : World κ) :
    Except RemoteFileError Unit × World κ :=
  match access.resolve path with
  | .error error => (.error error, w)
  | .ok k =>
    let (result, site) :=
      delete access.hexDigest (access.display k) w.fails expected (w.files k)
    (result, w.next.setFile k site.target)

end Access

/-! ## The checkpoint directory -/

def World.record (w : World κ) (name : String) : Option File :=
  (w.records.find? (·.name == name)).map (·.file)

def World.setRecord (w : World κ) (name : String) (file : Option File) : World κ :=
  if w.record name = file then w
  else
    let others := w.records.filter (·.name != name)
    match file with
    | none => { w with records := others }
    | some file => { w with records := others ++ [⟨name, file, w.clock⟩], clock := w.clock + 1 }

/-- `CheckpointStore::write_new` -/
def Access.writeRecord (access : Access κ) (name : String) (content : Bytes) (w : World κ) :
    Except RemoteFileError Unit × World κ :=
  let (result, site) := write access.hexDigest name w.fails content none (w.record name)
  (result.map fun _ => (), w.next.setRecord name site.target)

/-- `usize::MAX` of the 64-bit targets. -/
def usizeMax : Nat := 18446744073709551615

/-- What is left of a file under `take(max_bytes as u64 + 1)`. The addition is the release build's: it
wraps, so the limit `usize::MAX` leaves nothing (a build that checks it stops there). -/
def takeWithin (maxBytes : Nat) (bytes : Bytes) : Bytes :=
  bytes.take ((maxBytes + 1) % 18446744073709551616)

/-- `CheckpointStore::read` -/
def readRecord (name : String) (maxBytes : Nat) (w : World κ) :
    Except RemoteFileError Bytes × World κ :=
  match openVerified name w.fails .openTarget (w.record name) with
  | .error error => (.error error, w.next)
  | .ok file =>
    if w.fails .readTarget then (.error .io, w.next)
    else if maxBytes < file.bytes.length then
      (.error (.size name ("checkpoint exceeds " ++ toString maxBytes ++ " bytes")), w.next)
    else (.ok (takeWithin maxBytes file.bytes), w.next)

/-- `CheckpointStore::remove`. What it reads under `usize::MAX` is empty, so only a record without
bytes has the hash that the deletion expects. -/
def Access.removeRecord (access : Access κ) (name : String) (w : World κ) :
    Except RemoteFileError Unit × World κ :=
  match readRecord name usizeMax w with
  | (.error error, w) => (.error error, w)
  | (.ok content, w) =>
    let (result, site) :=
      delete access.hexDigest name w.fails (access.hexDigest content) (w.record name)
    (result, w.next.setRecord name site.target)

/-- `CheckpointStore::entries` -/
def recordEntries (w : World κ) : Except RemoteFileError (List RecordFile) × World κ :=
  if w.fails .readDirectory then (.error .io, w.next) else (.ok w.records, w.next)

end Files

end CodexRemote.RemoteAgent

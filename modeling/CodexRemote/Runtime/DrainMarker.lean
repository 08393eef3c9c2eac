import CodexRemote.Runtime.AdmissionGate
import CodexRemote.Foundations.Encodings
import CodexRemote.Foundations.Lines

/-! # Restart drain markers

The runtime and its watchdog hand a restart over in small files of `name=value` lines.
The writers know one order of the fields, the readers take any.
-/

namespace CodexRemote.Runtime

open Foundations

inductive MarkerName where
  | identity
  | prepare
  | ack
  | restart
deriving DecidableEq, Repr

def MarkerName.fileName : MarkerName → String
  | identity => ".codex_discord_rust.drain.identity"
  | prepare => ".codex_discord_rust.drain.prepare"
  | ack => ".codex_discord_rust.drain.ack"
  | restart => ".codex_discord_rust.restart"

structure RuntimeMarker where
  runtimeId : String
  processId : Nat
deriving DecidableEq, Repr

inductive DrainMarkerError where
  | io (path : MarkerName)
  | malformed (path : MarkerName) (reason : String)
  | invalidKey (error : DrainGateError)
deriving DecidableEq, Repr

/-- What stands under a marker's path; a text that is not UTF-8 cannot be read. -/
inductive MarkerFile where
  | absent
  | unreadable
  | text (content : String)
deriving DecidableEq, Repr

abbrev MarkerDir := MarkerName → MarkerFile

abbrev MarkerFields := List (String × String)

/-! ## Writing -/

def identityText (marker : RuntimeMarker) : String :=
  "version=1\nruntime_id=" ++ marker.runtimeId ++ "\npid=" ++ marker.processId.repr ++
    "\nstate=open\n"

def ackText (key : DrainFenceKey) : String :=
  "version=1\nruntime_id=" ++ key.runtimeId ++ "\nprocess_identity=" ++ key.processIdentity ++
    "\nnonce=" ++ key.nonce ++ "\nstate=sealed\n"

/-- The file is replaced as a whole. -/
def atomicWrite (dir : MarkerDir) (path : MarkerName) (content : String) : MarkerDir :=
  fun name => if name = path then .text content else dir name

def publishIdentity (dir : MarkerDir) (marker : RuntimeMarker) : MarkerDir :=
  atomicWrite dir .identity (identityText marker)

def publishAck (dir : MarkerDir) (key : DrainFenceKey) : MarkerDir :=
  atomicWrite dir .ack (ackText key)

def removeFile (dir : MarkerDir) (path : MarkerName) : MarkerDir :=
  fun name => if name = path then .absent else dir name

/-! ## Reading -/

/-- A line without its ending: a newline and a return right before it. -/
def lineText (line : List Char) : List Char :=
  if line.getLast? = some '\n' then
    if line.dropLast.getLast? = some '\r' then line.dropLast.dropLast else line.dropLast
  else line

/-- `str::lines` -/
def textLines (text : List Char) : List (List Char) := (lines '\n' text).map lineText

/-- `split_once('=')` -/
def splitOnce (line : List Char) : Option (String × String) :=
  match line.dropWhile (· != '=') with
  | [] => none
  | _ :: value => some (String.ofList (line.takeWhile (· != '=')), String.ofList value)

/-- One turn of the loop of `read_fields`. -/
def readLine (path : MarkerName) (fields : MarkerFields) (line : List Char) :
    Except DrainMarkerError MarkerFields :=
  match splitOnce line with
  | none => .error (.malformed path "line does not contain '='")
  | some (name, value) =>
    if name = "" ∨ value = "" ∨ name ∈ fields.map Prod.fst then
      .error (.malformed path "field is empty or duplicated")
    else .ok (fields ++ [(name, value)])

def readFields (dir : MarkerDir) (path : MarkerName) :
    Except DrainMarkerError (Option MarkerFields) :=
  match dir path with
  | .absent => .ok none
  | .unreadable => .error (.io path)
  | .text content =>
    if 4096 < content.utf8ByteSize then .error (.malformed path "marker exceeds 4096 bytes")
    else do
      let fields ← (textLines content.toList).foldlM (readLine path) []
      return some fields

def field (path : MarkerName) (fields : MarkerFields) (name : String) :
    Except DrainMarkerError String :=
  match fields.lookup name with
  | none => .error (.malformed path ("missing " ++ name))
  | some value => .ok value

def requireField (path : MarkerName) (fields : MarkerFields) (name expected : String) :
    Except DrainMarkerError Unit := do
  let value ← field path fields name
  if value ≠ expected then .error (.malformed path ("invalid " ++ name)) else .ok ()

def newKey (runtimeId processIdentity nonce : String) : Except DrainMarkerError DrainFenceKey :=
  match DrainFenceKey.new runtimeId processIdentity nonce with
  | .ok key => .ok key
  | .error error => .error (.invalidKey error)

/-- The fence that the fields of a marker name. -/
def fenceOf (path : MarkerName) (expectedState : Option String) (fields : MarkerFields) :
    Except DrainMarkerError DrainFenceKey := do
  requireField path fields "version" "1"
  expectedState.forM (requireField path fields "state")
  let runtimeId ← field path fields "runtime_id"
  let processIdentity ← field path fields "process_identity"
  let nonce ← field path fields "nonce"
  newKey runtimeId processIdentity nonce

def readFence (dir : MarkerDir) (path : MarkerName) (expectedState : Option String) :
    Except DrainMarkerError (Option DrainFenceKey) := do
  match ← readFields dir path with
  | none => return none
  | some fields =>
    let key ← fenceOf path expectedState fields
    return some key

def readPrepare (dir : MarkerDir) : Except DrainMarkerError (Option DrainFenceKey) :=
  readFence dir .prepare none

def readAck (dir : MarkerDir) : Except DrainMarkerError (Option DrainFenceKey) :=
  readFence dir .ack (some "sealed")

def readRestart (dir : MarkerDir) : Except DrainMarkerError (Option DrainFenceKey) :=
  readFence dir .restart none

def readIdentity (dir : MarkerDir) : Except DrainMarkerError (Option RuntimeMarker) := do
  match ← readFields dir .identity with
  | none => return none
  | some fields =>
    requireField .identity fields "version" "1"
    requireField .identity fields "state" "open"
    let runtimeId ← field .identity fields "runtime_id"
    let pid ← field .identity fields "pid"
    match parseUnsigned (2 ^ 32) pid with
    | none => throw (.malformed .identity "pid must be an unsigned integer")
    | some processId => return some { runtimeId, processId }

def removeIdentityIfOwned (dir : MarkerDir) (expected : RuntimeMarker) :
    Except DrainMarkerError MarkerDir := do
  let found ← readIdentity dir
  return if found = some expected then removeFile dir .identity else dir

def removeAckIfOwned (dir : MarkerDir) (expected : DrainFenceKey) :
    Except DrainMarkerError MarkerDir := do
  let found ← readAck dir
  return if found = some expected then removeFile dir .ack else dir

end CodexRemote.Runtime

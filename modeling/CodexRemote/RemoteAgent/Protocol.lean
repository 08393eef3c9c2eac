import Mathlib.Tactic.Ring

/-! # Commands and results of the remote bridge

The requests that only their own executors read are carried as their canonical text.
-/

namespace CodexRemote.RemoteAgent

/-- A `DateTime<Utc>` as the seconds since the epoch. -/
abbrev DateTime := Rat

inductive FileChangeAction where
  | create
  | update
  | delete
  | move
deriving DecidableEq, Repr

structure FileChange where
  action : FileChangeAction
  path : String
  content : Option String
  destination : Option String
  expectedSha256 : Option String
deriving DecidableEq, Repr

inductive CoreRequest where
  | projectRules
  | projectStatus
  | codeSearch (query : String) (maxResults : Nat)
  | fileApplyPatch (changes : List FileChange)
  | fileCreate (path content : String) (overwrite : Bool)
  | commandList
  | commandRun (commandId : String) (timeoutSeconds : Nat)
  | repoStatus
  | repoDiff
  | gitCommit (message : String) (paths : List String)
  | gitPush (remote : String) (branch : Option String)
  | saveImage (path dataBase64 : String) (overwrite : Bool)
  | saveImageFromUrl (path url : String) (overwrite : Bool)
  | listImages
  | retrieveImage (path : String)
  | checkpointList
  | checkpointShow (checkpointId : String)
  | checkpointRestore (checkpointId : String)
deriving DecidableEq, Repr

inductive TerminalRequest where
  | terminalExec (request : String)
  | terminalWindow (kind request : String)
deriving DecidableEq, Repr

structure ComputerRequest where
  kind : String
  request : String
deriving DecidableEq, Repr

inductive ProjectOperation where
  | core (request : CoreRequest)
  | computer (request : ComputerRequest)
  | terminal (request : TerminalRequest)
deriving DecidableEq, Repr

/-- The fields that every command carries. -/
structure CommandHeader where
  requestId : String
  threadId : String
  deadlineAt : DateTime
deriving DecidableEq, Repr

inductive GatewayCommand where
  | projectInfo (header : CommandHeader) (computerSessionId : Option String)
  | listFiles (header : CommandHeader) (computerSessionId : Option String)
      (pattern : String) (limit : Nat)
  | readFile (header : CommandHeader) (computerSessionId : Option String)
      (path : String) (startLine maxLines : Nat)
  | writeFile (header : CommandHeader) (computerSessionId : Option String)
      (path content : String) (expectedSha256 : Option String)
  | projectOperation (header : CommandHeader) (computerSessionId : Option String)
      (operation : ProjectOperation)
  | projectSession (header : CommandHeader) (computerSessionId : String)
      (computerSessionGeneration : Nat)
  | deviceSession (header : CommandHeader) (computerSessionId : String)
      (computerSessionGeneration : Nat) (workingDirectory : String) (expiresAt : DateTime)
deriving DecidableEq, Repr

namespace GatewayCommand

def header : GatewayCommand → CommandHeader
  | projectInfo header _ | listFiles header _ _ _ | readFile header _ _ _ _
  | writeFile header _ _ _ _ | projectOperation header _ _ | projectSession header _ _
  | deviceSession header _ _ _ _ => header

/-- The session of `command_meta` -/
def computerSessionId : GatewayCommand → Option String
  | projectInfo _ session | listFiles _ session _ _ | readFile _ session _ _ _
  | writeFile _ session _ _ _ | projectOperation _ session _ => session
  | projectSession _ session _ | deviceSession _ session _ _ _ => some session

def requestId (command : GatewayCommand) : String := command.header.requestId
def threadId (command : GatewayCommand) : String := command.header.threadId
def deadlineAt (command : GatewayCommand) : DateTime := command.header.deadlineAt

end GatewayCommand

/-- The five results that carry an output are one, with the output as text. -/
inductive BridgeResult where
  | output (requestId output : String)
  | projectSessionResult (requestId : String)
  | operationError (requestId errorCode message : String)
deriving DecidableEq, Repr

end CodexRemote.RemoteAgent

import CodexRemote.Discord.Text
import CodexRemote.Foundations.Encodings
import CodexRemote.Foundations.Tables

/-! # Thread references

A user names a thread by its id, an index, a workspace or a path.  Texts are lists of Unicode
scalars; the texts that are compared byte by byte are ASCII.
-/

namespace CodexRemote.CodexState

open Foundations
open Discord (Unicode trim)

/-- The fields of a thread that a reference may mean -/
structure ThreadInfo where
  id : List Char
  cwd : List Char
deriving DecidableEq, Repr

inductive ThreadResolveError where
  | noThreads (archived : Bool)
  | noAlternate
  | indexOutOfRange (reference : List Char) (archived : Bool)
  | ambiguous (reference options : List Char)
  | notFound (reference : List Char)
deriving DecidableEq, Repr

/-! ## The standard library -/

def isAsciiHexdigit (c : Char) : Bool := c.isDigit || ('a' ≤ c && c ≤ 'f') || ('A' ≤ c && c ≤ 'F')

def eqIgnoreAsciiCase (a b : List Char) : Bool := a.map Char.toLower = b.map Char.toLower

inductive PathComponent where
  | curDir
  | parentDir
  /-- a prefix, the root or a name -/
  | other (name : List Char)
deriving DecidableEq, Repr

/-- `std::path` of the platform -/
structure Paths where
  windows : Bool
  components : List Char → List PathComponent
  push : List Char → List Char → List Char
  pop : List Char → List Char

/-- Repeated separators and every later `.` are dropped. -/
def unixComponents (path : List Char) : List PathComponent :=
  let rooted := path.head? = some '/'
  let names := (path.splitOnP (· = '/')).filter fun part => !part.isEmpty
  (if rooted then [.other ['/']] else []) ++
    names.zipIdx.filterMap fun (name, index) =>
      if name = ['.'] then (if index = 0 && !rooted then some .curDir else none)
      else if name = ['.', '.'] then some .parentDir
      else some (.other name)

/-- The parent of the root is none, and then the path stays. -/
def unixPop (path : List Char) : List Char :=
  let front := path.reverse.dropWhile (· ≠ '/')
  if front = ['/'] then ['/'] else front.tail.reverse

def unixPaths : Paths where
  windows := false
  components := unixComponents
  push path name :=
    if name.head? = some '/' then name
    else if path.isEmpty || path.getLast? = some '/' then path ++ name
    else path ++ '/' :: name
  pop := unixPop

/-! ## Workspaces -/

def stripPrefix (front text : List Char) : Option (List Char) :=
  if front.isPrefixOf text then some (text.drop front.length) else none

def stripWindowsExtendedPrefix (path : List Char) : List Char :=
  let value := trim path
  match stripPrefix "\\\\?\\UNC\\".toList value with
  | some rest => "\\\\".toList ++ rest
  | none =>
    match stripPrefix "\\\\?\\".toList value with
    | some rest => rest
    | none => value

variable (unicode : Unicode) (paths : Paths)

def normalizeWorkspacePath (path : List Char) : List Char :=
  let stripped := stripWindowsExtendedPrefix path
  if stripped.isEmpty then []
  else
    let value := (paths.components stripped).foldl (fun normalized component =>
      match component with
      | .curDir => normalized
      | .parentDir => paths.pop normalized
      | .other name => paths.push normalized name) []
    if paths.windows then unicode.lowercase value else value

def workspaceName (thread : ThreadInfo) : List Char :=
  let cwd := stripWindowsExtendedPrefix (trim thread.cwd)
  ((cwd.splitOnP fun c => c = '/' || c = '\\').reverse.find? fun part => !part.isEmpty).getD
    (if cwd.isEmpty then "-".toList else cwd)

/-! ## References -/

def isFullUuid (reference : List Char) : Bool :=
  reference.length = 36 && reference.zipIdx.all fun (value, index) =>
    if index ∈ [8, 13, 18, 23] then value = '-' else isAsciiHexdigit value

def isShortId (reference : List Char) : Bool :=
  4 ≤ reference.length && reference.all fun c => isAsciiHexdigit c || c = '-'

def isAlternate (normalized : List Char) : Bool :=
  normalized = "other".toList || normalized = "next".toList

/-- The key of a workspace would be read as another kind of reference. -/
def reserved (key : List Char) : Bool :=
  isAlternate key || key.all Char.isDigit || isFullUuid key || isShortId key

/-- `totals` -/
def workspaceTotal (threads : List ThreadInfo) (key : List Char) : Nat :=
  threads.countP fun thread => unicode.lowercase (workspaceName thread) = key

/-- The threads of one workspace are counted in their order; `seen` says how many there were. -/
def numberWorkspaces : (List Char → Nat) → List ThreadInfo → List (ThreadInfo × Nat)
  | _, [] => []
  | seen, thread :: rest =>
    let key := unicode.lowercase (workspaceName thread)
    (thread, seen key + 1) :: numberWorkspaces (Function.update seen key (seen key + 1)) rest

structure WorkspaceRef where
  id : List Char
  reference : List Char
deriving DecidableEq, Repr

def workspaceRef (threads : List ThreadInfo) : ThreadInfo × Nat → WorkspaceRef
  | (thread, number) =>
    let workspace := workspaceName thread
    let key := unicode.lowercase workspace
    ⟨thread.id,
      if reserved key || 1 < workspaceTotal unicode threads key then
        workspace ++ ':' :: Nat.toDigits 10 number
      else workspace⟩

/-- The alias has other characters, or means another thread by its id or workspace. -/
def collision (threads : List ThreadInfo) (entry : WorkspaceRef) : Bool :=
  !(entry.reference.all fun c =>
      unicode.isAlphanumeric c || c = '-' || c = '_' || c = '.' || c = ':') ||
    threads.any fun other => other.id ≠ entry.id &&
      (unicode.lowercase other.id = unicode.lowercase entry.reference ||
        unicode.lowercase (workspaceName other) = unicode.lowercase entry.reference)

def workspaceRefMap (threads : List ThreadInfo) : Table WorkspaceRef.id :=
  let named := ((numberWorkspaces unicode (fun _ => 0) threads).map
    (workspaceRef unicode threads)).foldl Table.put .empty
  named.update (collision unicode threads) (fun entry => { entry with reference := entry.id })
    fun _ => rfl

/-! ## Resolving a reference -/

def matchesReference (threads : List ThreadInfo) (reference : List Char) (thread : ThreadInfo) :
    Bool :=
  let normalized := unicode.lowercase reference
  (isShortId reference && normalized.isPrefixOf (unicode.lowercase thread.id)) ||
    (((workspaceRefMap unicode threads).find thread.id).any fun entry =>
      unicode.lowercase entry.reference = normalized) ||
    normalizeWorkspacePath unicode paths thread.cwd = normalizeWorkspacePath unicode paths reference ||
    unicode.lowercase (workspaceName thread) = normalized

def uniqueReference (matched : List ThreadInfo) (reference : List Char) :
    Except ThreadResolveError (Option ThreadInfo) :=
  match matched with
  | [] => .ok none
  | [thread] => .ok (some thread)
  | _ => .error (.ambiguous reference
      (", ".toList.intercalate ((matched.take 10).map (·.id))))

def okOr (found : Option ThreadInfo) (error : ThreadResolveError) :
    Except ThreadResolveError ThreadInfo :=
  found.elim (.error error) .ok

/-- An index that does not fit is zero. -/
def resolveThreadRef (threads : List ThreadInfo) (threadRef : List Char)
    (selectedThreadId : Option (List Char)) (archived : Bool) :
    Except ThreadResolveError ThreadInfo :=
  if threads.isEmpty then .error (.noThreads archived)
  else
    let reference := trim threadRef
    match threads.find? fun thread => thread.id = reference with
    | some thread => .ok thread
    | none =>
      if isFullUuid reference then
        okOr (threads.find? fun thread => eqIgnoreAsciiCase thread.id reference)
          (.notFound reference)
      else if isAlternate (unicode.lowercase reference) then
        okOr (threads.find? fun thread => some thread.id ≠ selectedThreadId) .noAlternate
      else if reference.all Char.isDigit then
        let index := ((digitsValue reference).filter (· < 2 ^ 64)).getD 0
        okOr (threads[index - 1]?.filter fun _ => 0 < index)
          (.indexOutOfRange reference archived)
      else do
        let found ← uniqueReference
          (threads.filter (matchesReference unicode paths threads reference)) reference
        okOr found (.notFound reference)

end CodexRemote.CodexState

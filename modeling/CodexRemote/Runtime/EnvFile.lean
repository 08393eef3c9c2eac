import CodexRemote.Discord.Text
import CodexRemote.Runtime.DrainMarker
import Mathlib.Data.List.DropRight
import Mathlib.Data.List.Infix

/-! # The environment file

Settings are lines `NAME=value`, among comments and lines of any other kind.  An update
rewrites every line of a setting that it names, adds the settings that have no line, and
replaces the file as a whole.
-/

namespace CodexRemote.Runtime.EnvFile

open Foundations Discord

/-- What stands under the path: nothing, a text, or bytes that are not UTF-8. -/
abbrev File := MarkerFile

/-- The calls of the file system that can fail. -/
inductive EnvCall where
  | readFile
  | createParents
  | stageFile
  | copyAccessRules
  | setPermissions
  | writeStaged
  | syncStaged
  | persist
deriving DecidableEq, Repr

inductive EnvFileError where
  | read
  | invalidName
  | invalidValue (name : String)
  | io (call : EnvCall)
deriving DecidableEq, Repr

/-- What an error says, with the system's own words for it where it has any. -/
def EnvFileError.text (system : EnvFileError → String) : EnvFileError → String
  | read => "could not read environment file: " ++ system read
  | invalidName => "invalid environment setting name"
  | invalidValue name => name ++ " cannot contain a newline or NUL"
  | io .copyAccessRules =>
    "could not preserve environment file access rules: " ++ system (io .copyAccessRules)
  | io .persist => "could not publish environment file: " ++ system (io .persist)
  | io call => system (io call)

/-- A setting's name and its value. -/
abbrev EnvUpdate := String × String

/-! ## Reading -/

def byteOrderMark : Char := '\uFEFF'

def read : File → Except EnvFileError (List Char)
  | .absent => .ok []
  | .unreadable => .error .read
  | .text content => .ok (content.toList.dropWhile (· == byteOrderMark))

def isComment (line : List Char) : Bool := (trimStart line).head? == some '#'

/-- `trim_matches` -/
def trimMatches (c : Char) (text : List Char) : List Char :=
  (text.dropWhile (· == c)).rdropWhile (· == c)

/-- A value without the white space and the quotes around it. -/
def unquote (value : List Char) : List Char := trimMatches '\'' (trimMatches '"' (trim value))

def settingValue (name : String) (line : List Char) : Option String :=
  match splitOnce line with
  | none => none
  | some (key, value) =>
    if trim key.toList = name.toList then some (String.ofList (unquote value.toList)) else none

def get (text : List Char) (name : String) : Option String :=
  ((textLines text).filter (!isComment ·)).findSome? (settingValue name)

/-! ## Updating -/

def validName (name : String) : Bool :=
  !name.isEmpty && name.toList.all fun c => c.isAlphanum || c == '_'

def validValue (value : String) : Bool :=
  !value.toList.any fun c => c == '\n' || c == '\r' || c == '\x00'

def validateUpdate (update : EnvUpdate) : Except EnvFileError Unit :=
  if !validName update.1 then .error .invalidName
  else if !validValue update.2 then .error (.invalidValue update.1)
  else .ok ()

def settingLine (update : EnvUpdate) : List Char := update.1.toList ++ '=' :: update.2.toList

/-- The line sets a name. -/
def setsName (name : String) (line : List Char) : Bool :=
  !isComment line && (splitOnce line).any fun (key, _) => trim key.toList = name.toList

/-- One turn of the loop of `update`. -/
def applyUpdate (lines : List (List Char)) (update : EnvUpdate) : List (List Char) :=
  let replaced := lines.map fun line => if setsName update.1 line then settingLine update else line
  if lines.any (setsName update.1) then replaced else replaced ++ [settingLine update]

def newlineOf (text : List Char) : List Char :=
  if ['\r', '\n'] <:+: text then ['\r', '\n'] else ['\n']

/-- The lines joined by a newline, and a newline after the last. -/
def joinLines (newline : List Char) (lines : List (List Char)) : List Char :=
  List.intercalate newline lines ++ newline

def updatedText (text : List Char) (updates : List EnvUpdate) : List Char :=
  joinLines (newlineOf text) (updates.foldl applyUpdate (textLines text))

/-- The first of the calls that fails. -/
def firstFailing (fails : EnvCall → Bool) (calls : List EnvCall) : Except EnvFileError Unit :=
  match calls.find? fails with
  | some call => .error (.io call)
  | none => .ok ()

/-- The calls that put the new text in the file's place: the access rules and the permissions
are those of the file that is there. -/
def publishCalls (file : File) : List EnvCall :=
  [.createParents, .stageFile] ++
    (if file = .absent then [] else [.copyAccessRules, .setPermissions]) ++
    [.writeStaged, .syncStaged, .persist]

def update (fails : EnvCall → Bool) (file : File) (updates : List EnvUpdate) :
    Except EnvFileError Unit × File :=
  let result : Except EnvFileError (List Char) := do
    updates.forM validateUpdate
    let text ← if fails .readFile then .error .read else read file
    firstFailing fails (publishCalls file)
    return updatedText text updates
  match result with
  | .error error => (.error error, file)
  | .ok text => (.ok (), .text (String.ofList text))

end CodexRemote.Runtime.EnvFile

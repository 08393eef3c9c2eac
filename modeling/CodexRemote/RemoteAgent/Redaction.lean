import CodexRemote.Foundations.Regex

/-! # Redaction of texts that are shown

Patterns of credentials are masked one after another, each in the text that the ones before
it made, and then whatever looks opaque, but for what a file review has reason to show.
-/

namespace CodexRemote.RemoteAgent.Redaction

open Foundations Foundations.Regex

def mask : String := "[REDACTED]"

/-! ## Patterns -/

/-- The tables of Unicode that patterns use: `\s`, `\w`, and the letters that are the same but
for their case.  A newline has no case. -/
structure CharTables where
  space : Char → Bool
  word : Char → Bool
  alike : Char → Char → Bool
  newline_alone : ∀ c, alike '\n' c = true → c = '\n'

inductive Pattern where
  | pem
  | awsAccess
  | awsSecret
  | gcpKey
  | gcpJson
  | databaseUrl
  | connectionCredentials
  | urlUserinfo
  | querySecret
  | bearer
  | genericSecret
  | jsonSecret
  | highEntropy
deriving DecidableEq

section Syntax

def seqs : List Regex → Regex
  | [] => .empty
  | [r] => r
  | r :: rest => .seq r (seqs rest)

def alts : List Regex → Regex
  | [] => .char fun _ => False
  | [r] => r
  | r :: rest => .alt r (alts rest)

def literal (text : String) : Regex := seqs (text.toList.map fun c => .char (· = c))

/-- A class of ranges and of single characters. -/
def oneOf (ranges : List (Char × Char)) (others : String) (c : Char) : Prop :=
  c ∈ others.toList ∨ ∃ range ∈ ranges, range.1 ≤ c ∧ c ≤ range.2

def many (r : Regex) : Regex := .repeated r 0 none

def several (r : Regex) : Regex := .repeated r 1 none

def optional (r : Regex) : Regex := .repeated r 0 (some 1)

def upper : Char × Char := ('A', 'Z')
def lower : Char × Char := ('a', 'z')
def digit : Char × Char := ('0', '9')

/-- `(?i)`: a class holds what is alike to one of its characters.  No negated class of the
patterns holds letters. -/
def insensitive (tables : CharTables) : Regex → Regex
  | .empty => .empty
  | .char allowed => .char fun c => ∃ d, (c = d ∨ tables.alike c d = true) ∧ allowed d
  | .seq front back => .seq (insensitive tables front) (insensitive tables back)
  | .alt left right => .alt (insensitive tables left) (insensitive tables right)
  | .repeated body least most => .repeated (insensitive tables body) least most
  | .group index body => .group index (insensitive tables body)
  | .boundary => .boundary

variable (tables : CharTables)

def spaces : Regex := many (.char fun c => tables.space c = true)

/-- `api[_-]?key` and such -/
def joined (first second : String) : Regex :=
  seqs [literal first, optional (.char (oneOf [] "_-")), literal second]

/-- The names of secrets that two of the patterns share. -/
def secretNames : List Regex :=
  [joined "api" "key", literal "apikey", joined "access" "token", joined "auth" "token",
    literal "token", literal "secret", literal "password", literal "passwd", literal "pwd"]

/-- The expressions of the patterns, as they stand in the source. -/
def Pattern.regex : Pattern → Regex
  | pem => seqs [literal "-----BEGIN ", many (.char (oneOf [upper] " ")),
      literal "PRIVATE KEY-----", many (.char fun _ => True), literal "-----END ",
      many (.char (oneOf [upper] " ")), literal "PRIVATE KEY-----"]
  | awsAccess => seqs [.boundary, alts [literal "AKIA", literal "ASIA"],
      .repeated (.char (oneOf [digit, upper] "")) 16 (some 16), .boundary]
  | awsSecret => seqs [.boundary,
      .group 1 (seqs [alts [literal "aws_secret_access_key", literal "AWS_SECRET_ACCESS_KEY"],
        spaces tables, .char (oneOf [] ":="), spaces tables]),
      .group 2 (.repeated (.char (oneOf [upper, lower, digit] "/+=")) 40 (some 40)), .boundary]
  | gcpKey => seqs [.boundary, literal "AIza",
      .repeated (.char (oneOf [digit, upper, lower] "_-")) 35 (some 35), .boundary]
  | gcpJson => seqs [
      .group 1 (seqs [literal "\x22",
        alts [literal "private_key_id", literal "client_secret", literal "client_email"],
        literal "\x22", spaces tables, literal ":", spaces tables, literal "\x22"]),
      .group 2 (many (.char (· ≠ '\x22'))), .group 3 (literal "\x22")]
  | databaseUrl => insensitive tables <| seqs [.boundary,
      .group 1 (seqs [alts [literal "DATABASE_URL", literal "DB_URL", literal "POSTGRES_URL",
          literal "MYSQL_URL",
          seqs [literal "MONGO", optional (literal "DB"), literal "_URI"]],
        spaces tables, literal "=", spaces tables]),
      .group 2 (several (.char fun c => tables.space c = false))]
  | connectionCredentials => seqs [.boundary,
      .group 1 (seqs [.char (oneOf [upper, lower] ""),
        many (.char fun c => tables.word c = true ∨ oneOf [] "+.-" c), literal "://"]),
      .group 2 (several (.char fun c => ¬oneOf [] ":/" c ∧ tables.space c = false)), literal ":",
      .group 3 (several (.char fun c => ¬oneOf [] "@/" c ∧ tables.space c = false)), literal "@"]
  | urlUserinfo => insensitive tables <| seqs [.boundary,
      .group 1 (seqs [literal "http", optional (literal "s"), literal "://"]),
      several (.char fun c => ¬oneOf [] "/@" c ∧ tables.space c = false), literal "@"]
  | querySecret => insensitive tables <| seqs [
      .group 1 (seqs [.char (oneOf [] "?&"),
        alts [literal "access_token", literal "api_key", literal "apikey", literal "auth",
          literal "key", literal "password", literal "secret", literal "token"], literal "="]),
      .group 2 (several (.char fun c => ¬oneOf [] "&#" c ∧ tables.space c = false))]
  | bearer => insensitive tables <| seqs [.boundary,
      .group 1 (seqs [literal "Bearer", several (.char fun c => tables.space c = true)]),
      .group 2 (seqs [.repeated (.char (oneOf [upper, lower, digit] "-_.~+/")) 10 none,
        many (literal "=")])]
  | genericSecret => insensitive tables <| seqs [.boundary,
      .group 1 (seqs [alts secretNames, spaces tables, .char (oneOf [] ":="), spaces tables]),
      .group 2 (optional (.char (oneOf [] "\x27\x22"))),
      .group 3 (.repeated (.char (oneOf [upper, lower, digit] "-_./+=\x7b\x7d")) 8 none),
      optional (.char (oneOf [] "\x27\x22"))]
  | jsonSecret => insensitive tables <| seqs [
      .group 1 (seqs [literal "\x22",
        alts (secretNames ++ [literal "authorization", joined "private" "key"]),
        literal "\x22", spaces tables, literal ":", spaces tables, literal "\x22"]),
      .group 2 (many (alts [.char fun c => ¬oneOf [] "\x22\\" c,
        seqs [literal "\\", .char (· ≠ '\n')]])),
      .group 3 (literal "\x22")]
  | highEntropy => seqs [.boundary,
      .repeated (.char (oneOf [upper, lower, digit] "+/_-")) 32 none,
      .repeated (literal "=") 0 (some 2), .boundary]

end Syntax

/-- What the engine finds of each pattern in a text. -/
abbrev Engine (tables : CharTables) :=
  (pattern : Pattern) → (text : List Char) → Scan tables.word (pattern.regex tables) text

/-! ## Replacements -/

/-- A part of a replacement: a text, a group that takes part in every match, or one that may not. -/
inductive Part where
  | text (text : String)
  | capture (index : Nat)
  | optional (index : Nat)

def Part.fill (found : Found) : Part → Option (List Char)
  | .text t => some t.toList
  | .capture index => found.capture index
  | .optional index => some ((found.capture index).getD [])

/-- `format!` of captures; one that is missing where it is indexed is a panic. -/
def fill (parts : List Part) (found : Found) : Option (List Char) :=
  (parts.mapM (Part.fill found)).map List.flatten

/-- The replacements of `redact_credentials`, in their order. -/
def credentialMasks : List (Pattern × List Part) :=
  [(.pem, [.text mask]),
    (.awsAccess, [.text mask]),
    (.awsSecret, [.capture 1, .text mask]),
    (.gcpKey, [.text mask]),
    (.gcpJson, [.capture 1, .text mask, .capture 3]),
    (.databaseUrl, [.capture 1, .text mask]),
    (.connectionCredentials, [.capture 1, .capture 2, .text ":", .text mask, .text "@"]),
    (.urlUserinfo, [.capture 1, .text mask, .text "@"]),
    (.querySecret, [.capture 1, .text mask]),
    (.bearer, [.capture 1, .text mask]),
    (.genericSecret, [.capture 1, .optional 2, .text mask, .optional 2]),
    (.jsonSecret, [.capture 1, .text mask, .capture 3])]

/-- The newlines of a match that its replacement lost follow it. -/
def repaired (replacement : Found → Option (List Char)) (found : Found) : Option (List Char) :=
  (replacement found).map fun result =>
    result ++ List.replicate (found.text.count '\n' - result.count '\n') '\n'

section Passes

variable {tables : CharTables} (engine : Engine tables)

def replaceCaptures (pattern : Pattern) (replacement : Found → Option (List Char))
    (value : List Char) : Option (List Char) :=
  (engine pattern value).replaceAll (repaired replacement)

def redactCredentials (text : List Char) : Option (List Char) :=
  credentialMasks.foldlM
    (fun value entry => replaceCaptures engine entry.1 (fill entry.2) value) text

/-- Offsets in bytes -/
structure Range where
  start : Nat
  stop : Nat
deriving DecidableEq

def byteOffset (text : List Char) : Nat := (text.map Char.utf8Size).sum

/-- The match lies in a range that may be shown. -/
def contextual (allowed : List Range) (found : Found) : Bool :=
  let start := byteOffset found.before
  let stop := start + byteOffset found.text
  (allowed.drop (allowed.takeWhile (·.stop ≤ start)).length).head?.any fun range =>
    range.start ≤ start && stop ≤ range.stop

/-- How many of digits, capitals and small letters a token has. -/
def variety (token : List Char) : Nat :=
  (token.any Char.isDigit).toNat + (token.any Char.isUpper).toNat + (token.any Char.isLower).toNat

def opaqueMask (allowed : List Range) (found : Found) : Option (List Char) :=
  let token := found.text
  if contextual allowed found || variety token < 2 ||
      (token.contains '/' && !token.any Char.isDigit) then some token
  else some mask.toList

def redactOpaque (value : List Char) (allowed : List Range) : Option (List Char) :=
  replaceCaptures engine .highEntropy (opaqueMask allowed) value

def redact (text : List Char) : Option (List Char) := do
  let value ← redactCredentials engine text
  redactOpaque engine value []

/-- `redact_file`, with the ranges that the review of a file may show -/
def redactFile (allowedRanges : List Char → String → List Range) (text : List Char)
    (path : String) : Option (List Char) := do
  let value ← redactCredentials engine text
  redactOpaque engine value (allowedRanges value path)

end Passes

end CodexRemote.RemoteAgent.Redaction

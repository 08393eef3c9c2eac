import CodexRemote.Foundations.Sizes

/-! # The diff of a repository

The patch of the tracked files and the diffs of the untracked ones are strung together up to a
limit of bytes.  Texts are lists of Unicode scalars.
-/

namespace CodexRemote.RemoteAgent

open Foundations

def maxGitOutput : Nat := 200000

/-- `str::len` -/
def textLen (text : List Char) : Nat := Sizes.total Char.utf8Size text

/-- `str::floor_char_boundary` -/
def floorCharBoundary (text : List Char) (index : Nat) : Nat :=
  Sizes.floorBoundary Char.utf8Size text index

/-- The slice of a text up to a boundary -/
def sliceTo (text : List Char) (stop : Nat) : List Char := Sizes.cut Char.utf8Size text stop

/-- The patch so far, and whether something of it was left out -/
structure BoundedPatch where
  output : List Char
  truncated : Bool
deriving DecidableEq, Repr

def appendBounded (patch : BoundedPatch) (value : List Char) : BoundedPatch :=
  let remaining := maxGitOutput - textLen patch.output
  let stop := floorCharBoundary value (min remaining (textLen value))
  ⟨patch.output ++ sliceTo value stop, patch.truncated || decide (stop < textLen value)⟩

/-- The fragments that are appended one after another -/
def appendAll (truncated : Bool) (values : List (List Char)) : BoundedPatch :=
  values.foldl appendBounded ⟨[], truncated⟩

structure GitOutput where
  stdout : List Char
  truncated : Bool

/-- What the reading of an untracked file gives -/
inductive UntrackedFile where
  | skipped
  /-- no UTF-8, or a text with a NUL -/
  | binary (relativePath : List Char)
  /-- with the unified diff against the empty file -/
  | text (relativePath fragment : List Char)

def UntrackedFile.fragment : UntrackedFile → Option (List Char)
  | .skipped => none
  | .binary relativePath => some ("Binary untracked file: ".toList ++ relativePath ++ ['\n'])
  | .text _ fragment => some fragment

/-- The loop of `append_untracked` -/
def appendUntracked (patch : BoundedPatch) : List UntrackedFile → BoundedPatch
  | [] => patch
  | file :: files =>
    match file.fragment with
    | none => appendUntracked patch files
    | some value => appendUntracked (appendBounded patch value) files

/-- The patch of `repo_diff`, for the patch of the tracked files that there are -/
def repoPatch (tracked : Option GitOutput) (untracked : List UntrackedFile) : BoundedPatch :=
  match tracked with
  | none => appendUntracked ⟨[], false⟩ untracked
  | some git => appendUntracked (appendBounded ⟨[], git.truncated⟩ git.stdout) untracked

end CodexRemote.RemoteAgent

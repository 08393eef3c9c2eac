import CodexRemote.Discord.Text
import CodexRemote.Foundations.Encodings
import CodexRemote.Foundations.Lines

/-! # Session files

A session file holds one JSON value a line.  It is read whole, or from an offset on.
-/

namespace CodexRemote.CodexState

open Foundations Discord

variable {ε : Type}

/-- What the text of a line parses to, when it is JSON: an object is an event. -/
inductive LineValue (ε : Type) where
  | object (event : ε)
  | other
deriving DecidableEq, Repr

def LineValue.events : LineValue ε → List ε
  | .object event => [event]
  | .other => []

structure SessionTail (ε : Type) where
  events : List ε
  nextOffset : Nat
deriving DecidableEq, Repr

/-- Both are `CodexStateError::Io`. -/
inductive CodexStateError where
  | notFound
  | invalidData
deriving DecidableEq, Repr

def newline : UInt8 := 10

/-- The loop of `read_new_session_events`, over the lines from the position on -/
def readEvents (parse : List Char → Option (LineValue ε)) (limit : Nat) :
    List ε → Nat → List (List UInt8) → Except CodexStateError (SessionTail ε)
  | events, position, [] => .ok ⟨events, position⟩
  | events, position, raw :: rest =>
    match utf8Text raw with
    | none => .error .invalidData
    | some text =>
      let line := trim text.toList
      if line = [] then readEvents parse limit events (position + raw.length) rest
      else
        match parse line with
        | none => .ok ⟨events, position⟩
        | some value =>
          let events := events ++ value.events
          if 0 < limit && limit ≤ events.length then .ok ⟨events, position + raw.length⟩
          else readEvents parse limit events (position + raw.length) rest

/-- The file is none when there is no such file. -/
def readNewSessionEvents (parse : List Char → Option (LineValue ε)) (file : Option (List UInt8))
    (startOffset : Nat) (maxEvents : Option Nat) : Except CodexStateError (SessionTail ε) :=
  match file with
  | none => .ok ⟨[], startOffset⟩
  | some bytes =>
    readEvents parse (maxEvents.getD 0) [] startOffset (lines newline (bytes.drop startOffset))

/-- A line of `BufRead::lines` is without its end. -/
def stripEnd (text : List Char) : List Char :=
  if text.getLast? = some '\n' then
    if text.dropLast.getLast? = some '\r' then text.dropLast.dropLast else text.dropLast
  else text

/-- The loop of `iter_session_events` -/
def iterEvents (parse : List Char → Option (LineValue ε)) :
    List ε → List (List UInt8) → Except CodexStateError (List ε)
  | events, [] => .ok events
  | events, raw :: rest =>
    match utf8Text raw with
    | none => .error .invalidData
    | some text =>
      let line := trim (stripEnd text.toList)
      if line = [] then iterEvents parse events rest
      else
        match parse line with
        | none => iterEvents parse events rest
        | some value => iterEvents parse (events ++ value.events) rest

def iterSessionEvents (parse : List Char → Option (LineValue ε)) (file : Option (List UInt8)) :
    Except CodexStateError (List ε) :=
  match file with
  | none => .error .notFound
  | some bytes => iterEvents parse [] (lines newline bytes)

end CodexRemote.CodexState

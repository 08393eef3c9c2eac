import CodexRemote.Runtime.Ready
import CodexRemote.Store.CompletionWork

/-! # Discovery of completion work

The scheduler scans every source of work a page at a time and offers what it finds to the ready
queues.  A round works on drafts of its scans and of the queues.
-/

namespace CodexRemote.Runtime

open Store (RoundAnswers ReadRound StoreError)

variable {ε : Type}

def Source.ofStore : Store.Source → Source
  | .observed => .observed
  | .queue => .queue
  | .asyncOrphan => .asyncOrphan
  | .commentary => .commentary
  | .goal => .goal
  | .startFailure => .startFailure
  | .question => .question
  | .final => .final

/-- An entry, as the queues hold it. -/
def hint (entry : Store.Entry Rat) : Entry where
  source := .ofStore entry.source
  id := entry.id
  target := entry.target
  turn := entry.turn
  channel := entry.channel
  bytes := entry.bytes
  position := (entry.position.stamp, entry.position.ordinal, entry.position.id)

structure Scan where
  source : Store.Source
  cursor : Store.Cursor Rat
  /-- when a finished pass may start again -/
  next : Rat
  wake : Bool
  pending : List (Store.Entry Rat)

structure PageMetadata where
  oversizedIdentity : Bool
  heldReceiptHeads : Nat
  /-- `DeferredOrphans`: hints that were judged unprovable, by their position -/
  deferred : List (Nat × Entry)
deriving DecidableEq, Repr

/-- The loop of `offer_pending`; it returns true when nothing is left. -/
def offerPending (active : String → Bool) :
    List (Store.Entry Rat) → Ready ε → List (Store.Entry Rat) × Ready ε
  | [], ready => ([], ready)
  | entry :: rest, ready =>
    if ready.len < readyCap then offerPending active rest (ready.durable (hint entry) active)
    else (entry :: rest, ready)

/-- The hints from this position on that equal a negative entry -/
def deferredFrom (negatives : List (Store.Entry Rat)) (firstNew : Nat) (state : List (StateWork ε)) :
    List (Nat × Entry) :=
  (state.zipIdx.drop firstNew).filterMap fun (item, index) =>
    match item with
    | .durable entry => if negatives.any (hint · == entry) then some (index, entry) else none
    | _ => none

/-- The entries of a page of orphans that are judged unprovable -/
def negativesOf (answers : RoundAnswers Rat) (round : ReadRound) (source : Store.Source)
    (entries : List (Store.Entry Rat)) : Except StoreError (List (Store.Entry Rat)) × ReadRound :=
  if source = .asyncOrphan then
    let (judged, round) := round.unprovableOrphans answers entries
    (judged.map fun indices => indices.filterMap (entries[·]?), round)
  else (.ok [], round)

/-- Seconds between two passes -/
def Scan.pause (scan : Scan) : Rat :=
  if scan.source = .queue || scan.source = .asyncOrphan then 30 else 1

def Scan.discover (answers : RoundAnswers Rat) (active : String → Bool) (now : Rat) (scan : Scan)
    (ready : Ready ε) (round : ReadRound) :
    Except StoreError (Option PageMetadata) × Scan × Ready ε × ReadRound :=
  let (pending, ready) := offerPending active scan.pending ready
  let scan := { scan with pending := pending }
  if !pending.isEmpty then (.ok none, scan, ready, round)
  else
    let restart := scan.cursor.finished
    if restart && !scan.wake && now < scan.next then (.ok none, scan, ready, round)
    else
      let cursor := if restart then .start else scan.cursor
      match round.page answers scan.source cursor with
      | (.error error, round) => (.error error, scan, ready, round)
      | (.ok read, round) =>
        match negativesOf answers round scan.source read.page.entries with
        | (.error error, round) => (.error error, scan, ready, round)
        | (.ok negatives, round) =>
          let firstNew := ready.state.length
          let (pending, ready) := offerPending active read.page.entries ready
          (.ok (some
            { oversizedIdentity := read.page.oversizedIdentity
              heldReceiptHeads := read.page.heldReceiptHeads
              deferred := deferredFrom negatives firstNew ready.state }),
            { scan with
              cursor := read.cursor
              wake := if restart then false else scan.wake
              pending := pending
              next := if read.cursor.finished then now + scan.pause else scan.next },
            ready, round)

/-- `DeferredOrphans::discard` -/
def discards (deferred : List (Nat × Entry)) (item : StateWork ε) (index : Nat) : Bool :=
  match item with
  | .durable entry => entry.source == .asyncOrphan &&
      deferred.any fun (position, original) => position == index && original == entry
  | _ => false

def discardOrphans (deferred : List (Nat × Entry)) (ready : Ready ε) : Ready ε :=
  { ready with
    state := (ready.state.zipIdx.filter fun (item, index) => !discards deferred item index).map
      Prod.fst }

/-- The lengths of the queues when the draft began -/
structure ReadyDraft where
  stateLen : Nat
  httpLen : Nat

def ReadyDraft.of (ready : Ready ε) : ReadyDraft := ⟨ready.state.length, ready.http.length⟩

/-- A draft that is dropped without being published truncates the queues. -/
def ReadyDraft.drop (draft : ReadyDraft) (ready : Ready ε) : Ready ε :=
  ⟨ready.state.take draft.stateLen, ready.http.take draft.httpLen⟩

abbrev DiscoveryResult := Store.Source × Except StoreError (Option PageMetadata)

/-- What the callback of `read_metadata_round` works on. -/
structure RoundDraft (ε : Type) where
  staged : List Scan
  ready : Ready ε
  reports : List DiscoveryResult

/-- One turn of the loop over the sources -/
def visit (answers : RoundAnswers Rat) (active : String → Bool) (now : Nat → Rat) (rotation : Nat)
    (state : RoundDraft ε × ReadRound) (offset : Nat) : RoundDraft ε × ReadRound :=
  let (draft, round) := state
  let index := (rotation + offset) % draft.staged.length
  match draft.staged[index]? with
  | none => (draft, round)
  | some original =>
    match original.discover answers active (now offset) draft.ready round with
    | (.ok report, candidate, ready, round) =>
      ({ staged := draft.staged.set index candidate
         ready := ready
         reports := draft.reports ++ [(candidate.source, .ok report)] }, round)
    | (.error error, _, ready, round) =>
      ({ draft with
         ready := (ReadyDraft.of draft.ready).drop ready
         reports := draft.reports ++ [(original.source, .error error)] }, round)

/-- What a round may change. -/
structure Discovery (ε : Type) where
  scans : List Scan
  next : Nat
  ready : Ready ε

/-- `read_metadata_round`, where the clock is read once for each source. -/
def readMetadataRound (answers : RoundAnswers Rat) (active : String → Bool) (now : Nat → Rat)
    (before : Discovery ε) : Except StoreError (List DiscoveryResult) × Discovery ε :=
  if before.scans.isEmpty then (.ok [], before)
  else
    let rotation := before.next % before.scans.length
    let loop := fun round =>
      (List.range before.scans.length).foldl (visit answers active now rotation)
        (⟨before.scans, before.ready, []⟩, round)
    let ready := (loop .start).1.ready
    match Store.readRound answers loop with
    | .error error => (.error error, { before with ready := (ReadyDraft.of before.ready).drop ready })
    | .ok draft =>
      (.ok draft.reports,
        { scans := draft.staged
          next := (rotation + 1) % before.scans.length
          ready := draft.ready })

/-- The orphans that `discover_round` hands to `DeferredOrphans::discard` -/
def deferredOf (reports : List DiscoveryResult) : List (Nat × Entry) :=
  reports.flatMap fun (_, report) =>
    match report with
    | .ok (some page) => page.deferred
    | _ => []

end CodexRemote.Runtime

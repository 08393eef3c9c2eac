import CodexRemote.Foundations.Spans
import CodexRemote.Store.AsyncQuestion.Questions
import CodexRemote.Store.IdleRelease
import CodexRemote.Store.Ingress.Stop

/-! # The observation ledger

Which events of an event source were seen, and which of these are certified.  Sequences are
recorded in ranges; a gap is a range with the spans of it that are certified.
-/

namespace CodexRemote.Store.ObservationGap

open Foundations

def maxSpans : Nat := 4096

structure Scope where
  ownerId : String
  generation : Int
deriving DecidableEq, Repr

/-- A row of `cdr_observation_streams` -/
structure Stream where
  scope : Scope
  active : Bool
  seenSeq : Int
  scanAfter : Int
  cycleUpper : Int
  isUnsealed : Bool
deriving DecidableEq, Repr

structure Gap where
  id : Int
  scope : Scope
  first : Int
  last : Int
  cursor : Int
  revision : Int
  verified : List Span
deriving DecidableEq, Repr

inductive GapState where
  | opened
  | unresolved
  | verified
deriving DecidableEq, Repr

/-- A row of `cdr_observation_gaps` -/
structure GapRow where
  gap : Gap
  state : GapState
  detail : String
deriving DecidableEq, Repr

def GapRow.id (row : GapRow) : Int := row.gap.id

/-- The two tables, with the counter of the gap ids -/
structure Ledger where
  streams : Table Stream.scope
  gaps : Table GapRow.id
  lastGap : Int
  bounded : ∀ row ∈ gaps.rows, row.id ≤ lastGap

def Ledger.empty : Ledger := ⟨.empty, .empty, 0, List.forall_mem_nil _⟩

def invalid (message : String) : StoreError := .integrity message

/-! ## Gaps -/

/-- `i64::saturating_add(1)` -/
def saturatingAfter (x : Int) : Int := if x < i64Max then x + 1 else x

def Gap.containsVerified (gap : Gap) (sequence : Int) : Bool :=
  gap.verified.any fun span => span.first ≤ sequence && sequence ≤ span.last

def Gap.add (gap : Gap) (sequence : Int) : Except StoreError Gap :=
  if sequence < gap.first || sequence > gap.last then .error (invalid "proof outside range")
  else
    let merged := Span.insert saturatingAfter gap.verified sequence
    if merged.length > maxSpans then .error (invalid "observation proof span budget exhausted")
    else .ok { gap with verified := merged }

def Gap.range (gap : Gap) : Span := ⟨gap.first, gap.last⟩

def Gap.complete (gap : Gap) : Bool := gap.verified = [gap.range]

namespace Ledger

def active (ledger : Ledger) (scope : Scope) : Bool :=
  ledger.streams.contains fun stream => stream.scope = scope && stream.active

/-- An insert, which gives the row the next id -/
def append (ledger : Ledger) (row : GapRow) : Ledger where
  streams := ledger.streams
  gaps := ledger.gaps.insertOrIgnore { row with gap := { row.gap with id := ledger.lastGap + 1 } }
  lastGap := ledger.lastGap + 1
  bounded := by
    intro other there
    simp only [Table.insertOrIgnore] at there
    split at there
    · exact Int.le_add_one (ledger.bounded other there)
    · obtain older | new := List.mem_append.1 there
      · exact Int.le_add_one (ledger.bounded other older)
      · rw [List.mem_singleton.1 new]
        exact le_refl _

/-- An update of the stream of a scope -/
def updateStream (ledger : Ledger) (scope : Scope) (assign : Stream → Stream)
    (keeps : ∀ stream, (assign stream).scope = stream.scope) : Ledger :=
  { ledger with streams := ledger.streams.update (·.scope = scope) assign keeps }

/-- An update of the gaps that leaves their ids alone -/
def updateGaps (ledger : Ledger) (selected : GapRow → Bool) (assign : GapRow → GapRow)
    (keeps : ∀ row, (assign row).id = row.id) : Ledger where
  streams := ledger.streams
  gaps := ledger.gaps.update selected assign keeps
  lastGap := ledger.lastGap
  bounded := by
    intro row there
    obtain ⟨old, before, same⟩ := List.mem_map.1 there
    have bound := ledger.bounded old before
    rw [← same]
    split
    · rw [keeps]
      exact bound
    · exact bound

end Ledger

/-- The first of the two unique columns is 0: the sequences that were lost are not known. -/
def GapRow.unattributed (row : GapRow) (scope : Scope) : Bool :=
  row.gap.scope = scope && row.gap.first = 0

/-- A gap of sequence 0, which `INSERT OR IGNORE` adds when the scope has none -/
def insertUnknown (detail : String) (ledger : Ledger) (scope : Scope) : Ledger :=
  if ledger.gaps.contains (·.unattributed scope) then ledger
  else ledger.append ⟨⟨0, scope, 0, 0, 0, 0, []⟩, .unresolved, detail⟩

def unknownSaved (ledger : Ledger) (scope : Scope) : Bool :=
  ledger.gaps.contains fun row => row.gap.scope = scope && row.gap.first = 0 && row.gap.last = 0 &&
    row.state = .unresolved

/-! ## Streams -/

def previousTail : String := "previous unsealed stream; missing tail is not reconstructed"

/-- The unsealed streams of other scopes -/
def othersUnsealed (ledger : Ledger) (scope : Scope) : List Scope :=
  (ledger.streams.select fun stream => stream.isUnsealed && stream.scope ≠ scope).map Stream.scope

/-- The body of `activate` for a scope that is not stored -/
def activateNew (scope : Scope) (ledger : Ledger) : Except StoreError Ledger :=
  let own := ledger.streams.select fun stream => stream.scope.ownerId = scope.ownerId
  if own ≠ [] && (own.all (!·.active) || own.any fun stream => scope.generation ≤ stream.scope.generation)
    then .error (invalid "retired owner or stale observation generation")
  else
    let held := (othersUnsealed ledger scope).foldl (insertUnknown previousTail) ledger
    if (othersUnsealed held scope).any (!unknownSaved held ·) then
      .error (invalid "previous unsealed observation tail was not preserved")
    else
      .ok { held with
        streams := (held.streams.update (·.scope ≠ scope) (fun stream => { stream with active := false })
          fun _ => rfl).put ⟨scope, true, 0, 0, 0, true⟩ }

def activateBody (scope : Scope) (ledger : Ledger) : Except StoreError (Unit × Ledger) :=
  if scope.ownerId = "" || scope.generation < 0 then .error (invalid "invalid observation scope")
  else
    match ledger.streams.find scope with
    | some stream =>
      if !stream.active then .error (invalid "retired observation scope cannot reactivate")
      else .ok ((), ledger)
    | none => (activateNew scope ledger).map fun next => ((), next)

def discoverBody (scope : Scope) (upper : Int) (ledger : Ledger) :
    Except StoreError (Unit × Ledger) :=
  if !(0 ≤ upper && upper < i64Max) then .error (invalid "source sequence exhausted")
  else if !ledger.active scope then .error (invalid "observation scope is not active")
  else
    match ledger.streams.find scope with
    | none => .error (.database "Query returned no rows")
    | some stream =>
      let seen := stream.seenSeq
      -- an older snapshot of another consumer is included already
      if upper ≤ seen then .ok ((), ledger)
      else
        let inserted := ledger.append
          ⟨⟨0, scope, seen + 1, upper, seen, 0, []⟩, .opened, ""⟩
        let id := inserted.lastGap
        let checkpoint : Stream → Bool := fun stream =>
          stream.scope = scope && stream.active && stream.seenSeq = seen
        if inserted.streams.count checkpoint ≠ 1 then
          .error (invalid "observation checkpoint CAS lost")
        else
          let advanced := { inserted with
            streams := inserted.streams.update checkpoint
              (fun stream => { stream with seenSeq := upper }) fun _ => rfl }
          let saved := (advanced.gaps.find id).any fun row =>
            row.gap = ⟨id, scope, seen + 1, upper, seen, 0, []⟩ && row.state = .opened &&
              (advanced.streams.find scope).any fun stream =>
                stream.active && stream.seenSeq = upper
          if !saved then
            .error (invalid "observation range/checkpoint identity was not preserved")
          else .ok ((), advanced)

def markUnknownBody (scope : Scope) (detail : String) (ledger : Ledger) :
    Except StoreError (Unit × Ledger) :=
  let marked := insertUnknown (String.ofList (detail.toList.take 512)) ledger scope
  if !unknownSaved marked scope then
    .error (invalid "unattributed observation gap was not preserved")
  else .ok ((), marked)

/-! ## Scanning -/

/-- `ORDER BY gap_id LIMIT 1` -/
def nextOpen (ledger : Ledger) (scope : Scope) (after upper : Int) : Option GapRow :=
  ((ledger.gaps.select fun row => row.gap.scope = scope && row.state = .opened && row.gap.first > 0 &&
    after < row.id && row.id ≤ upper).mergeSort fun a b => a.id ≤ b.id).head?

/-- `COALESCE(MAX(gap_id),0)` of the scope -/
def lastOf (ledger : Ledger) (scope : Scope) : Int :=
  ((ledger.gaps.select (·.gap.scope = scope)).map GapRow.id).max?.getD 0

/-- The gap to scan, with where its cycle stands: a cycle that is over begins again, once. -/
def scan (ledger : Ledger) (scope : Scope) (after upper : Int) : Option GapRow × Int × Int :=
  match nextOpen ledger scope after upper with
  | some row => (some row, after, upper)
  | none =>
    match nextOpen ledger scope 0 (lastOf ledger scope) with
    | some row => (some row, 0, lastOf ledger scope)
    | none => (none, 0, lastOf ledger scope)

/-- A gap that was scanned to its end is scanned again from its start. -/
def GapRow.restarted (row : GapRow) : GapRow :=
  { row with gap := { row.gap with cursor := row.gap.first - 1, revision := row.gap.revision + 1 } }

def nextBody (scope : Scope) (ledger : Ledger) : Except StoreError (Option Gap × Ledger) :=
  if !ledger.active scope then .ok (none, ledger)
  else
    match ledger.streams.find scope with
    | none => .error (.database "Query returned no rows")
    | some stream =>
      let (found, after, upper) := scan ledger scope stream.scanAfter stream.cycleUpper
      let scanned := ledger.updateStream scope
        (fun stream => { stream with scanAfter := after, cycleUpper := upper }) fun _ => rfl
      match found with
      | none => .ok (none, scanned)
      | some row =>
        if row.gap.cursor = row.gap.last then
          .ok (some row.restarted.gap,
            scanned.updateGaps (·.id = row.id) GapRow.restarted fun _ => rfl)
        else .ok (some row.gap, scanned)

/-! ## Evidence of effects -/

inductive Effect where
  | noRequiredStore
  | unconfirmed
  | started (thread turn : String)
  | terminal (thread turn payload : String)
  | final (thread turn content : String)
  | question (id thread turn item body : String)
deriving DecidableEq, Repr

/-- A row of `codex_observed_final_answers` -/
structure FinalRow where
  threadId : String
  turnId : String
  generation : Int
  content : String
deriving DecidableEq, Repr

/-- The tables in which effects are looked up -/
structure Evidence where
  jobs : List QueueRow
  completions : List CompletionRow
  finals : List FinalRow
  questions : List AsyncQuestion.QuestionRow
  inbox : List AsyncQuestion.InboxRow
  releases : List IdleRelease.Intent
  /-- `codex_session_mirror_events`: digest and thread -/
  sessionEvents : List (String × String)

def turnOriginMarker (thread turn : String) : String := s!"discord-origin:v1:{thread}:{turn}"

/-- The turn is over and its idle release is recorded. -/
def completed (evidence : Evidence) (scope : Scope) (thread turn : String) : Bool :=
  evidence.releases.any fun intent => intent.ownerId = scope.ownerId &&
    intent.generation = scope.generation && intent.threadId = thread && intent.turnId = turn &&
    intent.jobId ≠ "" && evidence.sessionEvents.contains (turnOriginMarker thread turn, thread)

def running (thread : String) (row : QueueRow) : Bool :=
  row.targetThreadId = thread && row.state = .running

/-- `state NOT IN ('expired','submitted','rejected','closed_unknown')` -/
def unsettled (state : AsyncQuestion.QuestionState) : Bool :=
  !([.expired, .submitted, .rejected, .closedUnknown].contains state)

/-- The job that an observation was pinned to still runs it. -/
def pinned (row : AsyncQuestion.InboxRow) (job : QueueRow) : Bool :=
  job.jobId = row.candidateJobId && job.targetThreadId = row.threadId &&
    job.channelId = row.candidateChannelId && job.ownerUserId = some row.candidateOwnerId &&
    some job.appServerGeneration = row.candidateGeneration &&
    job.executionGeneration = row.candidateExecutionGeneration &&
    some job.attemptCount = row.candidateAttemptCount && job.state = .running

def matchesEffect (evidence : Evidence) (scope : Scope) : Effect → Bool
  | .noRequiredStore => true
  | .unconfirmed => false
  | .started thread turn => completed evidence scope thread turn ||
      (evidence.jobs.countP (running thread) = 1 &&
        (evidence.jobs.any fun row => running thread row && row.turnId = some turn &&
          row.turnObservationGeneration.getD row.appServerGeneration = scope.generation) &&
        !evidence.questions.any fun row => row.runtimeId = scope.ownerId &&
          row.generation = scope.generation && row.threadId = thread && row.turnId ≠ turn &&
          unsettled row.state)
  | .terminal thread turn payload => evidence.completions.any fun row => row.threadId = thread &&
      row.turnId = turn && row.generation = scope.generation &&
      row.residentOwner = some scope.ownerId && row.payload = payload
  | .final thread turn content => evidence.finals.any fun row => row.threadId = thread &&
      row.turnId = turn && row.generation = scope.generation && row.content = content
  | .question id thread turn item body =>
    (evidence.questions.any fun row => row.id = id && row.runtimeId = scope.ownerId &&
      row.generation = scope.generation && row.threadId = thread && row.turnId = turn &&
      row.itemId = item && row.body = body && row.ownerConfirmed) ||
    evidence.inbox.any fun row => row.id = id && row.runtimeId = scope.ownerId &&
      row.generation = scope.generation && row.threadId = thread && row.turnId = turn &&
      row.itemId = item && row.body = body && row.state = .waiting && evidence.jobs.any (pinned row)

/-! ## Proofs -/

/-- The row that a compare-and-set of a gap names -/
def sameRevision (expected : Gap) (row : GapRow) : Bool :=
  row.id = expected.id && row.gap.scope = expected.scope && row.gap.first = expected.first &&
    row.gap.last = expected.last && row.gap.cursor = expected.cursor &&
    row.gap.revision = expected.revision

def GapRow.saved (next : Gap) (row : GapRow) : GapRow :=
  { row with
    gap := { row.gap with
      cursor := next.cursor
      revision := row.gap.revision + 1
      verified := next.verified }
    state := if next.complete then .verified else .opened }

def save (expected next : Gap) (ledger : Ledger) : Option Ledger :=
  if ledger.gaps.count (sameRevision expected) = 1 then
    some (ledger.updateGaps (sameRevision expected) (GapRow.saved next) fun _ => rfl)
  else none

/-- The range that a sequence was recorded in -/
def rangeOf (ledger : Ledger) (scope : Scope) (sequence : Int) : Option GapRow :=
  ledger.gaps.rows.find? fun row => row.gap.scope = scope && row.gap.first > 0 &&
    row.gap.first ≤ sequence && sequence ≤ row.gap.last

def certifyBody (scope : Scope) (sequence : Int) (effects : List Effect) (evidence : Evidence)
    (ledger : Ledger) : Except StoreError (Bool × Ledger) :=
  if !ledger.active scope || effects.isEmpty then .ok (false, ledger)
  else
    match rangeOf ledger scope sequence with
    | none => .ok (false, ledger)
    | some current =>
      if !effects.all (matchesEffect evidence scope) then .ok (false, ledger)
      else if current.gap.containsVerified sequence then .ok (true, ledger)
      else do
        let updated ← current.gap.add sequence
        match save current.gap updated ledger with
        | none => .error (invalid "observation proof CAS lost")
        | some next => .ok (true, next)

def finishPageBody (expected : Gap) (through : Int) (ledger : Ledger) :
    Except StoreError (Bool × Ledger) :=
  if through ≤ expected.cursor || through > expected.last then
    .error (invalid "invalid observation scan progress")
  else if !ledger.active expected.scope then .ok (false, ledger)
  else
    match ledger.gaps.find expected.id with
    | none => .ok (false, ledger)
    | some current =>
      if current.gap ≠ expected then .ok (false, ledger)
      else
        let updated := { current.gap with cursor := through }
        match save current.gap updated ledger with
        | none => .ok (false, ledger)
        | some next =>
          if through = current.gap.last || updated.complete then
            .ok (true, next.updateStream current.gap.scope
              (fun stream => { stream with scanAfter := current.id }) fun _ => rfl)
          else .ok (true, next)

/-! ## Coverage -/

/-- The loop over the verified ranges: each follows the one before and is complete. -/
def coversFrom (seen : Int) : Int → List Gap → Bool
  | expected, [] => expected = seen + 1
  | expected, gap :: rest =>
    !(gap.first ≠ expected || gap.last > seen || !gap.complete) &&
      coversFrom seen (gap.last + 1) rest

def scopeVerifiedIn (scope : Scope) (through : Int) (ledger : Ledger) : Bool :=
  match (ledger.streams.find scope).filter Stream.active with
  | none => false
  | some stream =>
    let seen := stream.seenSeq
    if through < 0 || through > seen || !(0 ≤ seen && seen < i64Max) then false
    else if othersUnsealed ledger scope ≠ [] then false
    else if ledger.gaps.contains (·.state ≠ .verified) then false
    else
      coversFrom seen 1 (((ledger.gaps.select fun row => row.gap.scope = scope &&
        row.gap.first > 0 && row.state = .verified).mergeSort fun a b =>
          a.gap.first < b.gap.first || (a.gap.first = b.gap.first && a.id ≤ b.id)).map GapRow.gap)

/-! ## Calls -/

def activate (scope : Scope) : Ledger → Except StoreError Unit × Ledger :=
  commit (activateBody scope)

def discover (scope : Scope) (upper : Int) : Ledger → Except StoreError Unit × Ledger :=
  commit (discoverBody scope upper)

def markUnknown (scope : Scope) (detail : String) : Ledger → Except StoreError Unit × Ledger :=
  commit (markUnknownBody scope detail)

def next (scope : Scope) : Ledger → Except StoreError (Option Gap) × Ledger :=
  commit (nextBody scope)

def certify (scope : Scope) (sequence : Int) (effects : List Effect) (evidence : Evidence) :
    Ledger → Except StoreError Bool × Ledger :=
  commit (certifyBody scope sequence effects evidence)

def finishPage (expected : Gap) (through : Int) : Ledger → Except StoreError Bool × Ledger :=
  commit (finishPageBody expected through)

def scopeVerified (scope : Scope) (through : Int) (ledger : Ledger) : Bool :=
  scopeVerifiedIn scope through ledger

end CodexRemote.Store.ObservationGap

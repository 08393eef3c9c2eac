import CodexRemote.Foundations.Counters
import CodexRemote.Store.MutationAttempt

/-! # Stop revisions

One clock orders the stops of all targets; an origin holds the revision at which a request was
admitted.
-/

namespace CodexRemote.Store

open Foundations

structure StopScope where
  target : String
  channel : Int
  owner : Int
deriving DecidableEq, Repr

structure StopReceipt where
  jobs : List String
  ingresses : List String
deriving DecidableEq, Repr

namespace StopRevision

/-- `cdr_stop_revisions` -/
structure LatestStop where
  targetThreadId : String
  revision : Int
  operationId : String
deriving DecidableEq, Repr

/-- `cdr_stop_revision_receipts`, and the record of an advance, which is its receipt. -/
structure RevisionReceipt where
  operationId : String
  targetThreadId : String
  revision : Int
  scopeJson : Json

structure StopRevisions where
  /-- the row of `cdr_stop_clock` -/
  clock : Option Int
  latest : Table LatestStop.targetThreadId
  receipts : Table RevisionReceipt.operationId

/-- The tables as they are created. -/
def StopRevisions.start : StopRevisions := ⟨some 0, .empty, .empty⟩

def refused : StoreError :=
  .integrity "original RPC predates stop or stop revision evidence differs; no dispatch"

/-- `COALESCE(max(revision),0)` of the receipts -/
def greatest (stops : StopRevisions) : Int := (stops.receipts.rows.map (·.revision)).max?.getD 0

def currentIn (stops : StopRevisions) : Except StoreError Int :=
  match stops.clock with
  | none => .error refused
  | some current =>
    if current < 0 || current ≠ greatest stops then .error refused else .ok current

/-- The last receipt of a target. -/
def history (target : String) (stops : StopRevisions) : Option (Int × String) :=
  ((stops.receipts.select (·.targetThreadId = target)).mergeSort
    fun a b => b.revision ≤ a.revision).head?.map fun receipt => (receipt.revision, receipt.operationId)

def targetIn (target : String) (stops : StopRevisions) : Except StoreError Int :=
  let latest := (stops.latest.find target).map fun latest => (latest.revision, latest.operationId)
  if latest ≠ history target stops then .error refused
  else .ok ((latest.map (·.1)).getD 0)

/-- The checks that reads of a target's evidence make, if there is a target. -/
def readTarget (target : Option String) (stops : StopRevisions) : Except StoreError Unit :=
  match target with
  | none => .ok ()
  | some target => (targetIn target stops).map fun _ => ()

def targetJson (target : Option String) : Json := target.elim .null .text

def origin (target : Option String) (revision : Int) : Json :=
  .object [("stopRevision", .integer revision), ("target", targetJson target)]

def captureIn (target : Option String) (stops : StopRevisions) : Except StoreError Json := do
  let revision ← currentIn stops
  readTarget target stops
  .ok (origin target revision)

def originRevision (target : Option String) (origin : Option Json) : Except StoreError Int :=
  match origin with
  | none => .ok 0
  | some origin =>
    match origin with
    | .object [_, _] =>
      if (origin.get "target").any fun found => found.same (targetJson target) then
        match (origin.get "stopRevision").bind Json.asInteger with
        | none => .error refused
        | some revision => .ok revision
      else .error refused
    | _ => .error refused

/-- No origin is revision zero. -/
def validateIn (target : Option String) (origin : Option Json) (stops : StopRevisions) :
    Except StoreError Unit := do
  let revision ← originRevision target origin
  if revision < 0 then .error refused
  else
    let current ← currentIn stops
    if current < revision then .error refused
    else
      match target with
      | none => .ok ()
      | some target => do
          let latest ← targetIn target stops
          if revision < latest then .error refused else .ok ()

/-- `checked_add(1)` on an `i64` -/
def nextRevision (current : Int) : Except StoreError Int :=
  if (i64Max : Int) ≤ current then .error refused else .ok (current + 1)

def verifyIn (record : RevisionReceipt) (stops : StopRevisions) : Except StoreError Unit := do
  let retained := stops.receipts.contains fun receipt =>
    receipt.operationId = record.operationId && receipt.targetThreadId = record.targetThreadId &&
      receipt.revision = record.revision && receipt.scopeJson.same record.scopeJson
  let current ← currentIn stops
  if current ≠ record.revision then .error refused
  else
    let latest ← targetIn record.targetThreadId stops
    if latest ≠ record.revision || !retained then .error refused else .ok ()

/-- The writes of an advance: the clock, its receipt and the latest revision of its target. -/
def writeAdvance (current : Int) (record : RevisionReceipt) (stops : StopRevisions) :
    Except StoreError StopRevisions :=
  if stops.clock ≠ some current then .error refused
  else if record.revision ≤ 0 then
    .error (.database "CHECK constraint failed: revision>0")
  else if stops.receipts.contains fun receipt => receipt.revision = record.revision then
    .error (.database "UNIQUE constraint failed: cdr_stop_revision_receipts.revision")
  else
    match stops.receipts.insert record with
    | none => .error (.database "UNIQUE constraint failed: cdr_stop_revision_receipts.operation_id")
    | some receipts =>
      .ok
        { clock := some record.revision
          latest := stops.latest.put ⟨record.targetThreadId, record.revision, record.operationId⟩
          receipts := receipts }

/-- An advance of the target under the next revision. -/
def record (target operation : String) (scopeJson : Json) (stops : StopRevisions) :
    Except StoreError (RevisionReceipt × StopRevisions) := do
  let current ← currentIn stops
  readTarget (some target) stops
  let revision ← nextRevision current
  let record := ⟨operation, target, revision, scopeJson⟩
  let next ← writeAdvance current record stops
  verifyIn record next
  .ok (record, next)

def strings (texts : List String) : Json := .array (texts.map .text)

/-- `record_recovery_in`, with the fresh id of its operation. -/
def recordRecoveryIn (scope : StopScope) (jobs : List String) (cancelledAt : Rat) (id : String)
    (stops : StopRevisions) : Except StoreError StopRevisions :=
  (record scope.target s!"recovery-cancel:{id}"
    (.object
      [("cancelled_at", .real cancelledAt), ("channel", .integer scope.channel),
        ("jobs", strings jobs), ("kind", .text "recovery-cancellation"),
        ("owner", .integer scope.owner), ("target", .text scope.target)]) stops).map (·.2)

/-- `advance_in`; whether an intake of the target was being prepared is read from its table. -/
def advanceIn (scope : StopScope) (binding : Json) (receipt : StopReceipt) (operation : String)
    (hadPreparing : Bool) (stops : StopRevisions) :
    Except StoreError (RevisionReceipt × StopRevisions) :=
  if MutationAttempts.blank operation then .error refused
  else record scope.target operation
    (.object
      [("binding", binding), ("channel", .integer scope.channel),
        ("hadPreparing", .bool hadPreparing), ("ingresses", strings receipt.ingresses),
        ("jobs", strings receipt.jobs), ("owner", .integer scope.owner),
        ("target", .text scope.target)]) stops

end StopRevision

end CodexRemote.Store

import CodexRemote.Store.Errors

/-! # Archived rooms

Dispositions and the records they captured.  Records are evidence: the store's
triggers abort every update and delete of them, so they only accumulate.
-/

namespace CodexRemote.Store

/-- `cdr_archived_room_dispositions.phase` -/
inductive Phase where
  | prepared
  | deleteAttempted
  | deleteUnknown
  | deleteRejected
  | deleted
  | mappingRetired
  | abortedSourceChanged
deriving DecidableEq, Repr

structure Disposition where
  operationId : String
  channelId : Int
  targetThreadId : String
  phase : Phase
deriving DecidableEq, Repr

/-- The tables whose original rows an archived room preserves, as far as they are modelled. -/
inductive WorkTable where
  | deliveryReceipts
  | deliveryOutbox
  | turnQueue
  | promptIntakes
  | ingressJournal
  | asyncQuestions
  | asyncQuestionInbox
deriving DecidableEq, Repr

/-- Work of this target or in this room belongs to the archived room. -/
def Disposition.covers (d : Disposition) (target : String) (channel : Int) : Bool :=
  (d.phase != .mappingRetired && d.phase != .abortedSourceChanged && target == d.targetThreadId) ||
    (d.phase != .abortedSourceChanged && channel == d.channelId)

/-- `cdr_archived_room_records`; the row key is the single primary-key column. -/
structure ArchivedRecord where
  operationId : String
  tableName : WorkTable
  rowKey : String
deriving DecidableEq, Repr

/-- One row of `mirror_threads`. -/
structure MirrorThread where
  codexThreadId : String
  discordChannelId : Int
  discordThreadId : Int
deriving DecidableEq, Repr

structure Archive where
  dispositions : List Disposition
  records : List ArchivedRecord
  mirrorThreads : List MirrorThread
deriving DecidableEq, Repr

namespace Archive

def empty : Archive := ⟨[], [], []⟩

/-- `blocked_in`; an absent channel or target is SQL NULL and matches no row. -/
def blocked (archive : Archive) (channel : Option Int) (target : Option String) : Bool :=
  archive.dispositions.any fun d =>
    (channel == some d.channelId && d.phase != .abortedSourceChanged) ||
      (target == some d.targetThreadId && d.phase != .abortedSourceChanged &&
        (d.phase != .mappingRetired ||
          !archive.mirrorThreads.any fun m =>
            target == some m.codexThreadId && m.discordThreadId != d.channelId))

/-- `record_retired_in` -/
def recordRetired (archive : Archive) (table : WorkTable) (key : String) : Bool :=
  archive.records.any fun e => e.tableName == table && e.rowKey == key

/-- The condition of the `cdr_retired_freeze_*` triggers. -/
def frozen (archive : Archive) (table : WorkTable) (key : String) : Bool :=
  archive.records.any fun e => e.tableName == table && e.rowKey == key &&
    archive.dispositions.any fun d => d.operationId == e.operationId && d.phase != .prepared

/-- The `cdr_retired_capture_*` triggers, for a row that the given dispositions cover. -/
def capture (archive : Archive) (table : WorkTable) (key : String)
    (covers : Disposition → Bool) : Archive :=
  let captured := (archive.dispositions.filter covers).map fun d => ⟨d.operationId, table, key⟩
  { archive with records := archive.records ++ captured.filter (fun e => !archive.records.contains e) }

/-- Evidence only accumulates from one archive to a later one. -/
def Extends (earlier later : Archive) : Prop := ∀ e ∈ earlier.records, e ∈ later.records

theorem Extends.refl (archive : Archive) : archive.Extends archive := fun _ member => member

theorem Extends.trans {a b c : Archive} (left : a.Extends b) (right : b.Extends c) : a.Extends c :=
  fun e member => right e (left e member)

theorem capture_extends (archive : Archive) (table : WorkTable) (key : String)
    (covers : Disposition → Bool) : archive.Extends (archive.capture table key covers) :=
  fun _ member => List.mem_append_left _ member

variable {table : WorkTable}

theorem recordRetired_iff {archive : Archive} {key : String} :
    archive.recordRetired table key ↔
      ∃ e ∈ archive.records, e.tableName = table ∧ e.rowKey = key := by
  simp [recordRetired]

theorem Extends.recordRetired {a b : Archive} (later : a.Extends b)
    {key : String} (retired : a.recordRetired table key) : b.recordRetired table key := by
  obtain ⟨e, member, same⟩ := recordRetired_iff.1 retired
  exact recordRetired_iff.2 ⟨e, later e member, same⟩

/-- A capture records rows of its own table only. -/
theorem capture_recordRetired (archive : Archive) {other : WorkTable} (apart : table ≠ other)
    (key row : String) (covers : Disposition → Bool) :
    (archive.capture table key covers).recordRetired other row = archive.recordRetired other row := by
  simp only [capture, recordRetired, List.any_append, Bool.or_eq_left_iff_imp, List.any_eq_true]
  rintro ⟨e, member, same⟩
  obtain ⟨captured, _⟩ := List.mem_filter.1 member
  obtain ⟨d, _, rfl⟩ := List.mem_map.1 captured
  simp [apart] at same

/-- Only captured rows are frozen. -/
theorem frozen_retired {archive : Archive} {key : String}
    (frozen : archive.frozen table key) : archive.recordRetired table key := by
  simp only [Archive.frozen, List.any_eq_true, Bool.and_eq_true, beq_iff_eq] at frozen
  obtain ⟨e, member, same, _⟩ := frozen
  exact recordRetired_iff.2 ⟨e, member, same⟩

end Archive

end CodexRemote.Store

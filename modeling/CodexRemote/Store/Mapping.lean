import CodexRemote.Discord.Text
import CodexRemote.Foundations.Tables
import CodexRemote.Foundations.Transactions
import CodexRemote.Store.Errors

/-! # Mirror mappings and the creation of their rooms

A room is created by a call to Discord between two transactions.  A custody row, written before
the call, remembers that it may have happened; the transaction that writes the mapping removes it.
-/

namespace CodexRemote.Store.Mapping

open Foundations

/-- A row of `mirror_threads` -/
structure MirrorThread where
  codexThreadId : String
  projectKey : String
  threadTitle : String
  discordChannelId : Int
  discordThreadId : Int
  updatedAt : Rat
deriving DecidableEq, Repr

/-- A row of `mirror_projects` -/
structure MirrorProject where
  projectKey : String
  discordChannelId : Int
deriving DecidableEq, Repr

inductive FencePhase where
  | deleting
  | deleted
deriving DecidableEq, Repr

/-- A row of `cdr_cleanup_fences` -/
structure CleanupFence where
  channelId : Int
  targetThreadId : Option String
  phase : FencePhase
deriving DecidableEq, Repr

/-- A row of `cdr_archive_fences` -/
structure ArchiveFence where
  targetThreadId : String
  channels : List Int
deriving DecidableEq, Repr

inductive CreationPhase where
  | attempted
  | confirmed
deriving DecidableEq, Repr

/-- The `CHECK` constraints of `cdr_mirror_thread_creations` -/
def CreationCheck (guild parent : Int) (expectedParent expectedChannel : Option Int)
    (phase : CreationPhase) (channel : Option Int) : Prop :=
  (0 < guild ∧ 0 < parent) ∧
  ((expectedParent = none ∧ expectedChannel = none) ∨
    (expectedParent.any (0 < ·) ∧ expectedChannel.any (0 < ·))) ∧
  ((phase = .attempted ∧ channel = none) ∨ (phase = .confirmed ∧ channel.any (0 < ·)))

/-- A row of `cdr_mirror_thread_creations` -/
structure CreationRecord where
  thread : String
  token : String
  guild : Int
  parent : Int
  expectedParent : Option Int
  expectedChannel : Option Int
  phase : CreationPhase
  channel : Option Int
  checked : CreationCheck guild parent expectedParent expectedChannel phase channel
deriving DecidableEq

structure MappingDb where
  mirrorThreads : Table MirrorThread.codexThreadId
  mirrorProjects : Table MirrorProject.projectKey
  cleanupFences : Table CleanupFence.channelId
  archiveFences : Table ArchiveFence.targetThreadId
  creations : Table CreationRecord.thread

structure CreationScope where
  thread : String
  guild : Int
  parent : Int
  expected : Option (Int × Int)
deriving DecidableEq, Repr

structure MirrorThreadUpdate where
  threadId : String
  projectKey : String
  title : String
  parentId : Int
  channelId : Int
  now : Rat
deriving DecidableEq, Repr

/-! ## Reading -/

def load (db : MappingDb) (thread : String) : Option CreationRecord := db.creations.find thread

def columns (expected : Option (Int × Int)) : Option Int × Option Int :=
  expected.elim (none, none) fun (parent, channel) => (some parent, some channel)

def checkScope (record : CreationRecord) (scope : CreationScope) : Except StoreError Unit :=
  if record.guild ≠ scope.guild || record.parent ≠ scope.parent ||
      (record.expectedParent, record.expectedChannel) ≠ columns scope.expected then
    .error (.integrity "mirror creation scope changed; intent retained")
  else .ok ()

def mapped (db : MappingDb) (thread : String) : Option (Int × Int) :=
  (db.mirrorThreads.find thread).map fun row => (row.discordChannelId, row.discordThreadId)

def checkCleanup (db : MappingDb) (scope : CreationScope) : Except StoreError Unit :=
  if db.cleanupFences.contains fun fence => fence.channelId = scope.parent ||
      some fence.channelId = scope.expected.map Prod.snd ||
      fence.targetThreadId = some scope.thread then
    .error (.integrity "mirror creation is blocked by room cleanup")
  else .ok ()

/-! ## Custody of a creation -/

/-- The room that was created for the scope and is not yet mapped -/
def confirmed (scope : CreationScope) (db : MappingDb) : Except StoreError (Option Int) :=
  match load db scope.thread with
  | none => .ok none
  | some record => do
      checkScope record scope
      checkCleanup db scope
      if mapped db scope.thread ≠ scope.expected then
        .error (.integrity "mirror mapping changed during creation")
      else if record.phase = .confirmed && record.channel.any (0 < ·) then .ok record.channel
      else
        .error (.integrity
          s!"mirror creation outcome is unknown for {scope.thread}; creation will not be repeated")

def CreationScope.invalid (scope : CreationScope) : Bool :=
  (Discord.trim scope.thread.toList).isEmpty || scope.guild ≤ 0 || scope.parent ≤ 0 ||
    scope.expected.any fun (parent, channel) => parent ≤ 0 || channel ≤ 0

theorem CreationScope.check {scope : CreationScope} (valid : ¬ scope.invalid = true) :
    CreationCheck scope.guild scope.parent (columns scope.expected).1 (columns scope.expected).2
      .attempted none := by
  simp only [invalid, Bool.or_eq_true, decide_eq_true_eq, not_or] at valid
  obtain ⟨⟨⟨_, guild⟩, parent⟩, expected⟩ := valid
  refine ⟨⟨by omega, by omega⟩, ?_, .inl ⟨rfl, rfl⟩⟩
  cases shape : scope.expected with
  | none => exact .inl ⟨rfl, rfl⟩
  | some pair =>
    rw [shape] at expected
    simp only [Option.any_some, Bool.or_eq_true, decide_eq_true_eq, not_or] at expected
    refine .inr ⟨?_, ?_⟩ <;> simp only [columns, Option.elim_some, Option.any_some,
      decide_eq_true_eq] <;> omega

/-- The token is a fresh UUID. -/
def beginBody (scope : CreationScope) (token : String) (db : MappingDb) :
    Except StoreError (String × MappingDb) :=
  if bad : scope.invalid then .error (.integrity "invalid mirror creation scope")
  else if (load db scope.thread).isSome || mapped db scope.thread ≠ scope.expected then
    .error (.integrity "mirror creation already claimed or mapping changed")
  else do
    checkCleanup db scope
    -- the UNIQUE constraint on tokens
    if db.creations.contains fun record => record.token = token then
      .error (.database "UNIQUE constraint failed: cdr_mirror_thread_creations.token")
    else
      let next := { db with
        creations := db.creations.insertOrIgnore {
          thread := scope.thread
          token := token
          guild := scope.guild
          parent := scope.parent
          expectedParent := (columns scope.expected).1
          expectedChannel := (columns scope.expected).2
          phase := .attempted
          channel := none
          checked := CreationScope.check bad } }
      match load next scope.thread with
      | none => .error (.integrity "mirror creation intent was not stored")
      | some record => do
          checkScope record scope
          if record.token ≠ token || record.phase ≠ .attempted || record.channel.isSome then
            .error (.integrity "mirror creation intent write was not exact")
          else .ok (token, next)

def CreationRecord.confirm (channel : Int) (positive : 0 < channel) (record : CreationRecord) :
    CreationRecord :=
  { record with
    phase := .confirmed
    channel := some channel
    checked := ⟨record.checked.1, record.checked.2.1, .inr ⟨rfl, by simpa using positive⟩⟩ }

theorem CreationRecord.confirm_thread (channel : Int) (positive : 0 < channel)
    (record : CreationRecord) : (record.confirm channel positive).thread = record.thread := rfl

/-- The attempt that a confirmation is for -/
def awaiting (scope : CreationScope) (token : String) (row : CreationRecord) : Bool :=
  row.thread = scope.thread && row.token = token && row.phase = .attempted && row.channel.isNone

def MappingDb.storeChannel (db : MappingDb) (scope : CreationScope) (token : String) (channel : Int)
    (positive : 0 < channel) : MappingDb :=
  { db with
    creations := db.creations.update (awaiting scope token) (.confirm channel positive)
      (CreationRecord.confirm_thread channel positive) }

def confirmBody (scope : CreationScope) (token : String) (channel : Int) (db : MappingDb) :
    Except StoreError (Unit × MappingDb) :=
  match load db scope.thread with
  | none => .error (.integrity "mirror creation intent disappeared")
  | some record => do
      checkScope record scope
      if positive : 0 < channel then
        if record.token ≠ token || record.phase ≠ .attempted || record.channel.isSome then
          .error (.integrity "mirror creation confirmation lost ownership")
        else
          let changed := db.creations.count (awaiting scope token)
          let next := db.storeChannel scope token channel positive
          match load next scope.thread with
          | none => .error (.integrity "mirror creation confirmation disappeared")
          | some record => do
              checkScope record scope
              if changed ≠ 1 || record.token ≠ token || record.phase ≠ .confirmed ||
                  record.channel ≠ some channel then
                .error (.integrity "mirror creation confirmation was not stored")
              else .ok ((), next)
      else .error (.integrity "mirror creation confirmation lost ownership")

/-- The custody that a mapping ends -/
def completed (update : MirrorThreadUpdate) (token : String) (row : CreationRecord) : Bool :=
  row.thread = update.threadId && row.token = token && row.phase = .confirmed &&
    row.channel = some update.channelId

/-- The custody is removed in the transaction that writes the mapping. -/
def finishIn (update : MirrorThreadUpdate) (expected : Option (Int × Int))
    (original : Option CreationRecord) (db : MappingDb) : Except StoreError MappingDb :=
  if load db update.threadId ≠ original then
    .error (.integrity "mirror creation custody changed during mapping write")
  else
    match original with
    | none => .ok db
    | some record => do
        let scope : CreationScope := ⟨update.threadId, record.guild, update.parentId, expected⟩
        checkScope record scope
        checkCleanup db scope
        if record.phase ≠ .confirmed || record.channel ≠ some update.channelId ||
            mapped db update.threadId ≠ some (update.parentId, update.channelId) then
          .error (.integrity "mirror creation mapping was not confirmed")
        else
          let changed := db.creations.count (completed update record.token)
          let next := { db with creations := db.creations.delete (completed update record.token) }
          if changed ≠ 1 || (load next update.threadId).isSome ||
              mapped next update.threadId ≠ some (update.parentId, update.channelId) then
            .error (.integrity "mirror creation completion was not stored")
          else do
            checkCleanup next scope
            .ok next

/-! ## Mappings -/

/-- The triggers of room cleanup and of archive deletion on `mirror_threads` -/
def mappingFence (db : MappingDb) (new : MirrorThread) : Except StoreError Unit :=
  if db.cleanupFences.contains fun fence => fence.channelId = new.discordThreadId ||
      fence.channelId = new.discordChannelId ||
      (fence.phase = .deleting && fence.targetThreadId = some new.codexThreadId) then
    .error (.database "room cleanup fence active; operation not executed")
  else if db.archiveFences.contains fun fence => fence.targetThreadId = new.codexThreadId ||
      fence.channels.contains new.discordThreadId then
    .error (.database "archive deletion fenced; operation not executed")
  else .ok ()

def MirrorThreadUpdate.row (update : MirrorThreadUpdate) : MirrorThread where
  codexThreadId := update.threadId
  projectKey := update.projectKey
  threadTitle := update.title
  discordChannelId := update.parentId
  discordThreadId := update.channelId
  updatedAt := update.now

def occupied (update : MirrorThreadUpdate) (db : MappingDb) : Bool :=
  db.mirrorThreads.contains fun row =>
    row.discordThreadId = update.channelId && row.codexThreadId ≠ update.threadId

/-- `project` is the key that `check_project` asks for, when it does. -/
def commitChecked (update : MirrorThreadUpdate) (expected : Option (Int × Int))
    (project : Option (Option String)) (db : MappingDb) : Except StoreError (Unit × MappingDb) :=
  if project.any fun key =>
      (db.mirrorProjects.select fun row => row.discordChannelId = update.parentId).map
        MirrorProject.projectKey ≠ key.toList then
    .error (.integrity s!"new-thread project mapping changed for channel {update.parentId}; created room {update.channelId} retained without attaching or retrying")
  else if occupied update db then
    .error (.integrity
      s!"Discord room {update.channelId} already belongs to another Codex thread; mapping unchanged")
  else if mapped db update.threadId ≠ expected then
    .error (.mirrorMappingChanged update.channelId update.threadId none)
  else do
    let creation := load db update.threadId
    mappingFence db update.row
    let next ← finishIn update expected creation
      { db with mirrorThreads := db.mirrorThreads.put update.row }
    .ok ((), next)

/-! ## Calls -/

def begin (scope : CreationScope) (token : String) : MappingDb → Except StoreError String × MappingDb :=
  commit (beginBody scope token)

def confirm (scope : CreationScope) (token : String) (channel : Int) :
    MappingDb → Except StoreError Unit × MappingDb :=
  commit (confirmBody scope token channel)

def commitThreadSync (update : MirrorThreadUpdate) (expected : Option (Int × Int)) :
    MappingDb → Except StoreError Unit × MappingDb :=
  commit (commitChecked update expected none)

def commitNewThreadSync (update : MirrorThreadUpdate) (expected : Option (Int × Int))
    (projectKey : Option String) : MappingDb → Except StoreError Unit × MappingDb :=
  commit (commitChecked update expected (some projectKey))

def retireThreadSync (thread : String) (channel : Int) (updatedBefore : Rat) (db : MappingDb) :
    Bool × MappingDb :=
  let named : MirrorThread → Bool := fun row => row.codexThreadId = thread &&
    row.discordThreadId = channel && row.updatedAt < updatedBefore
  (db.mirrorThreads.count named = 1, { db with mirrorThreads := db.mirrorThreads.delete named })

end CodexRemote.Store.Mapping

import CodexRemote.Foundations.Encodings
import CodexRemote.Verified.Checkpoints.Writes

/-! # One failing call in a write or a delete

What an all-or-nothing write and delete would leave behind, and when they do: whatever calls
fail, exactly when the operation is not torn; and if one call fails, exactly when it is not
one of those that come after the old file is moved away and are not answered by putting it
back.
-/

namespace CodexRemote.Verified.Checkpoints

open Foundations RemoteAgent

/-- An error leaves the target as it was, and a success is the write that was asked for. -/
structure WriteWhole (hexDigest : Bytes → String) (content : Bytes) (expected : Option String)
    (target : Option File) (outcome : Except RemoteFileError Bool × Site) : Prop where
  failed : ∀ error, outcome.1 = .error error → contentOf outcome.2.target = contentOf target
  published : ∀ created, outcome.1 = .ok created → contentOf outcome.2.target = some content
  answered : ∀ created, outcome.1 = .ok created → created = target.isNone
  expected : ∀ created, outcome.1 = .ok created → expected = hashOf hexDigest target
  alone : ∀ created, outcome.1 = .ok created →
    outcome.2.temporary = false ∧ outcome.2.backup = none

structure DeleteWhole (hexDigest : Bytes → String) (expected : String) (target : Option File)
    (outcome : Except RemoteFileError Unit × Site) : Prop where
  failed : ∀ error, outcome.1 = .error error → contentOf outcome.2.target = contentOf target
  deleted : outcome.1 = .ok () → outcome.2 = Site.alone none
  expected : outcome.1 = .ok () → some expected = hashOf hexDigest target

variable {content : Bytes} {target : Option File} {failing : Option FileCall}

section Operations

variable {hexDigest : Bytes → String} {shown : String} {fails : FileCall → Bool}

/-! ## Operations that succeed -/

theorem concludeWrite_ok {created answer : Bool} {outcome : Except RemoteFileError Unit × Site}
    {site : Site} (done : concludeWrite fails created outcome = (.ok answer, site)) :
    ∃ published, outcome = (.ok (), published) ∧ answer = created ∧
      failsLate fails = false ∧ site = published.dropTemporary := by
  obtain ⟨result, published⟩ := outcome
  cases result with
  | error error => cases done
  | ok _ =>
    simp only [concludeWrite] at done
    split_ifs at done with checks removal
    · cases done
    · cases done
    · cases done
      have whole : failsLate fails = false := by simp [failsLate, checks, removal]
      exact ⟨published, rfl, rfl, whole, rfl⟩

theorem publishExisting_ok {expected : String} {site published : Site}
    (done : publishExisting hexDigest shown fails content expected site = (.ok (), published)) :
    published = { site.link content with backup := none } ∧ leftAway fails = false ∧
      fails .removeBackup = false := by
  cases opened : openVerified shown fails .reopenTarget site.target with
  | error error =>
    simp only [publishExisting, opened] at done
    cases done
  | ok current =>
    simp only [publishExisting, opened, ite_eq_iff, Prod.mk.injEq, reduceCtorEq, false_and,
      and_false, false_or, true_and] at done
    obtain ⟨-, -, -, backup, -, linked, removal, rfl⟩ := done
    simp only [Bool.or_eq_true, not_or, Bool.not_eq_true] at backup linked removal
    exact ⟨rfl, by simp [leftAway, backup, linked], removal⟩

theorem write_ok {expected : Option String} {created : Bool} {site : Site}
    (done : write hexDigest shown fails content expected target = (.ok created, site)) :
    site = Site.alone (some ⟨content, 1⟩) ∧ created = target.isNone ∧
      expected = hashOf hexDigest target ∧
      writeTorn hexDigest fails content expected target = false := by
  cases valid : validateExpected hexDigest shown fails target expected with
  | error error =>
    simp only [write, valid] at done
    split_ifs at done
    · cases done
    · cases done
  | ok missing =>
    simp only [write, valid, ite_eq_iff (c := (_, _)), Prod.mk.injEq, reduceCtorEq, false_and,
      and_false, false_or] at done
    obtain ⟨-, -, -, concluded⟩ := done
    obtain ⟨published, linked, rfl, late, rfl⟩ := concludeWrite_ok concluded
    obtain ⟨-, ⟨rfl, rfl, rfl⟩ | ⟨current, rfl, single, rfl, rfl, read⟩⟩ :=
      validateExpected_ok valid
    · rw [if_pos rfl, publishNew_absent rfl] at linked
      split_ifs at linked
      · cases linked
      · cases linked
        exact ⟨rfl, rfl, rfl, by simp [writeTorn, late]⟩
    · rw [if_neg Bool.false_ne_true] at linked
      obtain ⟨rfl, back, removed⟩ := publishExisting_ok linked
      exact ⟨rfl, rfl, rfl, by simp [writeTorn, back, removed, late]⟩

/-! ## Whatever calls fail -/

/-- A write is all or nothing exactly when it is not torn. -/
theorem write_whole_iff (hexDigest : Bytes → String) (shown : String) (fails : FileCall → Bool)
    (content : Bytes) (expected : Option String) (target : Option File) :
    WriteWhole hexDigest content expected target
        (write hexDigest shown fails content expected target) ↔
      writeTorn hexDigest fails content expected target = false := by
  have reached := write_cases hexDigest shown fails content expected target
  cases outcome : write hexDigest shown fails content expected target with
  | mk result site =>
    rw [outcome] at reached
    cases result with
    | ok created =>
      obtain ⟨rfl, answer, hash, whole⟩ := write_ok outcome
      refine ⟨fun _ => whole, fun _ => ⟨nofun, fun _ _ => rfl, ?_, fun _ _ => hash, fun _ _ => ⟨rfl, rfl⟩⟩⟩
      intro answered same
      cases same
      exact answer
    | error error =>
      cases reached with
      | kept same whole => exact ⟨fun _ => whole, fun _ => ⟨fun _ _ => same, nofun, nofun, nofun, nofun⟩⟩
      | lost broken differs seen =>
        exact ⟨fun whole => absurd (whole.failed error rfl) differs,
          fun whole => by rw [broken] at whole; cases whole⟩

theorem delete_whole_iff (hexDigest : Bytes → String) (shown : String) (fails : FileCall → Bool)
    (expected : String) (target : Option File) :
    DeleteWhole hexDigest expected target (delete hexDigest shown fails expected target) ↔
      deleteTorn hexDigest fails expected target = false := by
  have reached := delete_cases hexDigest shown fails expected target
  cases outcome : delete hexDigest shown fails expected target with
  | mk result site =>
    rw [outcome] at reached
    cases result with
    | ok _ =>
      obtain ⟨rfl, hash, whole⟩ := delete_ok outcome
      exact ⟨fun _ => whole, fun _ => ⟨nofun, fun _ => rfl, fun _ => hash⟩⟩
    | error error =>
      cases reached with
      | kept same whole => exact ⟨fun _ => whole, fun _ => ⟨fun _ _ => by rw [same], nofun, nofun⟩⟩
      | lost broken there gone =>
        have differs : contentOf site.target ≠ contentOf target := by
          rw [gone]
          cases target with
          | none => exact absurd rfl there
          | some current => exact nofun
        exact ⟨fun whole => absurd (whole.failed error rfl) differs,
          fun whole => by rw [broken] at whole; cases whole⟩

end Operations

/-! ## One failing call -/

def only (failing : Option FileCall) (call : FileCall) : Bool := failing == some call

/-- The target can be opened, and it is as the caller of an operation expects it. -/
def Accepted (hexDigest : Bytes → String) (expected : Option String) (target : Option File) : Prop :=
  expected = hashOf hexDigest target ∧ ∀ file, target = some file → file.links = 1

/-- The failing call is not one that a write does not take back. -/
structure WriteSpared (hexDigest : Bytes → String) (failing : Option FileCall) (content : Bytes)
    (expected : Option String) (target : Option File) : Prop where
  /-- with the old file under its backup's name, nothing may fail to look at it -/
  away : failing = some .identifyBackup ∨ failing = some .rereadBackup →
    target = none ∨ ¬Accepted hexDigest expected target
  /-- a backup that stays is reported with the new content in place -/
  backup : failing = some .removeBackup →
    target = none ∨ ¬Accepted hexDigest expected target ∨ contentOf target = some content
  late : failing = some .readPublished ∨ failing = some .identifyPublished ∨
      failing = some .countLinks ∨ failing = some .removeTemporary →
    ¬Accepted hexDigest expected target ∨ contentOf target = some content

def DeleteSpared (hexDigest : Bytes → String) (failing : Option FileCall) (expected : String)
    (target : Option File) : Prop :=
  failing = some .identifyBackup ∨ failing = some .rereadBackup →
    target = none ∨ ¬Accepted hexDigest (some expected) target

section SingleFault

variable {hexDigest : Bytes → String}

theorem accepted_existing {expected : String} {current : File} :
    (current.links == 1 && hexDigest current.bytes == expected) = true ↔
      Accepted hexDigest (some expected) (some current) := by
  simp only [Bool.and_eq_true, beq_iff_eq, Accepted, hashOf, Option.map_some, Option.some.injEq,
    forall_eq']
  exact and_comm.trans (and_congr_left' eq_comm)

/-- The calls before the failing one go through. -/
theorem goThrough_only {failing : FileCall} {calls : List FileCall} (later : failing ∉ calls) :
    goThrough (only (some failing)) calls = true := by
  simp only [goThrough, List.all_eq_true, only, Bool.not_eq_true', beq_eq_false_iff_ne, ne_eq,
    Option.some.injEq]
  rintro call member rfl
  exact later member

theorem only_both {failing : Option FileCall} {one two : FileCall} (differ : one ≠ two) :
    (only failing one && only failing two) = false := by
  rw [Bool.eq_false_iff]
  simp only [only, ne_eq, Bool.and_eq_true, beq_iff_eq]
  rintro ⟨rfl, same⟩
  exact differ (Option.some.inj same)

theorem deleteTorn_only {expected : String} :
    deleteTorn hexDigest (only failing) expected target = false ↔
      DeleteSpared hexDigest failing expected target := by
  cases target with
  | none => exact ⟨fun _ _ => .inl rfl, fun _ => rfl⟩
  | some current =>
    rw [deleteTorn, @only_both failing .removeBackup .restoreBackup (by decide), Bool.or_false,
      DeleteSpared]
    by_cases away : failing = some .identifyBackup ∨ failing = some .rereadBackup
    · have reached : goThrough (only failing)
          [.parents, .openTarget, .identifyTarget, .readTarget, .renameTarget] = true := by
        obtain rfl | rfl := away
        · exact goThrough_only (by decide)
        · exact goThrough_only (by decide)
      have moved : (only failing .identifyBackup || only failing .rereadBackup) = true := by
        simpa [only] using away
      rw [reached, moved, Bool.and_true, Bool.and_true, ← Bool.not_eq_true, accepted_existing]
      simp [away]
    · have still : (only failing .identifyBackup || only failing .rereadBackup) = false := by
        simpa [only] using away
      simp [still, away]

/-- A write over a file that is as expected is torn by the calls that come after the file is
moved away, and, if it changes the file, by those that come after the new content is there. -/
theorem writeTorn_accepted {current : File} (single : current.links = 1) :
    writeTorn hexDigest (only failing) content (some (hexDigest current.bytes)) (some current) =
      (only failing .identifyBackup || only failing .rereadBackup ||
        (only failing .removeBackup || failsLate (only failing)) && content != current.bytes) := by
  cases failing with
  | none => simp [writeTorn, only, leftAway, failsLate]
  | some call =>
    simp only [writeTorn, leftAway, failsLate, goThrough, List.all_cons, List.all_nil, single,
      only, beq_self_eq_true, Bool.true_and, Option.some_beq_some]
    cases call <;> rfl

theorem writeTorn_absent :
    writeTorn hexDigest (only failing) content none none = failsLate (only failing) := by
  cases failing with
  | none => rfl
  | some call => cases call <;> rfl

theorem accepted_of_writeTorn {fails : FileCall → Bool} {expected : Option String}
    (torn : writeTorn hexDigest fails content expected target = true) :
    Accepted hexDigest expected target := by
  cases target with
  | none =>
    cases expected with
    | none => exact ⟨rfl, nofun⟩
    | some expected => cases torn
  | some current =>
    cases expected with
    | none => cases torn
    | some expected =>
      simp only [writeTorn, Bool.and_eq_true] at torn
      exact accepted_existing.mp (by simpa using torn.1.1)

theorem failsLate_only :
    failsLate (only failing) = true ↔
      failing = some .readPublished ∨ failing = some .identifyPublished ∨
        failing = some .countLinks ∨ failing = some .removeTemporary := by
  simp only [failsLate, only, Bool.or_eq_true, beq_iff_eq, or_assoc]

theorem writeTorn_only {expected : Option String}
    :
    writeTorn hexDigest (only failing) content expected target = false ↔
      WriteSpared hexDigest failing content expected target := by
  by_cases accepted : Accepted hexDigest expected target
  · obtain ⟨known, single⟩ := id accepted
    cases target with
    | none =>
      cases known
      rw [hashOf, Option.map_none, writeTorn_absent, ← Bool.not_eq_true, failsLate_only]
      constructor
      · exact fun early => ⟨fun _ => .inl rfl, fun _ => .inl rfl, fun late => absurd late early⟩
      · intro spared late
        obtain refused | same := spared.late late
        · exact refused accepted
        · cases same
    | some current =>
      cases known
      have torn : writeTorn hexDigest (only failing) content (hashOf hexDigest (some current))
          (some current) = true ↔
          (failing = some .identifyBackup ∨ failing = some .rereadBackup) ∨
            (failing = some .removeBackup ∨ failsLate (only failing) = true) ∧
              contentOf (some current) ≠ some content := by
        have differ : contentOf (some current) ≠ some content ↔ content ≠ current.bytes := by
          rw [contentOf, Option.map_some, ne_eq, Option.some.injEq, ← ne_eq, ne_comm]
        rw [hashOf, Option.map_some, writeTorn_accepted (single current rfl), differ]
        simp only [only, Bool.or_eq_true, Bool.and_eq_true, beq_iff_eq, bne_iff_ne]
      rw [← Bool.not_eq_true, torn, failsLate_only]
      constructor
      · intro whole
        rw [not_or, not_and, not_not] at whole
        obtain ⟨still, same⟩ := whole
        exact ⟨fun moved => absurd moved still, fun backup => .inr (.inr (same (.inl backup))),
          fun late => .inr (same (.inr late))⟩
      · rintro spared (moved | ⟨backup | late, differs⟩)
        · obtain absent | refused := spared.away moved
          · cases absent
          · exact refused accepted
        · obtain absent | refused | same := spared.backup backup
          · cases absent
          · exact refused accepted
          · exact differs same
        · obtain refused | same := spared.late late
          · exact refused accepted
          · exact differs same
  · have whole : writeTorn hexDigest (only failing) content expected target = false := by
      rw [Bool.eq_false_iff]
      exact fun torn => accepted (accepted_of_writeTorn torn)
    exact ⟨fun _ => ⟨fun _ => .inr accepted, fun _ => .inr (.inl accepted), fun _ => .inl accepted⟩,
      fun _ => whole⟩

/-- **With one failing call, a write and a delete are all or nothing exactly when that call is
not one whose failure they do not take back.** -/
theorem single_fault_whole_iff (hexDigest : Bytes → String) (shown : String)
    (failing : Option FileCall) :
    (∀ content expected target,
      WriteWhole hexDigest content expected target
          (write hexDigest shown (only failing) content expected target) ↔
        WriteSpared hexDigest failing content expected target) ∧
    (∀ expected target,
      DeleteWhole hexDigest expected target
          (delete hexDigest shown (only failing) expected target) ↔
        DeleteSpared hexDigest failing expected target) := by
  constructor
  · intro content expected target
    rw [write_whole_iff, writeTorn_only]
  · intro expected target
    rw [delete_whole_iff, deleteTorn_only]

end SingleFault

/-- The old file stays under its backup's name when it cannot be read again there. -/
theorem unread_backup_loses_target :
    ¬WriteWhole hexEncode [0x62] (some (hexEncode [0x61])) (some ⟨[0x61], 1⟩)
      (write hexEncode "notes.txt" (only (some .rereadBackup)) [0x62] (some (hexEncode [0x61]))
        (some ⟨[0x61], 1⟩)) := by
  rw [write_whole_iff]
  decide +kernel

end CodexRemote.Verified.Checkpoints

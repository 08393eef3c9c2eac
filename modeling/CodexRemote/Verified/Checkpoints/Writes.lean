import CodexRemote.RemoteAgent.Workspace

/-! # What a write or a delete leaves behind

One that succeeds has done what it was asked to.  One that fails has left its target as it
was, unless it fails between moving the target away and putting it back, or after the new
content is in place: then the target is torn.
-/

namespace CodexRemote.Verified.Checkpoints

open RemoteAgent

/-- The bytes of a file, if it is there. -/
def contentOf (file : Option File) : Option Bytes := file.map File.bytes

/-- The hash that the caller of an operation has to know. -/
def hashOf (hexDigest : Bytes → String) (target : Option File) : Option String :=
  target.map fun file => hexDigest file.bytes

def goThrough (fails : FileCall → Bool) (calls : List FileCall) : Bool :=
  calls.all fun call => !fails call

/-- The old file is left under the name of its backup. -/
def leftAway (fails : FileCall → Bool) : Bool :=
  fails .identifyBackup || fails .rereadBackup || (fails .linkTarget && fails .restoreBackup)

/-- What follows the publication fails. -/
def failsLate (fails : FileCall → Bool) : Bool :=
  fails .readPublished || fails .identifyPublished || fails .countLinks || fails .removeTemporary

variable {target : Option File} {content : Bytes} {site : Site}

section Operations

variable (hexDigest : Bytes → String) (fails : FileCall → Bool)

/-- A write that fails and leaves its target different. -/
def writeTorn (content : Bytes) (expected : Option String) (target : Option File) : Bool :=
  match target, expected with
  | none, none =>
    goThrough fails [.parents, .openTarget, .createTemporary, .fillTemporary,
      .identifyTemporary, .linkTarget] && failsLate fails
  | some current, some expected =>
    current.links == 1 && hexDigest current.bytes == expected &&
    goThrough fails [.parents, .openTarget, .readTarget, .createTemporary, .fillTemporary,
      .identifyTemporary, .reopenTarget, .identifyTarget, .rereadTarget, .renameTarget] &&
    (leftAway fails ||
      !fails .linkTarget && (fails .removeBackup || failsLate fails) && content != current.bytes)
  | _, _ => false

/-- A delete that fails and leaves its target moved away. -/
def deleteTorn (expected : String) (target : Option File) : Bool :=
  match target with
  | none => false
  | some current =>
    current.links == 1 && hexDigest current.bytes == expected &&
    goThrough fails [.parents, .openTarget, .identifyTarget, .readTarget, .renameTarget] &&
    (fails .identifyBackup || fails .rereadBackup ||
      (fails .removeBackup && fails .restoreBackup))

variable {hexDigest fails} {shown : String}

/-! ## Opening -/

theorem openVerified_present {call : FileCall} {file : File} (fine : fails call = false)
    (single : file.links = 1) : openVerified shown fails call (some file) = .ok file := by
  simp [openVerified, fine, single]

theorem openVerified_ok {call : FileCall} {file : File}
    (opened : openVerified shown fails call target = .ok file) :
    fails call = false ∧ target = some file ∧ file.links = 1 := by
  cases target with
  | none =>
    simp only [openVerified] at opened
    split_ifs at opened
  | some current =>
    simp only [openVerified] at opened
    split_ifs at opened with broken many
    cases opened
    exact ⟨by simpa using broken, rfl, by simpa using many⟩

theorem openVerified_notFound {call : FileCall}
    (opened : openVerified shown fails call target = .error .notFound) :
    fails call = false ∧ target = none := by
  cases target with
  | none =>
    simp only [openVerified] at opened
    split_ifs at opened with broken
    · cases opened
    · exact ⟨by simpa using broken, rfl⟩
  | some current =>
    simp only [openVerified] at opened
    split_ifs at opened
    · cases opened
    · cases opened

/-! ## Publishing -/

theorem publishNew_absent (absent : site.target = none) :
    publishNew shown fails content site =
      if fails .linkTarget then (.error .io, site) else (.ok (), site.link content) := by
  simp [publishNew, absent]

/-- What comes of publishing over a file: it is still there, it is moved away, or the new
content is in its place, with or without an error. -/
inductive Publication (fails : FileCall → Bool) (content : Bytes) (current : File) :
    Except RemoteFileError Unit × Site → Prop where
  | kept {error : RemoteFileError} {site : Site} (same : site.target = some current)
      (early : goThrough fails [.reopenTarget, .identifyTarget, .rereadTarget, .renameTarget] = false
        ∨ leftAway fails = false ∧ fails .linkTarget = true) :
      Publication fails content current (.error error, site)
  | away {error : RemoteFileError} {site : Site} (gone : site.target = none)
      (reached : goThrough fails [.reopenTarget, .identifyTarget, .rereadTarget, .renameTarget] = true)
      (left : leftAway fails = true) :
      Publication fails content current (.error error, site)
  | replaced {result : Except RemoteFileError Unit} {site : Site}
      (new : site.target = some ⟨content, 2⟩)
      (reached : goThrough fails [.reopenTarget, .identifyTarget, .rereadTarget, .renameTarget] = true)
      (back : leftAway fails = false) (linked : fails .linkTarget = false)
      (removed : result = if fails .removeBackup then .error .io else .ok ()) :
      Publication fails content current (result, site)

theorem publishExisting_cases (hexDigest : Bytes → String) (shown : String)
    (fails : FileCall → Bool) (content : Bytes) {current : File}
    (present : site.target = some current) (single : current.links = 1) :
    Publication fails content current
      (publishExisting hexDigest shown fails content (hexDigest current.bytes) site) := by
  cases reopen : fails .reopenTarget with
  | true =>
    have result : publishExisting hexDigest shown fails content (hexDigest current.bytes) site =
        (.error (changed shown), site) := by simp [publishExisting, openVerified, reopen]
    rw [result]
    exact .kept present (.inl (by simp [goThrough, reopen]))
  | false =>
    simp only [publishExisting, openVerified, present, single, reopen, bne_self_eq_false,
      Bool.false_eq_true, if_false]
    split_ifs with reread rename backup linked back
    · exact .kept present (.inl (by grind [goThrough]))
    · exact .kept present (.inl (by grind [goThrough]))
    · exact .away rfl (by grind [goThrough]) (by grind [leftAway])
    · cases restore : fails .restoreBackup with
      | true => exact .away (by simp [restoreOrPreserve, restore]) (by grind [goThrough]) (by grind [leftAway])
      | false => exact .kept (by simp [restoreOrPreserve, restore]) (.inr (by grind [leftAway]))
    · exact .replaced rfl (by grind [goThrough]) (by grind [leftAway]) (by simpa using linked) (by simp [back])
    · exact .replaced rfl (by grind [goThrough]) (by grind [leftAway]) (by simpa using linked) (by simp [back])

/-! ## Writing -/

/-- The target that a write may go on with. -/
theorem validateExpected_ok {expected : Option String} {created : Bool}
    (valid : validateExpected hexDigest shown fails target expected = .ok created) :
    fails .openTarget = false ∧
      (target = none ∧ expected = none ∧ created = true ∨
        ∃ current, target = some current ∧ current.links = 1 ∧
          expected = some (hexDigest current.bytes) ∧ created = false ∧
          fails .readTarget = false) := by
  cases opened : openVerified shown fails .openTarget target with
  | error error =>
    by_cases missing : error = .notFound
    · rw [missing] at opened
      obtain ⟨fine, rfl⟩ := openVerified_notFound opened
      cases expected with
      | none =>
        simp only [validateExpected, opened, Option.isSome_none, Bool.false_eq_true, if_false,
          Except.ok.injEq] at valid
        exact ⟨fine, .inl ⟨rfl, rfl, valid.symm⟩⟩
      | some expected => simp [validateExpected, opened] at valid
    · simp only [validateExpected, opened] at valid
      cases error <;> simp_all
  | ok current =>
    obtain ⟨fine, rfl, single⟩ := openVerified_ok opened
    cases expected with
    | none => simp [validateExpected, opened] at valid
    | some expected =>
      simp only [validateExpected, opened] at valid
      split_ifs at valid with read digest
      cases valid
      exact ⟨fine, .inr ⟨current, rfl, single, by simpa using Eq.symm (by simpa using digest), rfl,
        by simpa using read⟩⟩

theorem writeTorn_existing {current : File} (single : current.links = 1)
    (early : goThrough fails [.parents, .openTarget, .readTarget, .createTemporary,
      .fillTemporary, .identifyTemporary] = true) :
    writeTorn hexDigest fails content (some (hexDigest current.bytes)) (some current) =
      (goThrough fails [.reopenTarget, .identifyTarget, .rereadTarget, .renameTarget] &&
        (leftAway fails || !fails .linkTarget && (fails .removeBackup || failsLate fails) &&
          content != current.bytes)) := by
  simp only [goThrough, List.all_cons, List.all_nil, Bool.and_true, Bool.and_eq_true] at early
  simp only [writeTorn, single, goThrough, List.all_cons, List.all_nil, early, beq_self_eq_true,
    Bool.true_and]

/-- A torn write went at least as far as the publication. -/
theorem writeTorn_prepared {expected : Option String}
    (torn : writeTorn hexDigest fails content expected target = true) :
    fails .parents = false ∧
      (∃ created, validateExpected hexDigest shown fails target expected = .ok created) ∧
      fails .createTemporary = false ∧ fails .fillTemporary = false ∧
      fails .identifyTemporary = false := by
  cases target with
  | none =>
    cases expected with
    | none => simp_all [writeTorn, goThrough, validateExpected, openVerified]
    | some expected => cases torn
  | some current =>
    cases expected with
    | none => cases torn
    | some expected => simp_all [writeTorn, goThrough, validateExpected, openVerified]

/-- What comes of a write: the new content under one name, the content as it was, or an error
that leaves the target torn. -/
inductive Written (torn : Bool) (content : Bytes) (target : Option File) :
    Except RemoteFileError Bool × Site → Prop where
  | done {created : Bool} {site : Site} (new : site.target = some ⟨content, 1⟩) :
      Written torn content target (.ok created, site)
  | kept {error : RemoteFileError} {site : Site} (same : contentOf site.target = contentOf target)
      (whole : torn = false) : Written torn content target (.error error, site)
  | lost {error : RemoteFileError} {site : Site} (broken : torn = true)
      (differs : contentOf site.target ≠ contentOf target)
      (seen : contentOf site.target = none ∨ contentOf site.target = some content) :
      Written torn content target (.error error, site)

/-- What follows the publication keeps the new content where it is. -/
theorem concludeWrite_published {created : Bool}
    {torn : Bool} (new : site.target = some ⟨content, 2⟩)
    (late : failsLate fails = true → (torn = true ↔ contentOf target ≠ some content)) :
    Written torn content target (concludeWrite fails created (.ok (), site)) := by
  have shown : contentOf site.target = some content := by rw [new]; rfl
  cases broken : failsLate fails with
  | true =>
    have failed : ∃ error, concludeWrite fails created (.ok (), site) = (.error error, site) := by
      simp only [concludeWrite]
      split_ifs with check removed
      · exact ⟨_, rfl⟩
      · exact ⟨_, rfl⟩
      · simp_all [failsLate]
    obtain ⟨error, failed⟩ := failed
    rw [failed]
    by_cases same : contentOf target = some content
    · exact .kept (by rw [shown, same]) (by simpa [same] using late broken)
    · exact .lost ((late broken).mpr same) (by rw [shown]; exact Ne.symm same) (.inr shown)
  | false =>
    simp only [failsLate, Bool.or_eq_false_iff] at broken
    simp only [concludeWrite, broken, Bool.or_self, Bool.false_eq_true, if_false]
    exact .done (by simp [Site.dropTemporary, new])

theorem concludeWrite_failed {created : Bool} {error : RemoteFileError} {torn : Bool}
    (left : contentOf site.target = contentOf target ∧ torn = false ∨
      torn = true ∧ contentOf site.target ≠ contentOf target ∧
        (contentOf site.target = none ∨ contentOf site.target = some content)) :
    Written torn content target (concludeWrite fails created (.error error, site)) := by
  have same : contentOf (if fails .removeTemporary then site else site.dropTemporary).target =
      contentOf site.target := by
    split_ifs
    · rfl
    · simp [contentOf, Site.dropTemporary, Function.comp_def]
  rw [← same] at left
  obtain ⟨same, whole⟩ | ⟨broken, differs, seen⟩ := left
  · exact .kept same whole
  · exact .lost broken differs seen

theorem write_cases (hexDigest : Bytes → String) (shown : String) (fails : FileCall → Bool)
    (content : Bytes) (expected : Option String) (target : Option File) :
    Written (writeTorn hexDigest fails content expected target) content target
      (write hexDigest shown fails content expected target) := by
  by_cases prepared : fails .parents = false ∧
      (∃ created, validateExpected hexDigest shown fails target expected = .ok created) ∧
      fails .createTemporary = false ∧ fails .fillTemporary = false ∧
      fails .identifyTemporary = false
  · obtain ⟨parents, ⟨created, valid⟩, create, fill, identify⟩ := prepared
    simp only [write, parents, valid, create, fill, identify, Bool.or_self, Bool.false_eq_true,
      if_false]
    obtain ⟨opened, ⟨rfl, rfl, rfl⟩ | ⟨current, rfl, single, rfl, rfl, read⟩⟩ :=
      validateExpected_ok valid
    · rw [if_pos rfl, publishNew_absent rfl]
      cases linked : fails .linkTarget with
      | true => exact concludeWrite_failed (.inl ⟨rfl, by simp [writeTorn, goThrough, linked]⟩)
      | false =>
        refine concludeWrite_published rfl fun late => ?_
        simp [writeTorn, goThrough, parents, opened, create, fill, identify, linked, late, contentOf]
    · simp only [Bool.false_eq_true, if_false, Option.getD_some]
      have early : goThrough fails [.parents, .openTarget, .readTarget, .createTemporary,
          .fillTemporary, .identifyTemporary] = true := by
        simp [goThrough, parents, opened, read, create, fill, identify]
      have present : { Site.alone (some current) with temporary := true }.target = some current := rfl
      have published := publishExisting_cases hexDigest shown fails content present single
      generalize publishExisting hexDigest shown fails content (hexDigest current.bytes) _ = result
        at published
      rw [writeTorn_existing single early]
      cases published with
      | kept same early =>
        refine concludeWrite_failed (.inl ⟨by rw [same], ?_⟩)
        obtain early | ⟨back, linked⟩ := early
        · rw [early, Bool.false_and]
        · simp [back, linked]
      | away gone reached left =>
        refine concludeWrite_failed (.inr ⟨by rw [reached, left]; rfl, ?_, .inl (by rw [gone]; rfl)⟩)
        rw [gone]
        exact nofun
      | replaced new reached back linked removed =>
        have decided : (leftAway fails || !fails .linkTarget &&
            (fails .removeBackup || failsLate fails) && content != current.bytes) =
            ((fails .removeBackup || failsLate fails) && content != current.bytes) := by
          rw [back, linked]; rfl
        rw [reached, decided, Bool.true_and]
        cases remove : fails .removeBackup with
        | true =>
          rw [removed, remove, if_pos rfl]
          apply concludeWrite_failed
          by_cases same : content = current.bytes
          · exact .inl ⟨by rw [new, same]; rfl, by simp [same]⟩
          · exact .inr ⟨by simp [same], by simp [new, contentOf, same], .inr (by rw [new]; rfl)⟩
        | false =>
          rw [removed, remove, if_neg Bool.false_ne_true]
          refine concludeWrite_published new fun late => ?_
          simp only [late, contentOf, Bool.or_true, Bool.true_and, bne_iff_ne, ne_eq,
            Option.map_some, Option.some.injEq]
          exact not_congr eq_comm
  · have whole : writeTorn hexDigest fails content expected target = false := by
      rw [Bool.eq_false_iff]
      exact fun torn => prepared (writeTorn_prepared torn)
    rw [whole]
    cases parents : fails .parents with
    | true =>
      simp only [write, parents, if_true]
      exact .kept rfl rfl
    | false =>
      cases valid : validateExpected hexDigest shown fails target expected with
      | error error =>
        simp only [write, parents, valid, Bool.false_eq_true, if_false]
        exact .kept rfl rfl
      | ok created =>
        simp only [write, parents, valid, Bool.false_eq_true, if_false]
        by_cases create : fails .createTemporary = true
        · rw [if_pos create]
          exact .kept rfl rfl
        rw [if_neg create]
        by_cases fill : (fails .fillTemporary || fails .identifyTemporary) = true
        · rw [if_pos fill]
          exact .kept rfl rfl
        simp only [Bool.or_eq_true, not_or, Bool.not_eq_true] at create fill
        exact absurd ⟨parents, ⟨created, valid⟩, create, fill.1, fill.2⟩ prepared

/-- A write that may not replace anything and fails leaves nothing new that can be opened. -/
theorem write_new_error {error : RemoteFileError}
    (failed : (write hexDigest shown fails content none target).1 = .error error) :
    (write hexDigest shown fails content none target).2.target = target ∨
      (write hexDigest shown fails content none target).2.target = some ⟨content, 2⟩ := by
  cases parents : fails .parents with
  | true =>
    simp only [write, parents, if_true]
    exact .inl rfl
  | false =>
    cases valid : validateExpected hexDigest shown fails target none with
    | error error =>
      simp only [write, parents, valid, Bool.false_eq_true, if_false]
      exact .inl rfl
    | ok created =>
      obtain ⟨-, ⟨rfl, -, rfl⟩ | ⟨current, -, -, impossible, -⟩⟩ := validateExpected_ok valid
      · simp only [write, parents, valid, Bool.false_eq_true, if_false] at failed ⊢
        by_cases create : fails .createTemporary = true
        · rw [if_pos create]
          exact .inl rfl
        rw [if_neg create] at failed ⊢
        by_cases fill : (fails .fillTemporary || fails .identifyTemporary) = true
        · rw [if_pos fill]
          exact .inl rfl
        rw [if_neg fill, if_pos trivial, publishNew_absent rfl] at failed ⊢
        cases linked : fails .linkTarget with
        | true =>
          simp only [if_true, concludeWrite]
          split_ifs
          · exact .inl rfl
          · exact .inl rfl
        | false =>
          simp only [linked, Bool.false_eq_true, if_false, concludeWrite] at failed ⊢
          split_ifs at failed ⊢
          · exact .inr rfl
          · exact .inr rfl
      · cases impossible

/-! ## Deleting -/

/-- What comes of a delete: the target is gone, it is as it was, or an error that leaves it
moved away. -/
inductive Deleted (torn : Bool) (target : Option File) :
    Except RemoteFileError Unit × Site → Prop where
  | done {site : Site} (gone : site.target = none) : Deleted torn target (.ok (), site)
  | kept {error : RemoteFileError} {site : Site} (same : site.target = target)
      (whole : torn = false) : Deleted torn target (.error error, site)
  | lost {error : RemoteFileError} {site : Site} (broken : torn = true) (there : target ≠ none)
      (gone : site.target = none) : Deleted torn target (.error error, site)

theorem delete_cases (hexDigest : Bytes → String) (shown : String) (fails : FileCall → Bool)
    (expected : String) (target : Option File) :
    Deleted (deleteTorn hexDigest fails expected target) target
      (delete hexDigest shown fails expected target) := by
  cases parents : fails .parents with
  | true =>
    simp only [delete, parents, if_true]
    exact .kept rfl (by cases target <;> simp [deleteTorn, goThrough, parents])
  | false =>
    cases opened : openVerified shown fails .openTarget target with
    | error error =>
      simp only [delete, parents, opened, Bool.false_eq_true, if_false]
      refine .kept rfl ?_
      cases target with
      | none => rfl
      | some current =>
        rw [Bool.eq_false_iff]
        intro torn
        simp only [deleteTorn, goThrough, List.all_cons, Bool.and_eq_true, Bool.not_eq_true',
          beq_iff_eq] at torn
        rw [openVerified_present torn.1.2.2.1 torn.1.1.1] at opened
        cases opened
    | ok current =>
      obtain ⟨fine, rfl, single⟩ := openVerified_ok opened
      simp only [delete, parents, opened, Bool.false_eq_true, if_false]
      split_ifs with identify digest rename backup remove
      · exact .kept rfl (by grind [deleteTorn, goThrough])
      · exact .kept rfl (by grind [deleteTorn, goThrough])
      · exact .kept rfl (by grind [deleteTorn, goThrough])
      · exact .lost (by grind [deleteTorn, goThrough]) (by simp) rfl
      · cases restore : fails .restoreBackup with
        | true =>
          exact .lost (by grind [deleteTorn, goThrough]) (by simp)
            (by simp [restoreOrPreserve, restore])
        | false =>
          exact .kept (by simp [restoreOrPreserve, restore]) (by grind [deleteTorn, goThrough])
      · exact .done rfl

theorem delete_ok {expected : String}
    (done : delete hexDigest shown fails expected target = (.ok (), site)) :
    site = Site.alone none ∧ some expected = hashOf hexDigest target ∧
      deleteTorn hexDigest fails expected target = false := by
  cases opened : openVerified shown fails .openTarget target with
  | error error =>
    simp only [delete, opened] at done
    split_ifs at done
    · cases done
    · cases done
  | ok current =>
    obtain ⟨-, rfl, -⟩ := openVerified_ok opened
    simp only [delete, opened, ite_eq_iff, Prod.mk.injEq, reduceCtorEq, false_and,
      and_false, false_or, true_and] at done
    obtain ⟨-, -, digest, -, backup, -, removal, rfl⟩ := done
    simp only [Bool.or_eq_true, not_or, Bool.not_eq_true] at backup removal
    have same : hexDigest current.bytes = expected := by simpa using digest
    exact ⟨rfl, by rw [← same]; rfl, by simp [deleteTorn, backup, removal]⟩

end Operations

end CodexRemote.Verified.Checkpoints

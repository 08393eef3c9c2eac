import CodexRemote.Store.Queue.Fork.Handoff
import CodexRemote.Verified.Queue.Moves

/-! # What the fork operations do to a handoff

A handoff that is ambiguous, or whose target was observed, is pinned: it stays in the table, and no
operation takes back its mark, its observed target or its final one.
-/

namespace CodexRemote.Verified.ForkHandoff

open Foundations Store Store.Fork Verified.Queue

/-- A later row of the same handoff -/
structure Follows (earlier later : ForkHandoff) : Prop where
  handoffId : later.handoffId = earlier.handoffId
  ambiguousJobId : later.ambiguousJobId = earlier.ambiguousJobId
  sourceThreadId : later.sourceThreadId = earlier.sourceThreadId
  expectedGeneration : later.expectedGeneration = earlier.expectedGeneration
  ambiguous : earlier.forkFailureAmbiguous = true → later.forkFailureAmbiguous = true
  observed : ∀ target, earlier.observedTargetThreadId = some target →
    later.observedTargetThreadId = some target
  final : ∀ target, earlier.targetThreadId = some target → later.targetThreadId = some target ∧
    later.completedGeneration = earlier.completedGeneration

theorem Follows.refl (handoff : ForkHandoff) : Follows handoff handoff :=
  ⟨rfl, rfl, rfl, rfl, fun marked => marked, fun _ seen => seen, fun _ done => ⟨done, rfl⟩⟩

theorem Follows.trans {a b c : ForkHandoff} (left : Follows a b) (right : Follows b c) :
    Follows a c where
  handoffId := right.handoffId.trans left.handoffId
  ambiguousJobId := right.ambiguousJobId.trans left.ambiguousJobId
  sourceThreadId := right.sourceThreadId.trans left.sourceThreadId
  expectedGeneration := right.expectedGeneration.trans left.expectedGeneration
  ambiguous marked := right.ambiguous (left.ambiguous marked)
  observed target seen := right.observed target (left.observed target seen)
  final target done := by
    obtain ⟨done, same⟩ := left.final target done
    obtain ⟨still, again⟩ := right.final target done
    exact ⟨still, again.trans same⟩

/-- Ambiguous, or with an observed target -/
def Pinned (handoff : ForkHandoff) : Prop :=
  handoff.forkFailureAmbiguous = true ∨ handoff.observedTargetThreadId.isSome = true

theorem Follows.pinned {earlier later : ForkHandoff} (follows : Follows earlier later)
    (pinned : Pinned earlier) : Pinned later := by
  obtain marked | seen := pinned
  · exact Or.inl (follows.ambiguous marked)
  · obtain ⟨target, seen⟩ := Option.isSome_iff_exists.1 seen
    exact Or.inr (Option.isSome_iff_exists.2 ⟨target, follows.observed target seen⟩)

/-- What the checks of the table and of `begin` say of a row -/
structure SoundRow (handoff : ForkHandoff) : Prop where
  final : ∀ target, handoff.targetThreadId = some target →
    handoff.observedTargetThreadId = some target
  named : validIdentity handoff.handoffId = true

abbrev Handoffs := Table ForkHandoff.handoffId

def Sound (handoffs : Handoffs) : Prop := ∀ handoff ∈ handoffs.rows, SoundRow handoff

/-- Pinned handoffs stay and only move on; sound rows stay sound. -/
structure Kept (before after : Handoffs) : Prop where
  pinned : ∀ handoffId handoff, before.find handoffId = some handoff → Pinned handoff →
    ∃ later, after.find handoffId = some later ∧ Follows handoff later
  sound : Sound before → Sound after

theorem Kept.refl (handoffs : Handoffs) : Kept handoffs handoffs :=
  ⟨fun _ handoff found _ => ⟨handoff, found, .refl handoff⟩, fun sound => sound⟩

theorem Kept.trans {a b c : Handoffs} (left : Kept a b) (right : Kept b c) : Kept a c where
  pinned handoffId handoff found pinned := by
    obtain ⟨middle, there, follows⟩ := left.pinned handoffId handoff found pinned
    obtain ⟨later, here, again⟩ := right.pinned handoffId middle there (follows.pinned pinned)
    exact ⟨later, here, follows.trans again⟩
  sound sound := right.sound (left.sound sound)

variable {count : Nat} {now : Rat}

section

variable {ρ : Type} {hooks : QueueHooks ρ} {forks : ForkHooks ρ} {db next : QueueDb ρ}
  {handoffId : String} {handoff : ForkHandoff}

theorem Kept.of_eq (same : next.handoffs = db.handoffs) : Kept db.handoffs next.handoffs := by
  rw [same]
  exact .refl _

/-! ## The statements of the table -/

theorem updateHandoff_kept {condition : ForkHandoff → Bool} {assign : ForkHandoff → ForkHandoff}
    {keeps : ∀ h, (assign h).handoffId = h.handoffId}
    (statement : updateHandoff db handoffId condition assign keeps = (count, next))
    (follows : ∀ h, condition h = true → Follows h (assign h))
    (sound : ∀ h, condition h = true → SoundRow h → SoundRow (assign h)) :
    Kept db.handoffs next.handoffs := by
  cases statement
  constructor
  · intro other row found _
    rw [Table.find_update, found, Option.map_some]
    refine ⟨_, rfl, ?_⟩
    split
    · next selected => exact follows row (Bool.and_eq_true_iff.1 selected).2
    · exact .refl row
  · intro before row member
    simp only [Table.update, List.mem_map] at member
    obtain ⟨old, there, rfl⟩ := member
    split
    · next selected => exact sound old (Bool.and_eq_true_iff.1 selected).2 (before old there)
    · exact before old there

/-- An update that changed one row changed the row it names. -/
theorem updateHandoff_one {condition : ForkHandoff → Bool} {assign : ForkHandoff → ForkHandoff}
    {keeps : ∀ h, (assign h).handoffId = h.handoffId}
    (statement : updateHandoff db handoffId condition assign keeps = (1, next)) :
    ∃ handoff, db.handoffs.find handoffId = some handoff ∧ condition handoff = true ∧
      next.handoffs.find handoffId = some (assign handoff) := by
  have named : ∀ h : ForkHandoff, (h.handoffId == handoffId && condition h) = true →
      h.handoffId = handoffId := fun h selected => beq_iff_eq.1 (Bool.and_eq_true_iff.1 selected).1
  obtain ⟨one, rfl⟩ := Prod.mk.inj statement
  obtain ⟨zero, _⟩ | ⟨_, row, found, selected, after, _⟩ :=
    @Table.update_keyed _ _ _ _ db.handoffs _ assign keeps _ named
  · exact absurd (zero.symm.trans one) Nat.zero_ne_one
  · exact ⟨row, found, (Bool.and_eq_true_iff.1 selected).2, after⟩

theorem recordForkFailure_kept {error : String} {ambiguous : Bool}
    (statement : recordForkFailure db handoffId error ambiguous = (count, next)) :
    Kept db.handoffs next.handoffs := by
  refine updateHandoff_kept statement (fun h _ => ?_) (fun h _ row => ⟨row.final, row.named⟩)
  refine ⟨rfl, rfl, rfl, rfl, fun marked => ?_, fun _ seen => seen, fun _ done => ⟨done, rfl⟩⟩
  simp only [marked, Bool.true_or]

theorem markTargetObserved_kept {target : String}
    (statement : markTargetObserved db handoffId target = (count, next)) :
    Kept db.handoffs next.handoffs := by
  -- nothing was observed before, so nothing observed is replaced
  have fresh : ∀ h : ForkHandoff, unobserved h = true →
      h.observedTargetThreadId = none ∧ h.targetThreadId = none := by
    intro h open_
    simpa only [unobserved, Bool.and_eq_true, Option.isNone_iff_eq_none] using open_
  refine updateHandoff_kept statement (fun h open_ => ?_) (fun h open_ row => ⟨?_, row.named⟩)
  · refine ⟨rfl, rfl, rfl, rfl, fun marked => marked, fun _ seen => ?_, fun _ done => ⟨done, rfl⟩⟩
    rw [(fresh h open_).1] at seen
    cases seen
  · intro final done
    have none_ : h.targetThreadId = none := (fresh h open_).2
    have done : h.targetThreadId = some final := done
    rw [none_] at done
    cases done

theorem markCompleted_ok {target : String} {generation : Int}
    (result : markCompleted db handoffId target generation = .ok next) :
    Kept db.handoffs next.handoffs ∧ next = { db with handoffs := next.handoffs } ∧
      ∃ handoff, db.handoffs.find handoffId = some handoff ∧
        next.handoffs.find handoffId = some { handoff with
          targetThreadId := some target
          completedGeneration := some generation } := by
  rw [markCompleted] at result
  generalize statement : updateHandoff db handoffId _ _ _ = answer at result
  obtain ⟨count, after⟩ := answer
  obtain ⟨_, failed⟩ | ⟨one, result⟩ := ite_ok.1 result
  · cases failed
  cases result
  have open_ : ∀ h : ForkHandoff,
      (h.targetThreadId.isNone && h.observedTargetThreadId == some target) = true →
        h.targetThreadId = none ∧ h.observedTargetThreadId = some target := by
    intro h selected
    simpa only [Bool.and_eq_true, Option.isNone_iff_eq_none, beq_iff_eq] using selected
  refine ⟨updateHandoff_kept statement (fun h selected => ?_) (fun h selected row => ?_), ?_, ?_⟩
  · refine ⟨rfl, rfl, rfl, rfl, fun marked => marked, fun _ seen => seen, fun _ done => ?_⟩
    rw [(open_ h selected).1] at done
    cases done
  · refine ⟨fun final done => ?_, row.named⟩
    cases done
    exact (open_ h selected).2
  · cases statement
    rfl
  · rw [not_not.1 (mt bne_iff_ne.2 one)] at statement
    obtain ⟨row, found, _, after⟩ := updateHandoff_one statement
    exact ⟨row, found, after⟩

/-- A delete of an unobserved handoff that is not ambiguous touches nothing pinned. -/
theorem cancelUnobserved_kept (statement : cancelUnobserved db handoffId = (count, next))
    (unmarked : ∀ h, db.handoffs.find handoffId = some h → h.forkFailureAmbiguous = false) :
    Kept db.handoffs next.handoffs := by
  cases statement
  constructor
  · intro other row found pinned
    refine ⟨row, ?_, .refl row⟩
    rw [Table.find_delete, found, Option.filter_some]
    split
    · rfl
    · next selected =>
      exfalso
      simp only [Bool.not_eq_true', Bool.not_eq_false, Bool.and_eq_true, beq_iff_eq] at selected
      obtain ⟨same, open_⟩ := selected
      simp only [unobserved, Bool.and_eq_true, Option.isNone_iff_eq_none] at open_
      obtain marked | seen := pinned
      · have key := Table.find_key found
        rw [← key, same] at found
        rw [unmarked row found] at marked
        cases marked
      · rw [open_.1] at seen
        cases seen
  · intro sound row member
    simp only [Table.delete, List.mem_filter] at member
    exact sound row member.1

theorem byIdOr_ok {source : String} (result : byIdOr db handoffId source = .ok handoff) :
    db.handoffs.find handoffId = some handoff := by
  rw [byIdOr, byId] at result
  cases found : db.handoffs.find handoffId with
  | none =>
    rw [found] at result
    cases result
  | some other =>
    rw [found] at result
    cases result
    rfl

/-! ## What leaves the table alone -/

theorem insertNotice_frame {notice : OutboxNotice}
    (result : insertNotice hooks db notice = .ok next) : next.handoffs = db.handoffs ∧
      next.jobs = db.jobs ∧
      ∀ jobId, next.archive.frozen .turnQueue jobId = db.archive.frozen .turnQueue jobId := by
  rw [insertNotice] at result
  split at result
  · cases result
  · split at result
    · cases result
      exact ⟨rfl, rfl, fun _ => rfl⟩
    · split at result
      · cases result
      · cases result
        refine ⟨rfl, rfl, fun jobId => ?_⟩
        -- what is captured is a notice, not a job
        simp only [Archive.frozen, Archive.capture, List.any_append, Bool.or_eq_left_iff_imp,
          List.any_filter, List.any_map, List.any_eq_true, Function.comp_apply]
        rintro ⟨_, _, selected⟩
        simp only [reduceCtorEq, Bool.and_eq_true, beq_iff_eq, false_and, and_false] at selected

theorem insertNoticeOnce_frame {notice : OutboxNotice}
    (result : insertNoticeOnce hooks db notice = .ok next) : next.handoffs = db.handoffs ∧
      next.jobs = db.jobs ∧
      ∀ jobId, next.archive.frozen .turnQueue jobId = db.archive.frozen .turnQueue jobId := by
  rw [insertNoticeOnce] at result
  split at result
  · cases result
  · split at result
    · cases result
      exact ⟨rfl, rfl, fun _ => rfl⟩
    · exact insertNotice_frame result

theorem refreshNotice_handoffs {deliveryId content : String}
    (result : refreshNotice hooks db deliveryId content now = .ok next) :
    next.handoffs = db.handoffs := by
  simp only [refreshNotice] at result
  split at result
  · cases result
  · cases result
    rfl

theorem stageNotice_handoffs {notice : OutboxNotice} {staged : Bool}
    (result : stageNotice hooks db notice staged = .ok next) : next.handoffs = db.handoffs := by
  rw [stageNotice] at result
  split at result
  · exact refreshNotice_handoffs result
  · exact (insertNoticeOnce_frame result).1

theorem markJob_handoffs {source marker : String} {row : QueueRow}
    (result : markJob hooks source row marker now db = .ok next) : next.handoffs = db.handoffs := by
  obtain ⟨⟨updated, middle⟩, statement, result⟩ := bind_ok.1 result
  obtain ⟨_, result⟩ | ⟨_, failed⟩ := ite_ok.1 result
  · cases result
    obtain ⟨_, same⟩ | ⟨_, same, _⟩ := updateJob_ok (ofStore_ok.1 statement)
    · rw [same]
    · rw [same]
  · cases failed

theorem updateIntakes_handoffs {condition : PromptIntake → Bool}
    {assign : PromptIntake → PromptIntake} {keeps : ∀ r, (assign r).jobId = r.jobId}
    (result : updateIntakes hooks db condition assign keeps = .ok (count, next)) :
    next.handoffs = db.handoffs ∧ next.jobs = db.jobs ∧ next.archive = db.archive := by
  simp only [updateIntakes] at result
  split at result
  · cases result
  · cases result
    exact ⟨rfl, rfl, rfl⟩

theorem markIntake_handoffs {source marker : String} {row : PromptIntake}
    (result : markIntake hooks source row marker now db = .ok next) :
    next.handoffs = db.handoffs := by
  obtain ⟨⟨updated, middle⟩, statement, result⟩ := bind_ok.1 result
  obtain ⟨_, result⟩ | ⟨_, failed⟩ := ite_ok.1 result
  · cases result
    exact (updateIntakes_handoffs (ofStore_ok.1 statement)).1
  · cases failed

/-- A loop whose steps leave the handoffs alone leaves them alone. -/
theorem foldlM_handoffs {α : Type} {step : QueueDb ρ → α → Except ForkHandoffError (QueueDb ρ)}
    (each : ∀ s a t, step s a = .ok t → t.handoffs = s.handoffs) {items : List α}
    (result : items.foldlM step db = .ok next) : next.handoffs = db.handoffs := by
  exact foldlM_ok (R := fun s t : QueueDb ρ => t.handoffs = s.handoffs) (fun _ => rfl)
    (fun left right => right.trans left) each result

theorem stageUnresolvedNotices_handoffs {error : String} {phase : FailurePhase}
    (result : stageUnresolvedNotices hooks handoff error phase now db = .ok next) :
    next.handoffs = db.handoffs := by
  obtain ⟨middle, jobs, intakes⟩ := bind_ok.1 result
  have first : middle.handoffs = db.handoffs := by
    refine foldlM_handoffs (fun s row t step => ?_) jobs
    obtain ⟨marked, mark, step⟩ := bind_ok.1 step
    exact (stageNotice_handoffs (ofStore_ok.1 step)).trans (markJob_handoffs mark)
  have second : next.handoffs = middle.handoffs := by
    refine foldlM_handoffs (fun s row t step => ?_) intakes
    obtain ⟨marked, mark, step⟩ := bind_ok.1 step
    exact (stageNotice_handoffs (ofStore_ok.1 step)).trans (markIntake_handoffs mark)
  exact second.trans first

theorem stageDefiniteNotices_handoffs {error : String}
    (result : stageDefiniteNotices hooks handoff error now db = .ok (count, next)) :
    next.handoffs = db.handoffs := by
  obtain ⟨after, told, same⟩ := map_ok.1 result
  cases same
  refine foldlM_handoffs (fun s row t step => ?_) told
  obtain ⟨marked, mark, step⟩ := bind_ok.1 step
  exact (insertNoticeOnce_frame (ofStore_ok.1 step)).1.trans (markJob_handoffs mark)

end

end CodexRemote.Verified.ForkHandoff

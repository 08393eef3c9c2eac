import CodexRemote.Foundations.Runs
import CodexRemote.Verified.DeliveryReceipt.Slot

/-! # What a receipt operation does to a slot

Events are the calls with their answers.  The inversion theorem at the end says
everything one step can do to one slot; the run theorems only use that.
-/

namespace CodexRemote.Verified.DeliveryReceipt

open Foundations Store

inductive ReceiptEvent where
  | began (key contentHash : String) (answer : Except StoreError ReceiptState)
  | confirmed (key messageId : String) (answer : Except StoreError Bool)
  | released (key : String) (answer : Except StoreError Bool)
  | blocked (key reason : String) (answer : Except StoreError Bool)
  | restarted
  | elsewhere

def ReceiptEvent.key? : ReceiptEvent → Option String
  | .began key _ _ => some key
  | .confirmed key _ _ => some key
  | .released key _ => some key
  | .blocked key _ _ => some key
  | .restarted => none
  | .elsewhere => none

def ReceiptEvent.failed : ReceiptEvent → Prop
  | .began _ _ (.error _) => True
  | .confirmed _ _ (.error _) => True
  | .released _ (.error _) => True
  | .blocked _ _ (.error _) => True
  | _ => False

variable {ρ : Type}

/-- One call on the store, with whatever checks and hooks it meets.  A call may also
fail in SQLite itself, and other parts of the program may write other tables and
archive rooms at any time. -/
inductive ReceiptStep : ReceiptDb ρ → ReceiptEvent → ReceiptDb ρ → Prop where
  | began {db next : ReceiptDb ρ} (hooks : ReceiptHooks ρ) (key contentHash : String)
      {answer : Except StoreError ReceiptState}
      (call : beginGuarded hooks key contentHash db = (answer, next)) :
      ReceiptStep db (.began key contentHash answer) next
  | confirmed {db next : ReceiptDb ρ} (hooks : ReceiptHooks ρ) (key messageId : String)
      {answer : Except StoreError Bool} (call : confirm hooks key messageId db = (answer, next)) :
      ReceiptStep db (.confirmed key messageId answer) next
  | released {db next : ReceiptDb ρ} (hooks : ReceiptHooks ρ) (key : String)
      {answer : Except StoreError Bool} (call : releaseRejected hooks key db = (answer, next)) :
      ReceiptStep db (.released key answer) next
  | blocked {db next : ReceiptDb ρ} (key reason : String) {answer : Except StoreError Bool}
      (call : blockRejected key reason db = (answer, next)) :
      ReceiptStep db (.blocked key reason answer) next
  | failed (db : ReceiptDb ρ) (event : ReceiptEvent) (error : event.failed) :
      ReceiptStep db event db
  | restarted (db : ReceiptDb ρ) : ReceiptStep db .restarted db
  | elsewhere (db : ReceiptDb ρ) (archive : Archive) (rest : ρ)
      (evidence : db.archive.Extends archive) :
      ReceiptStep db .elsewhere { db with archive := archive, rest := rest }

abbrev ReceiptRun (db : ReceiptDb ρ) (events : List ReceiptEvent) (next : ReceiptDb ρ) : Prop :=
  Run ReceiptStep db events next

/-- The moves of the slot of `key`, where `retired` says whether its row is archived. -/
inductive SlotMove (key : String) (retired : Bool) : Slot → ReceiptEvent → Slot → Prop where
  | other {slot : Slot} {event : ReceiptEvent} (elsewhere : event.key? ≠ some key) :
      SlotMove key retired slot event slot
  | failed {slot : Slot} {event : ReceiptEvent} (error : event.failed) :
      SlotMove key retired slot event slot
  | held {slot : Slot} {contentHash reason : String} :
      SlotMove key retired slot (.began key contentHash (.ok (.held reason))) slot
  | claim {slot next : Slot} {contentHash : String} {answer : ReceiptState}
      (live : retired = false) (claimed : slot.claim key contentHash = (answer, next)) :
      SlotMove key retired slot (.began key contentHash (.ok answer)) next
  | refused {slot : Slot} {event : ReceiptEvent}
      (negative : event = .released key (.ok false) ∨ (∃ reason, event = .blocked key reason (.ok false)) ∨
        (∃ messageId, event = .confirmed key messageId (.ok false))) :
      SlotMove key retired slot event slot
  | evidence {slot : Slot} {messageId : String} (archived : retired = true) :
      SlotMove key retired slot (.confirmed key messageId (.ok true)) slot
  | confirm {row : ReceiptRow} {messageId : String} (live : retired = false)
      (open_ : row.messageId = none ∨ row.messageId = some messageId) :
      SlotMove key retired (some row) (.confirmed key messageId (.ok true))
        (some { row with messageId := some messageId })
  | release {row : ReceiptRow} (unsent : row.messageId = none) (unblocked : row.blockedReason = none) :
      SlotMove key retired (some row) (.released key (.ok true)) (some { row with retryable := true })
  | block {row : ReceiptRow} {reason text : String} (unsent : row.messageId = none) :
      SlotMove key retired (some row) (.blocked key reason (.ok true))
        (some { row with blockedReason := some text, retryable := false })

/-! ## Begin -/

variable {db next : ReceiptDb ρ} {hooks : ReceiptHooks ρ} {key : String} {answer : Bool}

theorem beginGuardedIn_ok {contentHash : String} {answer : ReceiptState}
    (result : beginGuardedIn hooks key contentHash db = .ok (answer, next)) :
    answer.isHeld = true ∨
      (db.archive.recordRetired .deliveryReceipts key = false ∧
        claimReceipt hooks db key contentHash = .ok (answer, next)) := by
  unfold beginGuardedIn at result
  simp only at result
  split at result
  · simp only [Except.ok.injEq, Prod.mk.injEq] at result
    exact Or.inl (by rw [← result.1]; rfl)
  · next open_ =>
    have free : db.archive.recordRetired .deliveryReceipts key = false := by
      simp only [Bool.or_eq_true, not_or, Bool.not_eq_true] at open_
      exact open_.2
    obtain ⟨retired, _, result⟩ := bind_ok.1 result
    cases retired with
    | true =>
      simp only [if_true, Except.ok.injEq, Prod.mk.injEq] at result
      exact Or.inl (by rw [← result.1]; rfl)
    | false =>
      simp only [Bool.false_eq_true, if_false] at result
      obtain ⟨_, _, result⟩ := bind_ok.1 result
      obtain ⟨hold, _, result⟩ := bind_ok.1 result
      cases hold with
      | some reason =>
        simp only [Except.ok.injEq, Prod.mk.injEq] at result
        exact Or.inl (by rw [← result.1]; rfl)
      | none => exact Or.inr ⟨free, result⟩

theorem Slot.claim_not_held (slot : Slot) (key contentHash : String) :
    (slot.claim key contentHash).1.isHeld = false := by
  cases slot with
  | none => rfl
  | some row =>
    by_cases licensed : row.contentHash = contentHash ∧ Slot.licensed (some row)
    · rw [Slot.claim_licensed licensed.1 licensed.2]
      rfl
    · rw [Slot.claim_unlicensed licensed]
      obtain ⟨_, hash, message, _, blocked⟩ := row
      by_cases same : hash = contentHash
      · cases message <;> cases blocked <;> simp [claimAnswer, same, ReceiptState.isHeld]
      · simp [claimAnswer, same, ReceiptState.isHeld]

theorem beginGuarded_spec {contentHash : String} {answer : ReceiptState}
    (call : beginGuarded hooks key contentHash db = (.ok answer, next)) :
    (answer.isHeld = true ∧ next = db) ∨
      (db.archive.recordRetired .deliveryReceipts key = false ∧
        answer = ((slotOf db key).claim key contentHash).1 ∧
        slotOf next key = ((slotOf db key).claim key contentHash).2 ∧ OnlySlot key db next) := by
  obtain ⟨body, result, kept⟩ := commitWhen_ok call
  rcases beginGuardedIn_ok result with held | ⟨free, claimed⟩
  · exact Or.inl ⟨held, by simpa [held] using kept⟩
  · obtain ⟨same, slot, only⟩ := claimReceipt_ok free claimed
    have committed : next = body := by
      rw [kept, same, Slot.claim_not_held]
      rfl
    exact Or.inr ⟨free, same, committed ▸ slot, committed ▸ only⟩

/-! ## Confirm, release and block -/

/-- A guarded update of one receipt, whose follow-up writes other tables. -/
theorem updateReceipt_spec (db : ReceiptDb ρ) (key : String) (condition : ReceiptRow → Bool)
    (assign : ReceiptRow → ReceiptRow) (keeps : ∀ r, (assign r).receiptKey = r.receiptKey) :
    ((updateReceipt db key condition assign keeps).1 = true ∧ ∃ row, slotOf db key = some row ∧
        condition row ∧
        slotOf (updateReceipt db key condition assign keeps).2 key = some (assign row)) ∨
      ((updateReceipt db key condition assign keeps).1 = false ∧
        slotOf (updateReceipt db key condition assign keeps).2 key = slotOf db key) := by
  cases changed : (updateReceipt db key condition assign keeps).1 with
  | true =>
    obtain ⟨row, found, holds, thawed⟩ := updateReceipt_changed.1 changed
    refine Or.inl ⟨rfl, row, found, holds, ?_⟩
    rw [updateReceipt_slot, found]
    simp [holds, thawed]
  | false =>
    refine Or.inr ⟨rfl, ?_⟩
    rw [updateReceipt_slot]
    cases found : slotOf db key with
    | none => rfl
    | some row =>
      have skipped : ¬(condition row ∧ db.archive.frozen .deliveryReceipts key = false) := by
        intro both
        rw [updateReceipt_changed.2 ⟨row, found, both⟩] at changed
        cases changed
      simp only [Option.map_some, Bool.and_eq_true, Bool.not_eq_true',
        if_neg skipped]

theorem confirmRetired_slot {messageId : String}
    (result : confirmRetired db key messageId = some (answer, next)) :
    db.archive.recordRetired .deliveryReceipts key = true ∧ next.receipts = db.receipts ∧
      next.archive = db.archive := by
  unfold confirmRetired at result
  split at result
  · cases result
  · next retired =>
    simp only [Bool.not_eq_true', Bool.not_eq_false] at retired
    split at result <;> simp only [Option.some.injEq, Prod.mk.injEq] at result <;>
      obtain ⟨-, rfl⟩ := result <;> exact ⟨retired, rfl, rfl⟩

theorem confirmRetired_none {messageId : String} (result : confirmRetired db key messageId = none) :
    db.archive.recordRetired .deliveryReceipts key = false := by
  unfold confirmRetired at result
  split at result
  · next live => simpa using live
  · split at result <;> cases result

theorem confirm_spec {messageId : String}
    (call : confirm hooks key messageId db = (.ok answer, next)) :
    confirmRetired db key messageId = some (answer, next) ∨
      (db.archive.recordRetired .deliveryReceipts key = false ∧ OnlySlot key db next ∧
        ((answer = true ∧ ∃ row, slotOf db key = some row ∧
            (row.messageId = none ∨ row.messageId = some messageId) ∧
            slotOf next key = some { row with messageId := some messageId }) ∨
          (answer = false ∧ slotOf next key = slotOf db key))) := by
  have result := commit_ok call
  unfold confirmIn at result
  cases archived : confirmRetired db key messageId with
  | some final =>
    simp only [archived, Except.ok.injEq] at result
    exact Or.inl (by rw [result])
  | none =>
    simp only [archived] at result
    refine Or.inr ⟨confirmRetired_none archived, ?_⟩
    rcases updateReceipt_spec db key
      (fun r => r.messageId.isNone || r.messageId == some messageId)
      (fun r => { r with messageId := some messageId }) (fun _ => rfl) with
      ⟨changed, row, found, holds, slot⟩ | ⟨unchanged, slot⟩
    · rw [if_pos changed] at result
      obtain ⟨rest, _, result⟩ := bind_ok.1 result
      simp only [Except.ok.injEq, Prod.mk.injEq] at result
      obtain ⟨rfl, rfl⟩ := result
      refine ⟨(updateReceipt_only ..).rest rest, Or.inl ⟨rfl, row, found, ?_, slot⟩⟩
      simpa using holds
    · rw [if_neg (by simp [unchanged])] at result
      simp only [Except.ok.injEq, Prod.mk.injEq] at result
      obtain ⟨rfl, rfl⟩ := result
      exact ⟨updateReceipt_only .., Or.inr ⟨rfl, slot⟩⟩

theorem releaseRejected_spec (call : releaseRejected hooks key db = (.ok answer, next)) :
    OnlySlot key db next ∧
      ((answer = true ∧ ∃ row, slotOf db key = some row ∧ row.messageId = none ∧
          row.blockedReason = none ∧ slotOf next key = some { row with retryable := true }) ∨
        (answer = false ∧ slotOf next key = slotOf db key)) := by
  have result := commit_ok call
  unfold releaseRejectedIn at result
  simp only at result
  rcases updateReceipt_spec db key (fun r => r.messageId.isNone && r.blockedReason.isNone)
    (fun r => { r with retryable := true }) (fun _ => rfl) with
    ⟨changed, row, found, holds, slot⟩ | ⟨unchanged, slot⟩
  · rw [if_pos changed] at result
    obtain ⟨rest, _, result⟩ := bind_ok.1 result
    simp only [Except.ok.injEq, Prod.mk.injEq] at result
    obtain ⟨rfl, rfl⟩ := result
    simp only [Bool.and_eq_true, Option.isNone_iff_eq_none] at holds
    exact ⟨(updateReceipt_only ..).rest rest, Or.inl ⟨rfl, row, found, holds.1, holds.2, slot⟩⟩
  · rw [if_neg (by simp [unchanged])] at result
    simp only [Except.ok.injEq, Prod.mk.injEq] at result
    obtain ⟨rfl, rfl⟩ := result
    exact ⟨updateReceipt_only .., Or.inr ⟨rfl, slot⟩⟩

theorem blockRejected_spec {reason : String}
    (call : blockRejected key reason db = (.ok answer, next)) :
    OnlySlot key db next ∧
      ((answer = true ∧ ∃ row text, slotOf db key = some row ∧ row.messageId = none ∧
          slotOf next key = some { row with blockedReason := some text, retryable := false }) ∨
        (answer = false ∧ slotOf next key = slotOf db key)) := by
  have result := commit_ok call
  simp only [Except.ok.injEq] at result
  rw [Prod.mk.injEq] at result
  obtain ⟨rfl, rfl⟩ := result
  refine ⟨updateReceipt_only .., ?_⟩
  rcases updateReceipt_spec db key (fun r => r.messageId.isNone)
    (fun r => { r with
      blockedReason := some (String.ofList (reason.toList.take 1000)), retryable := false })
    (fun _ => rfl) with ⟨changed, row, found, holds, slot⟩ | ⟨unchanged, slot⟩
  · exact Or.inl ⟨changed, row, _, found, by simpa using holds, slot⟩
  · exact Or.inr ⟨unchanged, slot⟩

/-! ## Inversion of one step -/

/-- A call on `key` that keeps every other slot moves the slots as its own slot moves. -/
theorem SlotMove.of_only {event : ReceiptEvent}
    (called : event.key? = some key) (only : OnlySlot key db next)
    (moved : SlotMove key (db.archive.recordRetired .deliveryReceipts key) (slotOf db key) event
      (slotOf next key)) (other : String) :
    SlotMove other (db.archive.recordRetired .deliveryReceipts other) (slotOf db other) event
      (slotOf next other) := by
  by_cases same : other = key
  · subst same
    exact moved
  · rw [only.others other same]
    exact .other (by rw [called]; exact fun equal => same (Option.some.inj equal).symm)

theorem receiptStep_slot {event : ReceiptEvent} (step : ReceiptStep db event next) (key : String) :
    SlotMove key (db.archive.recordRetired .deliveryReceipts key) (slotOf db key) event
      (slotOf next key) := by
  cases step with
  | began hooks called contentHash call =>
    rename_i answer
    cases answer with
    | error e =>
      rw [commitWhen_error call]
      exact .failed trivial
    | ok state =>
      rcases beginGuarded_spec call with ⟨held, rfl⟩ | ⟨live, rfl, slot, only⟩
      · refine SlotMove.of_only rfl (OnlySlot.refl called _) ?_ key
        cases state <;> first | exact .held | cases held
      · exact SlotMove.of_only rfl only (.claim live (Prod.ext rfl slot.symm)) key
  | confirmed hooks called messageId call =>
    rename_i answer
    cases answer with
    | error e =>
      rw [commit_error call]
      exact .failed trivial
    | ok confirmed =>
      rcases confirm_spec call with archived | ⟨live, only, outcome⟩
      · obtain ⟨retired, receipts, _⟩ := confirmRetired_slot archived
        have kept : ∀ other, slotOf next other = slotOf db other := by
          intro other
          unfold slotOf
          rw [receipts]
        rw [kept key]
        by_cases same : key = called
        · subst same
          cases confirmed with
          | true => exact .evidence retired
          | false => exact .refused (Or.inr (Or.inr ⟨messageId, rfl⟩))
        · exact .other fun equal => same (Option.some.inj equal).symm
      · refine SlotMove.of_only rfl only ?_ key
        rcases outcome with ⟨rfl, row, found, open_, slot⟩ | ⟨rfl, slot⟩
        · rw [found, slot]
          exact .confirm live open_
        · rw [slot]
          exact .refused (Or.inr (Or.inr ⟨messageId, rfl⟩))
  | released hooks called call =>
    rename_i answer
    cases answer with
    | error e =>
      rw [commit_error call]
      exact .failed trivial
    | ok changed =>
      obtain ⟨only, outcome⟩ := releaseRejected_spec call
      refine SlotMove.of_only rfl only ?_ key
      rcases outcome with ⟨rfl, row, found, unsent, unblocked, slot⟩ | ⟨rfl, slot⟩
      · rw [found, slot]
        exact .release unsent unblocked
      · rw [slot]
        exact .refused (Or.inl rfl)
  | blocked called reason call =>
    rename_i answer
    cases answer with
    | error e =>
      rw [commit_error call]
      exact .failed trivial
    | ok changed =>
      obtain ⟨only, outcome⟩ := blockRejected_spec call
      refine SlotMove.of_only rfl only ?_ key
      rcases outcome with ⟨rfl, row, text, found, unsent, slot⟩ | ⟨rfl, slot⟩
      · rw [found, slot]
        exact .block unsent
      · rw [slot]
        exact .refused (Or.inr (Or.inl ⟨reason, rfl⟩))
  | failed _ error => exact .failed error
  | restarted => exact .other (by simp [ReceiptEvent.key?])
  | elsewhere archive rest evidence => exact .other (by simp [ReceiptEvent.key?])

end CodexRemote.Verified.DeliveryReceipt

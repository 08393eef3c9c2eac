import CodexRemote.Store.DeliveryReceipt

/-! # One receipt key on its own

What the receipt table is for, key by key: a slot that is absent or holds one row.
Each operation on the database acts on the slot of its own key as the function
below says, and leaves every other slot alone.
-/

namespace CodexRemote.Verified.DeliveryReceipt

open Foundations Store

abbrev Slot := Option ReceiptRow

/-- The slot a claim leaves behind, and its answer. -/
def Slot.claim (slot : Slot) (key contentHash : String) : ReceiptState × Slot :=
  match slot with
  | none => (.new, some ⟨key, contentHash, none, false, none⟩)
  | some row =>
    if row.contentHash ≠ contentHash then (.contentConflict, slot)
    else
      match row.messageId, row.blockedReason with
      | some message, _ => (.delivered message, slot)
      | none, some reason => (.rejectedBlocked reason, slot)
      | none, none =>
        if row.retryable then (.new, some { row with retryable := false }) else (.unknown, slot)

/-- Whether the next claim with the right content may send. -/
def Slot.licensed : Slot → Bool
  | none => true
  | some row => row.messageId.isNone && row.blockedReason.isNone && row.retryable

variable {ρ : Type}

def slotOf (db : ReceiptDb ρ) (key : String) : Slot := db.receipts.find key

/-- Everything but the slot of one key is kept; evidence may accumulate. -/
structure OnlySlot (key : String) (db next : ReceiptDb ρ) : Prop where
  others : ∀ other, other ≠ key → slotOf next other = slotOf db other
  confirmations : next.confirmations = db.confirmations
  evidence : db.archive.Extends next.archive

theorem OnlySlot.refl (key : String) (db : ReceiptDb ρ) : OnlySlot key db db :=
  ⟨fun _ _ => rfl, rfl, Archive.Extends.refl _⟩

variable {db next : ReceiptDb ρ} {key contentHash : String} {hooks : ReceiptHooks ρ}
  {row : ReceiptRow}

theorem OnlySlot.rest (only : OnlySlot key db next)
    (rest : ρ) : OnlySlot key db { next with rest := rest } :=
  ⟨only.others, only.confirmations, only.evidence⟩

/-! ## Statements of the table -/

theorem updateReceipt_only (db : ReceiptDb ρ) (key : String) (condition : ReceiptRow → Bool)
    (assign : ReceiptRow → ReceiptRow) (keeps : ∀ r, (assign r).receiptKey = r.receiptKey) :
    OnlySlot key db (updateReceipt db key condition assign keeps).2 where
  others other different := by
    have elsewhere : ∀ r : ReceiptRow, r.receiptKey = other → (r.receiptKey == key &&
        condition r && !db.archive.frozen .deliveryReceipts key) = false := by
      intro r same
      simp [same, different]
    exact Table.find_update_ne keeps elsewhere
  confirmations := rfl
  evidence := Archive.Extends.refl _

theorem updateReceipt_slot {condition : ReceiptRow → Bool}
    {assign : ReceiptRow → ReceiptRow} {keeps : ∀ r, (assign r).receiptKey = r.receiptKey} :
    slotOf (updateReceipt db key condition assign keeps).2 key =
      (slotOf db key).map (fun r =>
        if condition r && !db.archive.frozen .deliveryReceipts key then assign r else r) := by
  unfold slotOf updateReceipt
  rw [Table.find_update]
  cases found : db.receipts.find key with
  | none => rfl
  | some row => simp [Table.find_key found]

/-- The count says whether the row was there, satisfied the condition and was not frozen. -/
theorem updateReceipt_changed {condition : ReceiptRow → Bool}
    {assign : ReceiptRow → ReceiptRow} {keeps : ∀ r, (assign r).receiptKey = r.receiptKey} :
    (updateReceipt db key condition assign keeps).1 = true ↔
      ∃ row, slotOf db key = some row ∧ condition row ∧
        db.archive.frozen .deliveryReceipts key = false := by
  unfold updateReceipt slotOf
  have named : ∀ r : ReceiptRow, (r.receiptKey == key && condition r &&
      !db.archive.frozen .deliveryReceipts key) → r.receiptKey = key := by
    intro r selected
    simp only [Bool.and_eq_true, beq_iff_eq] at selected
    exact selected.1.1
  rw [beq_iff_eq, Table.count_keyed named]
  cases found : db.receipts.find key with
  | none => simp
  | some row =>
    have same := Table.find_key found
    simp [same]

theorem insertReceipt_taken {inserted : Bool} (found : slotOf db key = some row)
    (result : insertReceipt hooks db key contentHash = .ok (inserted, next)) :
    inserted = false ∧ next = db := by
  unfold insertReceipt at result
  unfold slotOf at found
  cases fence : hooks.insertFence db key with
  | some e => simp [fence] at result
  | none =>
    simp only [fence, found, Option.isSome_some, Bool.or_true, if_true, Except.ok.injEq,
      Prod.mk.injEq] at result
    exact ⟨result.1.symm, result.2.symm⟩

theorem insertReceipt_fresh {inserted : Bool}
    (free : db.archive.recordRetired .deliveryReceipts key = false) (absent : slotOf db key = none)
    (result : insertReceipt hooks db key contentHash = .ok (inserted, next)) :
    inserted = true ∧ OnlySlot key db next ∧
      slotOf next key = some ⟨key, contentHash, none, false, none⟩ := by
  unfold insertReceipt at result
  unfold slotOf at absent
  cases fence : hooks.insertFence db key with
  | some e => simp [fence] at result
  | none =>
    simp only [fence, free, absent, Option.isSome_none, Bool.or_false, Bool.false_eq_true,
      if_false, Except.ok.injEq, Prod.mk.injEq] at result
    obtain ⟨rfl, rfl⟩ := result
    refine ⟨rfl, ⟨fun other different => ?_, rfl, Archive.capture_extends _ _ _ _⟩, ?_⟩
    · unfold slotOf
      rw [Table.find_insertOrIgnore, if_neg (Ne.symm different)]
    · simp [slotOf, Table.find_insertOrIgnore, absent]

/-! ## A claim -/

theorem followClaim_ok {confirmed : Bool} (result : followClaim hooks db key confirmed = .ok next) :
    ∃ rest, next = { db with rest := rest } := by
  unfold followClaim at result
  obtain ⟨_, _, result⟩ := bind_ok.1 result
  obtain ⟨rest, _, result⟩ := bind_ok.1 result
  exact ⟨rest, (Except.ok.inj result).symm⟩

theorem claimRetry_skipped
    (unlicensed : ¬(row.contentHash = contentHash ∧ Slot.licensed (some row))) :
    claimRetry db key contentHash row = (false, db) := by
  have skipped : ¬(row.contentHash == contentHash && row.messageId.isNone &&
      row.blockedReason.isNone && row.retryable) = true := by
    intro chosen
    simp only [Bool.and_eq_true, beq_iff_eq] at chosen
    exact unlicensed ⟨chosen.1.1.1, by simp [Slot.licensed, chosen]⟩
  unfold claimRetry
  rw [if_neg skipped]

theorem claimRetry_taken (found : slotOf db key = some row)
    (thawed : db.archive.frozen .deliveryReceipts key = false)
    (same : row.contentHash = contentHash) (licensed : Slot.licensed (some row)) :
    (claimRetry db key contentHash row).1 = true ∧
      slotOf (claimRetry db key contentHash row).2 key = some { row with retryable := false } ∧
      OnlySlot key db (claimRetry db key contentHash row).2 := by
  simp only [Slot.licensed, Bool.and_eq_true] at licensed
  have chosen : (row.contentHash == contentHash && row.messageId.isNone &&
      row.blockedReason.isNone && row.retryable) = true := by
    simp [same, licensed]
  unfold claimRetry
  rw [if_pos chosen]
  refine ⟨updateReceipt_changed.2 ⟨row, found, licensed.2, thawed⟩, ?_, updateReceipt_only ..⟩
  rw [updateReceipt_slot, found]
  simp [licensed.2, thawed]

theorem Slot.claim_licensed
    (same : row.contentHash = contentHash) (licensed : Slot.licensed (some row)) :
    Slot.claim (some row) key contentHash = (.new, some { row with retryable := false }) := by
  obtain ⟨_, _, message, retryable, blocked⟩ := row
  cases message <;> cases blocked <;> simp_all [Slot.claim, Slot.licensed]

theorem Slot.claim_unlicensed
    (unlicensed : ¬(row.contentHash = contentHash ∧ Slot.licensed (some row))) :
    Slot.claim (some row) key contentHash = (claimAnswer row contentHash false, some row) := by
  obtain ⟨_, hash, message, retryable, blocked⟩ := row
  by_cases same : hash = contentHash
  · cases message <;> cases blocked <;> simp_all [Slot.claim, Slot.licensed, claimAnswer]
  · simp [Slot.claim, claimAnswer, same]

/-- The body of a claim, once the row it works on is there. -/
theorem claimReceipt_inv {answer : ReceiptState}
    (result : claimReceipt hooks db key contentHash = .ok (answer, next)) :
    ∃ inserted db1, insertReceipt hooks db key contentHash = .ok (inserted, db1) ∧
      ∀ row, slotOf db1 key = some row → ∃ rest,
        answer = claimAnswer row contentHash
          (inserted || (claimRetry db1 key contentHash row).1) ∧
        next = { (claimRetry db1 key contentHash row).2 with rest := rest } := by
  unfold claimReceipt at result
  obtain ⟨⟨inserted, db1⟩, insertion, result⟩ := bind_ok.1 result
  refine ⟨inserted, db1, insertion, ?_⟩
  intro row found
  unfold slotOf at found
  simp only [found] at result
  obtain ⟨final, follow, result⟩ := bind_ok.1 result
  obtain ⟨rest, rfl⟩ := followClaim_ok follow
  simp only [Except.ok.injEq, Prod.mk.injEq] at result
  exact ⟨rest, result.1.symm, result.2.symm⟩

theorem claimReceipt_ok {answer : ReceiptState}
    (free : db.archive.recordRetired .deliveryReceipts key = false)
    (result : claimReceipt hooks db key contentHash = .ok (answer, next)) :
    answer = (Slot.claim (slotOf db key) key contentHash).1 ∧
      slotOf next key = (Slot.claim (slotOf db key) key contentHash).2 ∧
      OnlySlot key db next := by
  obtain ⟨inserted, db1, insertion, finish⟩ := claimReceipt_inv result
  cases found : slotOf db key with
  | none =>
    obtain ⟨rfl, only, fresh⟩ := insertReceipt_fresh free found insertion
    obtain ⟨rest, rfl, rfl⟩ := finish _ fresh
    rw [claimRetry_skipped (by simp [Slot.licensed])]
    exact ⟨by simp [claimAnswer, Slot.claim], fresh, only.rest rest⟩
  | some row =>
    obtain ⟨rfl, rfl⟩ := insertReceipt_taken found insertion
    obtain ⟨rest, rfl, rfl⟩ := finish row found
    by_cases retry : row.contentHash = contentHash ∧ Slot.licensed (some row)
    · obtain ⟨same, licensed⟩ := retry
      have thawed : db1.archive.frozen .deliveryReceipts key = false := by
        by_contra frozen
        rw [Bool.not_eq_false] at frozen
        rw [Archive.frozen_retired frozen] at free
        cases free
      obtain ⟨taken, slot, only⟩ := claimRetry_taken found thawed same licensed
      rw [Slot.claim_licensed same licensed]
      exact ⟨by simp [claimAnswer, same, taken], slot, only.rest rest⟩
    · rw [claimRetry_skipped retry]
      rw [Slot.claim_unlicensed retry]
      exact ⟨rfl, found, (OnlySlot.refl _ _).rest rest⟩

end CodexRemote.Verified.DeliveryReceipt

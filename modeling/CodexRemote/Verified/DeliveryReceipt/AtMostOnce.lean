import CodexRemote.Verified.DeliveryReceipt.Moves

/-! # At most one send per receipt key -/

namespace CodexRemote.Verified.DeliveryReceipt

open Foundations Store

variable {ρ : Type}

def newFor (key : String) : ReceiptEvent → Bool
  | .began called _ (.ok .new) => called == key
  | _ => false

def releasedFor (key : String) : ReceiptEvent → Bool
  | .released called (.ok true) => called == key
  | _ => false

/-- Sends a slot still licenses: one while it is absent or marked retryable. -/
def Slot.credit : Slot → Nat
  | none => 1
  | some row => row.retryable.toNat

/-! ## New answers -/

theorem claimAnswer_unclaimed (row : ReceiptRow) (contentHash : String) :
    claimAnswer row contentHash false ≠ .new := by
  obtain ⟨_, hash, message, _, blocked⟩ := row
  by_cases same : hash = contentHash
  · cases message <;> cases blocked <;> simp [claimAnswer, same]
  · simp [claimAnswer, same]

variable {contentHash key messageId m : String} {slot : Slot} {retired : Bool}
  {event : ReceiptEvent} {db next : ReceiptDb ρ}

/-- What a New answer says about the slot it finds and the slot it leaves. -/
theorem Slot.claim_new {next : Slot} (claimed : slot.claim key contentHash = (.new, next)) :
    slot.licensed = true ∧ (∀ row, slot = some row → row.contentHash = contentHash) ∧
      ∃ row, next = some row ∧ row.contentHash = contentHash ∧ row.retryable = false := by
  cases slot with
  | none =>
    simp only [Slot.claim, Prod.mk.injEq, true_and] at claimed
    refine ⟨rfl, ?_, _, claimed.symm, rfl, rfl⟩
    intro row impossible
    cases impossible
  | some row =>
    by_cases licensed : row.contentHash = contentHash ∧ Slot.licensed (some row)
    · rw [Slot.claim_licensed licensed.1 licensed.2] at claimed
      simp only [Prod.mk.injEq, true_and] at claimed
      refine ⟨licensed.2, ?_, _, claimed.symm, licensed.1, rfl⟩
      rintro _ ⟨⟩
      exact licensed.1
    · rw [Slot.claim_unlicensed licensed] at claimed
      exact absurd (congrArg Prod.fst claimed) (claimAnswer_unclaimed row contentHash)

/-- Any other answer leaves the slot as it was, and the slot has a row. -/
theorem Slot.claim_other {next : Slot} {answer : ReceiptState}
    (claimed : slot.claim key contentHash = (answer, next)) (silent : answer ≠ .new) :
    next = slot ∧ ∃ row, slot = some row ∧ answer = claimAnswer row contentHash false := by
  cases slot with
  | none =>
    simp only [Slot.claim, Prod.mk.injEq] at claimed
    exact absurd claimed.1.symm silent
  | some row =>
    by_cases licensed : row.contentHash = contentHash ∧ Slot.licensed (some row)
    · rw [Slot.claim_licensed licensed.1 licensed.2] at claimed
      exact absurd (congrArg Prod.fst claimed).symm silent
    · rw [Slot.claim_unlicensed licensed] at claimed
      simp only [Prod.mk.injEq] at claimed
      exact ⟨claimed.2.symm, row, rfl, claimed.1.symm⟩

/-- A New for `key` is a claim of its slot. -/
theorem SlotMove.new_inv {next : Slot}
    (move : SlotMove key retired slot (.began key contentHash (.ok .new)) next) :
    retired = false ∧ slot.claim key contentHash = (.new, next) := by
  cases move with
  | other elsewhere => exact absurd rfl elsewhere
  | failed error => exact error.elim
  | claim live claimed => exact ⟨live, claimed⟩
  | refused negative => rcases negative with h | ⟨_, h⟩ | ⟨_, h⟩ <;> cases h

theorem newFor_iff :
    newFor key event ↔ ∃ contentHash, event = .began key contentHash (.ok .new) := by
  constructor
  · intro sent
    unfold newFor at sent
    split at sent
    · next called contentHash => exact ⟨contentHash, by rw [beq_iff_eq.1 sent]⟩
    · cases sent
  · rintro ⟨_, rfl⟩
    simp [newFor]

theorem releasedFor_iff :
    releasedFor key event ↔ event = .released key (.ok true) := by
  constructor
  · intro released
    unfold releasedFor at released
    split at released
    · rw [beq_iff_eq.1 released]
    · cases released
  · rintro rfl
    simp [releasedFor]

theorem Slot.credit_le_one (slot : Slot) : slot.credit ≤ 1 := by
  cases slot with
  | none => exact Nat.le_refl 1
  | some row => exact Bool.toNat_le row.retryable

/-- A slot that is not sent on keeps its credit, unless a release adds one. -/
theorem credit_pays {next : Slot} (move : SlotMove key retired slot event next) :
    (newFor key event).toNat + next.credit ≤ slot.credit + (releasedFor key event).toNat := by
  cases sent : newFor key event with
  | true =>
    obtain ⟨contentHash, rfl⟩ := newFor_iff.1 sent
    obtain ⟨licensed, _, row, rfl, _, spent⟩ := Slot.claim_new move.new_inv.2
    have credit : slot.credit = 1 := by
      cases slot with
      | none => rfl
      | some earlier =>
        simp only [Slot.licensed, Bool.and_eq_true] at licensed
        simp [Slot.credit, licensed.2]
    have empty : Slot.credit (some row) = 0 := by simp [Slot.credit, spent]
    rw [credit, empty]
    exact Nat.le_add_right _ _
  | false =>
    simp only [Bool.toNat_false, Nat.zero_add]
    cases move with
    | other _ | failed _ | held | refused _ | evidence _ => omega
    | claim live claimed =>
      rename_i contentHash answer
      have silent : answer ≠ .new := by
        rintro rfl
        rw [newFor_iff.2 ⟨contentHash, rfl⟩] at sent
        cases sent
      rw [(Slot.claim_other claimed silent).1]
      omega
    | confirm _ _ => exact Nat.le_add_right _ _
    | release _ _ =>
      rw [releasedFor_iff.2 rfl]
      exact Nat.le_trans (Slot.credit_le_one _) (Nat.le_add_left 1 _)
    | block _ => exact Nat.zero_le _

/-! ## Facts about a slot that stay -/

/-- The content recorded for a key never changes. -/
theorem SlotMove.keeps_hash {next : Slot} {row : ReceiptRow}
    (move : SlotMove key retired (some row) event next) :
    ∃ later, next = some later ∧ later.contentHash = row.contentHash := by
  cases move with
  | other _ | failed _ | held | refused _ | evidence _ => exact ⟨row, rfl, rfl⟩
  | claim live claimed =>
    rename_i contentHash answer
    by_cases sent : answer = .new
    · subst sent
      obtain ⟨_, same, later, rfl, hash, _⟩ := Slot.claim_new claimed
      exact ⟨later, rfl, hash.trans (same row rfl).symm⟩
    · rw [(Slot.claim_other claimed sent).1]
      exact ⟨row, rfl, rfl⟩
  | confirm _ _ => exact ⟨_, rfl, rfl⟩
  | release _ _ => exact ⟨_, rfl, rfl⟩
  | block _ => exact ⟨_, rfl, rfl⟩

theorem unlicensed_not_new {next : Slot} {answer : ReceiptState}
    (unlicensed : slot.licensed = false)
    (claimed : slot.claim key contentHash = (answer, next)) : answer ≠ .new := by
  rintro rfl
  rw [(Slot.claim_new claimed).1] at unlicensed
  cases unlicensed

def Slot.blocked : Slot → Prop
  | none => False
  | some row => row.blockedReason.isSome

theorem Slot.blocked_unlicensed (blocked : slot.blocked) : slot.licensed = false := by
  cases slot with
  | none => exact blocked.elim
  | some row =>
    obtain ⟨reason, same⟩ := Option.isSome_iff_exists.1 blocked
    simp [Slot.licensed, same]

theorem SlotMove.keeps_blocked {next : Slot}
    (move : SlotMove key retired slot event next) (blocked : slot.blocked) :
    next.blocked := by
  cases move with
  | other _ | failed _ | held | refused _ | evidence _ => exact blocked
  | claim live claimed =>
    rw [(Slot.claim_other claimed (unlicensed_not_new (Slot.blocked_unlicensed blocked) claimed)).1]
    exact blocked
  | confirm _ _ => exact blocked
  | release _ _ => exact blocked
  | block _ => exact rfl

def Slot.sent (slot : Slot) (messageId : String) : Prop :=
  ∃ row, slot = some row ∧ row.messageId = some messageId

theorem Slot.sent_unlicensed (sent : slot.sent messageId) :
    slot.licensed = false := by
  obtain ⟨row, rfl, message⟩ := sent
  simp [Slot.licensed, message]

theorem SlotMove.keeps_sent {next : Slot} (move : SlotMove key retired slot event next)
    (sent : slot.sent messageId) : next.sent messageId := by
  cases move with
  | other _ | failed _ | held | refused _ | evidence _ => exact sent
  | claim live claimed =>
    rw [(Slot.claim_other claimed (unlicensed_not_new (Slot.sent_unlicensed sent) claimed)).1]
    exact sent
  | confirm live open_ =>
    obtain ⟨row, ⟨⟩, message⟩ := sent
    rcases open_ with absent | same
    · rw [absent] at message
      cases message
    · exact ⟨_, rfl, same.symm.trans message⟩
  | release unsent _ =>
    obtain ⟨row, ⟨⟩, message⟩ := sent
    exact ⟨_, rfl, message⟩
  | block unsent =>
    obtain ⟨row, ⟨⟩, message⟩ := sent
    rw [unsent] at message
    cases message

/-! ## Confirmations -/

/-- The message recorded for `key` is `messageId`: in the receipt itself, or in the
evidence beside an archived receipt. -/
def Settled (db : ReceiptDb ρ) (key messageId : String) : Prop :=
  (slotOf db key).sent messageId ∨
    (db.archive.recordRetired .deliveryReceipts key = true ∧ ∃ row c, slotOf db key = some row ∧
      row.messageId = none ∧ db.confirmations.find key = some c ∧
      c.contentHash = row.contentHash ∧ c.messageId = messageId)

theorem Settled.unique {m' : String} (left : Settled db key m)
    (right : Settled db key m') : m = m' := by
  rcases left with ⟨row, found, message⟩ | ⟨_, row, c, found, unset, evidence, _, rfl⟩
  · rcases right with ⟨row', found', message'⟩ | ⟨_, row', _, found', unset', _⟩
    · rw [found, Option.some.injEq] at found'
      subst found'
      exact Option.some.inj (message.symm.trans message')
    · rw [found, Option.some.injEq] at found'
      subst found'
      rw [unset'] at message
      cases message
  · rcases right with ⟨row', found', message'⟩ | ⟨_, _, c', _, _, evidence', _, rfl⟩
    · rw [found, Option.some.injEq] at found'
      subst found'
      rw [unset] at message'
      cases message'
    · rw [evidence, Option.some.injEq] at evidence'
      rw [evidence']

theorem Settled.confirmedMessage {row : ReceiptRow}
    (settled : Settled db key m) (found : slotOf db key = some row) :
    confirmedMessage db key row.contentHash = some m := by
  unfold slotOf at found
  rcases settled with ⟨row', found', message⟩ | ⟨_, row', c, found', unset, evidence, hash, rfl⟩
  · unfold slotOf at found'
    rw [found, Option.some.injEq] at found'
    subst found'
    simp [Store.confirmedMessage, Option.filter, found, message]
  · unfold slotOf at found'
    rw [found, Option.some.injEq] at found'
    subst found'
    simp [Store.confirmedMessage, Option.filter, found, unset, evidence, hash]

theorem confirmRetired_evidence {other : String} {answer : Bool} {c : Confirmation}
    (result : confirmRetired db key messageId = some (answer, next))
    (found : db.confirmations.find other = some c) : next.confirmations.find other = some c := by
  unfold confirmRetired at result
  split at result
  · cases result
  · split at result
    · simp only [Option.some.injEq, Prod.mk.injEq] at result
      rw [← result.2]
      exact found
    · simp only [Option.some.injEq, Prod.mk.injEq] at result
      obtain ⟨-, rfl⟩ := result
      simp only
      split
      · split
        · rw [Table.find_insertOrIgnore, found]
          split <;> rfl
        · exact found
      · exact found

theorem confirmRetired_settles (result : confirmRetired db key messageId = some (true, next)) :
    Settled next key messageId := by
  obtain ⟨retired, receipts, archive⟩ := confirmRetired_slot result
  unfold confirmRetired at result
  split at result
  · cases result
  · split at result
    · simp at result
    · simp only [Option.some.injEq, Prod.mk.injEq] at result
      obtain ⟨confirmed, rfl⟩ := result
      obtain ⟨row, member, confirmed⟩ := List.any_eq_true.1 confirmed
      simp only [Bool.and_eq_true, beq_iff_eq] at confirmed
      obtain ⟨⟨same, matching⟩, evidence⟩ := confirmed
      obtain ⟨c, present, evidence⟩ := List.any_eq_true.1 evidence
      simp only [Bool.and_eq_true, beq_iff_eq] at evidence
      obtain ⟨⟨ckey, hash⟩, message⟩ := evidence
      have found : db.receipts.find key = some row := Table.find_some_iff.2 ⟨member, same⟩
      simp only [Bool.or_eq_true, Option.isNone_iff_eq_none, beq_iff_eq] at matching
      rcases matching with unset | sent
      · exact Or.inr ⟨retired, row, c, found, unset, Table.find_some_iff.2 ⟨present, ckey⟩,
          hash, message⟩
      · exact Or.inl ⟨row, found, sent⟩

/-- Evidence and confirmations accumulate. -/
theorem receiptStep_evidence (step : ReceiptStep db event next) :
    db.archive.Extends next.archive ∧
      ∀ key c, db.confirmations.find key = some c → next.confirmations.find key = some c := by
  have kept {key : String} {final : ReceiptDb ρ} (only : OnlySlot key db final) :
      db.archive.Extends final.archive ∧
        ∀ key c, db.confirmations.find key = some c → final.confirmations.find key = some c :=
    ⟨only.evidence, fun _ _ found => only.confirmations ▸ found⟩
  cases step with
  | began hooks key contentHash call =>
    rename_i answer
    cases answer with
    | error e => exact commitWhen_error call ▸ kept (OnlySlot.refl key db)
    | ok state =>
      rcases beginGuarded_spec call with ⟨_, rfl⟩ | ⟨_, _, _, only⟩
      · exact kept (OnlySlot.refl key _)
      · exact kept only
  | confirmed hooks key messageId call =>
    rename_i answer
    cases answer with
    | error e => exact commit_error call ▸ kept (OnlySlot.refl key db)
    | ok confirmed =>
      rcases confirm_spec call with archived | ⟨_, only, _⟩
      · refine ⟨(confirmRetired_slot archived).2.2 ▸ Archive.Extends.refl _, ?_⟩
        intro other c found
        exact confirmRetired_evidence archived found
      · exact kept only
  | released hooks key call =>
    rename_i answer
    cases answer with
    | error e => exact commit_error call ▸ kept (OnlySlot.refl key db)
    | ok _ => exact kept (releaseRejected_spec call).1
  | blocked key reason call =>
    rename_i answer
    cases answer with
    | error e => exact commit_error call ▸ kept (OnlySlot.refl key db)
    | ok _ => exact kept (blockRejected_spec call).1
  | failed _ _ => exact kept (OnlySlot.refl "" db)
  | restarted => exact kept (OnlySlot.refl "" db)
  | elsewhere archive rest evidence => exact ⟨evidence, fun _ _ found => found⟩

theorem receiptStep_settled
    (step : ReceiptStep db event next) (settled : Settled db key m) : Settled next key m := by
  have move := receiptStep_slot step key
  rcases settled with sent | ⟨retired, row, c, found, unset, evidence, hash, message⟩
  · exact Or.inl (move.keeps_sent sent)
  · obtain ⟨extends_, confirmations⟩ := receiptStep_evidence step
    -- an archived receipt takes neither a claim nor a message
    have later : ∃ row', slotOf next key = some row' ∧ row'.messageId = none ∧
        row'.contentHash = row.contentHash := by
      rw [found, retired] at move
      generalize slotOf next key = slot at move
      cases move with
      | other _ | failed _ | held | refused _ | evidence _ => exact ⟨row, rfl, unset, rfl⟩
      | claim live _ => cases live
      | confirm live _ => cases live
      | release _ _ => exact ⟨_, rfl, unset, rfl⟩
      | block _ => exact ⟨_, rfl, unset, rfl⟩
    obtain ⟨row', found', unset', same⟩ := later
    exact Or.inr ⟨extends_.recordRetired retired, row', c, found', unset',
      confirmations key c evidence, hash.trans same.symm, message⟩

theorem confirmed_settles
    (step : ReceiptStep db (.confirmed key m (.ok true)) next) : Settled next key m := by
  cases step with
  | confirmed hooks _ _ call =>
    rcases confirm_spec call with archived | ⟨_, _, ⟨_, row, _, _, slot⟩ | ⟨impossible, _⟩⟩
    · exact confirmRetired_settles archived
    · exact Or.inl ⟨_, slot, rfl⟩
    · cases impossible
  | failed _ error => exact error.elim

theorem Settled.begin {db next : ReceiptDb ρ} {key m contentHash : String} {answer : ReceiptState}
    (settled : Settled db key m)
    (step : ReceiptStep db (.began key contentHash (.ok answer)) next) :
    answer ≠ .new ∧ (∀ row, slotOf db key = some row → row.contentHash = contentHash →
      answer.isHeld = false → answer = .delivered m) := by
  have move := receiptStep_slot step key
  generalize retired : db.archive.recordRetired .deliveryReceipts key = archived at move
  generalize start : slotOf db key = slot at move
  cases move with
  | other elsewhere => exact absurd rfl elsewhere
  | failed error => exact error.elim
  | held => exact ⟨by simp, by intro _ _ _ impossible; cases impossible⟩
  | refused negative => rcases negative with h | ⟨_, h⟩ | ⟨_, h⟩ <;> cases h
  | claim live claimed =>
    rcases settled with sent | ⟨archivedRow, _⟩
    · rw [start] at sent
      have silent := unlicensed_not_new (Slot.sent_unlicensed sent) claimed
      refine ⟨silent, ?_⟩
      intro row found same _
      obtain ⟨sentRow, here, message⟩ := sent
      obtain ⟨_, claimedRow, there, rfl⟩ := Slot.claim_other claimed silent
      rw [found] at here there
      cases here
      cases there
      simp [claimAnswer, same, message]
    · rw [retired, live] at archivedRow
      cases archivedRow

theorem blocked_blocks {reason : String}
    (step : ReceiptStep db (.blocked key reason (.ok true)) next) : (slotOf next key).blocked := by
  cases step with
  | blocked _ _ call =>
    rcases (blockRejected_spec call).2 with ⟨_, row, text, _, _, slot⟩ | ⟨impossible, _⟩
    · rw [slot]
      exact rfl
    · cases impossible
  | failed _ error => exact error.elim

/-! ## Main result -/

/-- Over every run from a given database, for one key. -/
structure AtMostOnceSend (db : ReceiptDb ρ) (key : String) : Prop where
  /-- between two New answers a release answered true -/
  separated : ∀ {front middle back first second next},
    ReceiptRun db (front ++ .began key first (.ok .new) ::
      (middle ++ .began key second (.ok .new) :: back)) next →
    .released key (.ok true) ∈ middle
  /-- each such release licenses at most one further New -/
  licensed : ∀ {front middle back first next},
    ReceiptRun db (front ++ .began key first (.ok .new) :: (middle ++ back)) next →
    middle.countP (newFor key) ≤ middle.countP (releasedFor key)
  oneContent : ∀ {events first second next}, ReceiptRun db events next →
    .began key first (.ok .new) ∈ events → .began key second (.ok .new) ∈ events → first = second
  /-- a confirmed message stays, and answers every later begin that is not held -/
  confirmed : ∀ {front middle messageId later},
    ReceiptRun db (front ++ .confirmed key messageId (.ok true) :: middle) later →
    (∀ row, slotOf later key = some row →
      confirmedMessage later key row.contentHash = some messageId) ∧
    (∀ {contentHash answer next}, ReceiptStep later (.began key contentHash (.ok answer)) next →
      answer ≠ .new ∧ (∀ row, slotOf later key = some row → row.contentHash = contentHash →
        answer.isHeld = false → answer = .delivered messageId)) ∧
    (∀ {other next}, ReceiptStep later (.confirmed key other (.ok true)) next → other = messageId)
  /-- a blocked key is never claimed again, confirmed later or not -/
  blocked : ∀ {front middle back reason contentHash next},
    ReceiptRun db (front ++ .blocked key reason (.ok true) ::
      (middle ++ .began key contentHash (.ok .new) :: back)) next → False

/-- A New answer uses the credit up, so what follows it lives on releases. -/
theorem news_le_releases {events : List ReceiptEvent}
    (run : ReceiptRun db (.began key contentHash (.ok .new) :: events) next) :
    events.countP (newFor key) ≤ events.countP (releasedFor key) := by
  obtain ⟨after, sent, rest⟩ := run.cons_inv
  have spent := rest.spends_le (fun db => (slotOf db key).credit) (newFor key) (releasedFor key)
    (fun _ _ _ step => credit_pays (receiptStep_slot step key))
  obtain ⟨_, _, row, found, _, used⟩ := Slot.claim_new (receiptStep_slot sent key).new_inv.2
  have empty : (slotOf after key).credit = 0 := by simp [found, Slot.credit, used]
  omega

theorem run_keeps_hash {events : List ReceiptEvent} (run : ReceiptRun db events next)
    (start : ∃ row, slotOf db key = some row ∧ row.contentHash = contentHash) :
    ∃ row, slotOf next key = some row ∧ row.contentHash = contentHash := by
  refine run.preserves (fun db => ∃ row, slotOf db key = some row ∧
    row.contentHash = contentHash) ?_ start
  rintro s e t step ⟨row, found, same⟩
  have move := receiptStep_slot step key
  rw [found] at move
  obtain ⟨later, there, kept⟩ := move.keeps_hash
  exact ⟨later, there, kept.trans same⟩

theorem new_hashes_agree {first second : String} {front middle back : List ReceiptEvent}
    (run : ReceiptRun db (front ++ .began key first (.ok .new) ::
      (middle ++ .began key second (.ok .new) :: back)) next) : first = second := by
  obtain ⟨_, after, _, sent, rest⟩ := run.split_at
  obtain ⟨before, _, between, again, _⟩ := rest.split_at
  obtain ⟨_, _, row, found, hash, _⟩ := Slot.claim_new (receiptStep_slot sent key).new_inv.2
  obtain ⟨later, there, same⟩ := run_keeps_hash between ⟨row, found, hash⟩
  obtain ⟨_, agree, _⟩ := Slot.claim_new (receiptStep_slot again key).new_inv.2
  exact same.symm.trans (agree later there)

theorem receipt_at_most_once (db : ReceiptDb ρ) (key : String) : AtMostOnceSend db key where
  separated := by
    intro front middle back first second next run
    obtain ⟨_, _, _, sent, rest⟩ := run.split_at
    obtain ⟨_, _, between, again, _⟩ := rest.split_at
    have paid := news_le_releases (.cons sent (between.append (Run.single again)))
    have counted : newFor key (.began key second (.ok .new)) = true := newFor_iff.2 ⟨second, rfl⟩
    have unpaid : releasedFor key (.began key second (.ok .new)) = false := rfl
    simp only [List.countP_append, List.countP_singleton, counted, unpaid, if_true,
      Bool.false_eq_true, if_false] at paid
    have some_release : 0 < middle.countP (releasedFor key) := by omega
    obtain ⟨event, member, released⟩ := List.countP_pos_iff.1 some_release
    rwa [← releasedFor_iff.1 released]
  licensed := by
    intro front middle back first next run
    obtain ⟨_, _, _, sent, rest⟩ := run.split_at
    obtain ⟨_, left, _⟩ := rest.append_inv
    exact news_le_releases (.cons sent left)
  oneContent := by
    intro events first second next run here there
    obtain ⟨front, rest, rfl⟩ := List.append_of_mem here
    rcases List.mem_append.1 there with before | after
    · obtain ⟨start, middle, rfl⟩ := List.append_of_mem before
      rw [List.append_assoc, List.cons_append] at run
      exact (new_hashes_agree run).symm
    · rcases List.mem_cons.1 after with same | later
      · cases same
        rfl
      · obtain ⟨middle, back, rfl⟩ := List.append_of_mem later
        exact new_hashes_agree run
  confirmed := by
    intro front middle messageId later run
    obtain ⟨_, after, _, confirm, rest⟩ := run.split_at
    have settled : Settled later key messageId :=
      rest.preserves (fun db => Settled db key messageId)
        (fun _ _ _ step settled => receiptStep_settled step settled) (confirmed_settles confirm)
    refine ⟨fun row found => settled.confirmedMessage found, fun step => settled.begin step, ?_⟩
    intro other next step
    exact (confirmed_settles step).unique (receiptStep_settled step settled)
  blocked := by
    intro front middle back reason contentHash next run
    obtain ⟨_, after, _, block, rest⟩ := run.split_at
    obtain ⟨before, _, between, again, _⟩ := rest.split_at
    have held : (slotOf before key).blocked :=
      between.preserves (fun db => (slotOf db key).blocked)
        (fun _ _ _ step blocked => (receiptStep_slot step key).keeps_blocked blocked)
        (blocked_blocks block)
    have licensed := (Slot.claim_new (receiptStep_slot again key).new_inv.2).1
    rw [Slot.blocked_unlicensed held] at licensed
    cases licensed

/-! ## A released receipt is sent a second time -/

def quietHooks : ReceiptHooks Unit where
  keyChannel _ := some 7
  workRetired _ _ := .ok false
  validateFinalRecovery _ _ _ := .ok ()
  validateNewReply _ _ _ := .ok none
  insertFence _ _ := none
  confirmReceipt _ _ := .ok ()
  noticeClaimed _ _ := .ok ()
  noticeRejected _ _ := .ok ()

def emptyReceipts : ReceiptDb Unit := ⟨Archive.empty, Table.empty, Table.empty, ()⟩

theorem receipt_resend_run : ∃ next, ReceiptRun emptyReceipts
    ([] ++ .began "[7]" "h" (.ok .new) :: ([.released "[7]" (.ok true)] ++
      .began "[7]" "h" (.ok .new) :: [])) next :=
  ⟨_, .cons (.began quietHooks "[7]" "h" rfl) (.cons (.released quietHooks "[7]" rfl)
    (.cons (.began quietHooks "[7]" "h" rfl) (.nil _)))⟩

theorem receipt_resend_released :
    ReceiptEvent.released "[7]" (.ok true) ∈ [ReceiptEvent.released "[7]" (.ok true)] := by
  obtain ⟨_, run⟩ := receipt_resend_run
  exact (receipt_at_most_once emptyReceipts "[7]").separated run

end CodexRemote.Verified.DeliveryReceipt

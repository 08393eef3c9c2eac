import CodexRemote.Store.Delivery
import CodexRemote.Verified.DeliveryReceipt.AtMostOnce

/-! # How the delivery database may change

What a task that delivers a final can count on while other tasks run: receipts keep
their content and their message, and a row of the outbox is never written again under
another text.  Every operation of the delivery path is shown to respect it.
-/

namespace CodexRemote.Verified.Delivery

open Foundations Store Verified.DeliveryReceipt

variable {ρ : Type}

/-- The archive covers a row, or the row is gone: nothing can delete it any more. -/
def Covered (db : DeliveryDb ρ) (deliveryId : String) : Prop :=
  db.archive.recordRetired .deliveryOutbox deliveryId ∨ db.rest.outbox.find deliveryId = none

/-- An archived room captures the outbox row of every chunk receipt it captures. -/
def CapturesRows (db next : DeliveryDb ρ) : Prop :=
  ∀ id row index, db.rest.outbox.find id = some row →
    next.archive.recordRetired .deliveryReceipts (confirmedChunkKey row index) →
    db.archive.recordRetired .deliveryReceipts (confirmedChunkKey row index) ∨ Covered next id

/-- Confirmations beside the receipts exist for archived receipts only. -/
def EvidenceRetired (db : DeliveryDb ρ) : Prop :=
  ∀ key c, db.confirmations.find key = some c → db.archive.recordRetired .deliveryReceipts key

structure Later (db next : DeliveryDb ρ) : Prop where
  archive : db.archive.Extends next.archive
  captured : CapturesRows db next
  receipts : ∀ key r, slotOf db key = some r → ∃ r', slotOf next key = some r' ∧
    r'.contentHash = r.contentHash ∧ ∀ m, r.messageId = some m → r'.messageId = some m
  outbox : ∀ id later, next.rest.outbox.find id = some later →
    ∃ row, db.rest.outbox.find id = some row ∧ row.content = later.content ∧
      row.channelId = later.channelId
  evidence : EvidenceRetired db → EvidenceRetired next

theorem CapturesRows.of_archive {db next : DeliveryDb ρ} (same : next.archive = db.archive) :
    CapturesRows db next :=
  fun _ _ _ _ retired => Or.inl (same ▸ retired)

theorem Later.refl (db : DeliveryDb ρ) : Later db db where
  archive := Archive.Extends.refl _
  captured := CapturesRows.of_archive rfl
  receipts _ r found := ⟨r, found, rfl, fun _ message => message⟩
  outbox _ row found := ⟨row, found, rfl, rfl⟩
  evidence := id

theorem Later.covered {db next : DeliveryDb ρ} (later : Later db next) {id : String}
    (covered : Covered db id) : Covered next id := by
  rcases covered with retired | gone
  · exact Or.inl (later.archive.recordRetired retired)
  · refine Or.inr ?_
    cases found : next.rest.outbox.find id with
    | none => rfl
    | some row =>
      obtain ⟨earlier, present, _⟩ := later.outbox id row found
      rw [gone] at present
      cases present

theorem chunkKey_congr {a b : StoredDelivery} (id : a.deliveryId = b.deliveryId)
    (channel : a.channelId = b.channelId) (index : Nat) :
    confirmedChunkKey a index = confirmedChunkKey b index := by
  unfold confirmedChunkKey
  rw [id, channel]

theorem Later.trans {a b c : DeliveryDb ρ} (left : Later a b) (right : Later b c) : Later a c where
  archive := left.archive.trans right.archive
  captured id row index found retired := by
    cases between : b.rest.outbox.find id with
    | none => exact Or.inr (right.covered (Or.inr between))
    | some middle =>
      obtain ⟨earlier, present, _, channel⟩ := left.outbox id middle between
      rw [found, Option.some.injEq] at present
      subst present
      have key : confirmedChunkKey row index = confirmedChunkKey middle index :=
        chunkKey_congr ((Table.find_key found).trans (Table.find_key between).symm) channel index
      rw [key] at retired
      rcases right.captured id middle index between retired with earlier | covered
      · rw [← key] at earlier
        exact (left.captured id row index found earlier).imp_right right.covered
      · exact Or.inr covered
  receipts key r found := by
    obtain ⟨r', found', hash', message'⟩ := left.receipts key r found
    obtain ⟨r'', found'', hash'', message''⟩ := right.receipts key r' found'
    exact ⟨r'', found'', hash''.trans hash', fun m message => message'' m (message' m message)⟩
  outbox id row found := by
    obtain ⟨middle, found', content', channel'⟩ := right.outbox id row found
    obtain ⟨earlier, found'', content'', channel''⟩ := left.outbox id middle found'
    exact ⟨earlier, found'', content''.trans content', channel''.trans channel'⟩
  evidence := right.evidence ∘ left.evidence

/-! ## Receipt operations -/

/-- The hooks of an operation leave a part of the other tables alone. -/
structure KeepsView {β : Type} (hooks : ReceiptHooks ρ) (view : ρ → β) : Prop where
  confirmReceipt : ∀ {db key rest}, hooks.confirmReceipt db key = .ok rest → view rest = view db.rest
  noticeClaimed : ∀ {db key rest}, hooks.noticeClaimed db key = .ok rest → view rest = view db.rest
  noticeRejected : ∀ {db key rest}, hooks.noticeRejected db key = .ok rest → view rest = view db.rest

theorem keepsOutbox (hooks : DeliveryHooks ρ) :
    KeepsView hooks.receipts (OutboxTables.outbox : OutboxTables ρ → _) where
  confirmReceipt := by
    intro db key rest result
    obtain ⟨_, _, rfl⟩ := map_ok.1 result
    rfl
  noticeClaimed := by
    intro db key rest result
    obtain ⟨_, _, rfl⟩ := map_ok.1 result
    rfl
  noticeRejected := by
    intro db key rest result
    obtain ⟨_, _, rfl⟩ := map_ok.1 result
    rfl

variable {db next : ReceiptDb ρ} {hooks : ReceiptHooks ρ} {key contentHash : String} {β : Type}

theorem followClaim_view {view : ρ → β} (keeps : KeepsView hooks view) {confirmed : Bool}
    (result : followClaim hooks db key confirmed = .ok next) : view next.rest = view db.rest := by
  unfold followClaim at result
  obtain ⟨rest, first, result⟩ := bind_ok.1 result
  obtain ⟨final, second, result⟩ := bind_ok.1 result
  cases result
  refine (keeps.noticeClaimed second).trans ?_
  cases confirmed with
  | true => exact keeps.confirmReceipt first
  | false =>
    cases first
    rfl

theorem claimReceipt_view {view : ρ → β} (keeps : KeepsView hooks view)
    {answer : ReceiptState} (result : claimReceipt hooks db key contentHash = .ok (answer, next)) :
    view next.rest = view db.rest := by
  unfold claimReceipt at result
  obtain ⟨⟨inserted, db1⟩, insertion, result⟩ := bind_ok.1 result
  have same : db1.rest = db.rest := by
    unfold insertReceipt at insertion
    split at insertion
    · cases insertion
    · split at insertion <;> cases insertion <;> rfl
  simp only at result
  split at result
  · cases result
  · next row found =>
    obtain ⟨final, follow, result⟩ := bind_ok.1 result
    cases result
    refine (followClaim_view keeps follow).trans ?_
    rw [← same]
    unfold claimRetry
    split <;> rfl

theorem beginGuardedIn_view {view : ρ → β} (keeps : KeepsView hooks view)
    {answer : ReceiptState} (live : answer.isHeld = false)
    (result : beginGuardedIn hooks key contentHash db = .ok (answer, next)) :
    view next.rest = view db.rest := by
  rcases beginGuardedIn_ok result with held | ⟨_, claimed⟩
  · rw [live] at held
    cases held
  · exact claimReceipt_view keeps claimed

/-- No disposition covers a receipt that a claim may insert, so nothing is captured. -/
theorem beginGuardedIn_archive {answer : ReceiptState} (live : answer.isHeld = false)
    (result : beginGuardedIn hooks key contentHash db = .ok (answer, next)) :
    next.archive = db.archive := by
  have claimed : claimReceipt hooks db key contentHash = .ok (answer, next) := by
    rcases beginGuardedIn_ok result with held | ⟨_, claimed⟩
    · rw [live] at held
      cases held
    · exact claimed
  have uncovered : ∀ d ∈ db.archive.dispositions,
      (d.phase != .abortedSourceChanged && hooks.keyChannel key == some d.channelId) = false := by
    unfold beginGuardedIn at result
    simp only at result
    split at result
    · simp only [Except.ok.injEq, Prod.mk.injEq] at result
      rw [← result.1] at live
      cases live
    · next open_ =>
      simp only [Bool.or_eq_true, not_or, Bool.not_eq_true] at open_
      obtain ⟨⟨valid, unblocked⟩, _⟩ := open_
      intro d member
      cases channel : (hooks.keyChannel key).filter (0 < ·) with
      | none =>
        -- without a channel the claim is held as soon as there is any disposition
        rw [channel] at valid
        simp only [Option.isNone_none, Bool.true_and, Bool.not_eq_false',
          List.isEmpty_iff] at valid
        rw [valid] at member
        cases member
      | some c =>
        rw [channel] at unblocked
        have named : hooks.keyChannel key = some c := (Option.filter_eq_some_iff.1 channel).1
        have open_ := List.any_eq_false.1 unblocked d member
        simp only [Bool.or_eq_true, not_or, Bool.not_eq_true] at open_
        rw [named, Bool.and_comm]
        exact open_.1
  unfold claimReceipt at claimed
  obtain ⟨⟨inserted, db1⟩, insertion, claimed⟩ := bind_ok.1 claimed
  have same : db1.archive = db.archive := by
    unfold insertReceipt at insertion
    split at insertion
    · cases insertion
    · split at insertion
      · cases insertion
        rfl
      · cases insertion
        have none_covers : (db.archive.dispositions.filter fun d =>
            d.phase != .abortedSourceChanged && hooks.keyChannel key == some d.channelId) = [] := by
          rw [List.filter_eq_nil_iff]
          intro d member
          simp [uncovered d member]
        simp [Archive.capture, none_covers]
  simp only at claimed
  split at claimed
  · cases claimed
  · next row found =>
    obtain ⟨final, follow, claimed⟩ := bind_ok.1 claimed
    obtain ⟨rest, rfl⟩ := followClaim_ok follow
    cases claimed
    rw [← same]
    unfold claimRetry
    split <;> rfl

theorem beginGuarded_frame {view : ρ → β} (keeps : KeepsView hooks view)
    {answer : Except StoreError ReceiptState}
    (call : beginGuarded hooks key contentHash db = (answer, next)) :
    view next.rest = view db.rest ∧ next.archive = db.archive := by
  cases answer with
  | error e => exact commitWhen_error call ▸ ⟨rfl, rfl⟩
  | ok state =>
    obtain ⟨body, result, kept⟩ := commitWhen_ok call
    cases held : state.isHeld with
    | true =>
      rw [kept, held]
      exact ⟨rfl, rfl⟩
    | false =>
      rw [kept, held]
      exact ⟨beginGuardedIn_view keeps held result, beginGuardedIn_archive held result⟩

theorem confirm_frame {view : ρ → β} (keeps : KeepsView hooks view) {messageId : String}
    {answer : Except StoreError Bool} (call : confirm hooks key messageId db = (answer, next)) :
    view next.rest = view db.rest ∧ next.archive = db.archive := by
  cases answer with
  | error e => exact commit_error call ▸ ⟨rfl, rfl⟩
  | ok confirmed =>
    have result := commit_ok call
    unfold confirmIn at result
    cases archived : confirmRetired db key messageId with
    | some final =>
      simp only [archived, Except.ok.injEq] at result
      subst result
      unfold confirmRetired at archived
      split at archived
      · cases archived
      · split at archived <;> cases archived <;> exact ⟨rfl, rfl⟩
    | none =>
      simp only [archived] at result
      split at result
      · obtain ⟨rest, noted, result⟩ := bind_ok.1 result
        have kept := keeps.confirmReceipt noted
        cases result
        exact ⟨kept, rfl⟩
      · cases result
        exact ⟨rfl, rfl⟩

theorem releaseRejected_frame {view : ρ → β} (keeps : KeepsView hooks view)
    {answer : Except StoreError Bool} (call : releaseRejected hooks key db = (answer, next)) :
    view next.rest = view db.rest ∧ next.archive = db.archive := by
  cases answer with
  | error e => exact commit_error call ▸ ⟨rfl, rfl⟩
  | ok released =>
    have result := commit_ok call
    unfold releaseRejectedIn at result
    simp only at result
    split at result
    · obtain ⟨rest, noted, result⟩ := bind_ok.1 result
      have kept := keeps.noticeRejected noted
      cases result
      exact ⟨kept, rfl⟩
    · cases result
      exact ⟨rfl, rfl⟩

theorem blockRejected_frame {reason : String}
    {answer : Except StoreError Bool} (call : blockRejected key reason db = (answer, next)) :
    next.rest = db.rest ∧ next.archive = db.archive := by
  cases answer with
  | error e => exact commit_error call ▸ ⟨rfl, rfl⟩
  | ok blocked =>
    have result := commit_ok call
    simp only [Except.ok.injEq] at result
    rw [Prod.mk.injEq] at result
    obtain ⟨_, rfl⟩ := result
    exact ⟨rfl, rfl⟩

theorem confirmRetired_others {messageId other : String} {answer : Bool} {c : Confirmation}
    (result : confirmRetired db key messageId = some (answer, next)) (different : other ≠ key)
    (found : next.confirmations.find other = some c) : db.confirmations.find other = some c := by
  unfold confirmRetired at result
  split at result
  · cases result
  · split at result
    · cases result
      exact found
    · cases result
      simp only at found
      split at found
      · split at found
        · rw [Table.find_insertOrIgnore, if_neg (Ne.symm different)] at found
          exact found
        · exact found
      · exact found

/-- New confirmations are evidence for archived receipts. -/
theorem receiptStep_evidenceRetired {db next : DeliveryDb ρ} {event : ReceiptEvent}
    (step : ReceiptStep db event next) (retired : EvidenceRetired db) : EvidenceRetired next := by
  have kept {final : DeliveryDb ρ} (archive : db.archive.Extends final.archive)
      (same : final.confirmations = db.confirmations) : EvidenceRetired final := by
    intro key c found
    rw [same] at found
    exact archive.recordRetired (retired key c found)
  have extends_ := (receiptStep_evidence step).1
  cases step with
  | began hooks key contentHash call =>
    rename_i answer
    cases answer with
    | error e => exact commitWhen_error call ▸ retired
    | ok state =>
      rcases beginGuarded_spec call with ⟨_, rfl⟩ | ⟨_, _, _, only⟩
      · exact retired
      · exact kept extends_ only.confirmations
  | confirmed hooks key messageId call =>
    rename_i answer
    cases answer with
    | error e => exact commit_error call ▸ retired
    | ok confirmed =>
      rcases confirm_spec call with archived | ⟨_, only, _⟩
      · intro other c found
        by_cases same : other = key
        · subst same
          exact extends_.recordRetired (confirmRetired_slot archived).1
        · exact extends_.recordRetired
            (retired other c (confirmRetired_others archived same found))
      · exact kept extends_ only.confirmations
  | released hooks key call =>
    rename_i answer
    cases answer with
    | error e => exact commit_error call ▸ retired
    | ok _ => exact kept extends_ (releaseRejected_spec call).1.confirmations
  | blocked key reason call =>
    rename_i answer
    cases answer with
    | error e => exact commit_error call ▸ retired
    | ok _ => exact kept extends_ (blockRejected_spec call).1.confirmations
  | failed _ _ => exact retired
  | restarted => exact retired
  | elsewhere archive rest evidence => exact kept extends_ rfl

/-- Any receipt operation on any key, as long as it leaves the outbox alone. -/
theorem receiptStep_later {db next : DeliveryDb ρ} {event : ReceiptEvent}
    (step : ReceiptStep db event next) (outbox : next.rest.outbox = db.rest.outbox)
    (captured : CapturesRows db next) : Later db next where
  archive := (receiptStep_evidence step).1
  captured := captured
  receipts key r found := by
    have move := receiptStep_slot step key
    rw [found] at move
    obtain ⟨r', later, hash⟩ := move.keeps_hash
    refine ⟨r', later, hash, ?_⟩
    intro m message
    obtain ⟨r'', same, kept⟩ := move.keeps_sent ⟨r, rfl, message⟩
    rw [later, Option.some.injEq] at same
    exact same ▸ kept
  outbox id row found := ⟨row, outbox ▸ found, rfl, rfl⟩
  evidence := receiptStep_evidenceRetired step

end CodexRemote.Verified.Delivery

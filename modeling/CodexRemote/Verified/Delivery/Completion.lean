import CodexRemote.Verified.Delivery.Later

/-! # Operations that may delete a row of the outbox -/

namespace CodexRemote.Verified.Delivery

open Foundations Store Discord
open Verified.DeliveryReceipt

variable {ρ : Type}

/-- The receipt under `key` records this chunk's content and has a message. -/
def ChunkDelivered (sha256 : String → String) (db : DeliveryDb ρ) (key chunk : String) : Prop :=
  ∃ receipt, db.receipts.find key = some receipt ∧ receipt.contentHash = sha256 chunk ∧
    receipt.messageId.isSome

/-- Every chunk of the row's text is delivered under its own index, channel, domain and
logical key. -/
def WholeTextDelivered (sha256 : String → String) (db : DeliveryDb ρ) (row : StoredDelivery) :
    Prop :=
  ∀ index chunk, (splitDeliveryChunks row.content true)[index]? = some chunk →
    ChunkDelivered sha256 db
      (receiptKey (toString row.channelId) "completion/v1" row.deliveryId index) chunk

variable {db next : DeliveryDb ρ} {hooks : DeliveryHooks ρ}

theorem ChunkDelivered.later {sha256 : String → String}
    {key chunk : String} (delivered : ChunkDelivered sha256 db key chunk) (later : Later db next) :
    ChunkDelivered sha256 next key chunk := by
  obtain ⟨receipt, found, hash, message⟩ := delivered
  obtain ⟨m, sent⟩ := Option.isSome_iff_exists.1 message
  obtain ⟨receipt', found', hash', kept⟩ := later.receipts key receipt found
  exact ⟨receipt', found', hash'.trans hash, by rw [kept m sent]; rfl⟩

/-! ## The fast path -/

/-- Receipts, archive, confirmations and outbox are as they were. -/
structure Untouched (db next : DeliveryDb ρ) : Prop where
  slots : ∀ key, slotOf next key = slotOf db key
  archive : next.archive = db.archive
  confirmations : next.confirmations = db.confirmations
  outbox : next.rest.outbox = db.rest.outbox

theorem Untouched.refl (db : DeliveryDb ρ) : Untouched db db := ⟨fun _ => rfl, rfl, rfl, rfl⟩

theorem Untouched.trans {a b c : DeliveryDb ρ} (left : Untouched a b) (right : Untouched b c) :
    Untouched a c where
  slots key := (right.slots key).trans (left.slots key)
  archive := right.archive.trans left.archive
  confirmations := right.confirmations.trans left.confirmations
  outbox := right.outbox.trans left.outbox

theorem claimAnswer_delivered {row : ReceiptRow} {contentHash m : String}
    (answer : claimAnswer row contentHash false = .delivered m) :
    row.contentHash = contentHash ∧ row.messageId = some m := by
  obtain ⟨_, hash, message, _, blocked⟩ := row
  by_cases same : hash = contentHash
  · cases message <;> cases blocked <;> simp_all [claimAnswer]
  · simp [claimAnswer, same] at answer

/-- A claim that answers Delivered changes nothing and proves the receipt. -/
theorem beginGuardedIn_delivered {key contentHash m : String}
    (result : beginGuardedIn hooks.receipts key contentHash db = .ok (.delivered m, next)) :
    Untouched db next ∧ ∃ row, slotOf db key = some row ∧ row.contentHash = contentHash ∧
      row.messageId = some m := by
  have archive := beginGuardedIn_archive rfl result
  have outbox := beginGuardedIn_view (keepsOutbox hooks) rfl result
  rcases beginGuardedIn_ok result with held | ⟨live, claimed⟩
  · cases held
  · obtain ⟨answer, slot, only⟩ := claimReceipt_ok live claimed
    have other : (slotOf db key).claim key contentHash = (.delivered m, slotOf next key) :=
      Prod.ext answer.symm slot.symm
    obtain ⟨same, row, found, delivered⟩ := Slot.claim_other other (by simp)
    have untouched : Untouched db next := by
      refine ⟨?_, archive, only.confirmations, outbox⟩
      intro k
      by_cases here : k = key
      · subst here
        exact same
      · exact only.others k here
    exact ⟨untouched, row, found, claimAnswer_delivered delivered.symm⟩

theorem claimConfirmed_delivered {pending : StoredDelivery} {chunks : List String} {index : Nat}
    (result : claimConfirmed hooks pending index chunks db = .ok (true, next)) :
    Untouched db next ∧ ∀ i chunk, chunks[i]? = some chunk →
      ChunkDelivered hooks.sha256 next (confirmedChunkKey pending (index + i)) chunk := by
  induction chunks generalizing index db with
  | nil =>
    simp only [claimConfirmed, Except.ok.injEq, Prod.mk.injEq, true_and] at result
    subst result
    exact ⟨Untouched.refl db, by simp⟩
  | cons chunk chunks ih =>
    unfold claimConfirmed at result
    obtain ⟨⟨state, middle⟩, claim, result⟩ := bind_ok.1 result
    cases state with
    | delivered m =>
      obtain ⟨first, row, found, hash, message⟩ := beginGuardedIn_delivered claim
      obtain ⟨rest, delivered⟩ := ih result
      refine ⟨first.trans rest, ?_⟩
      intro i text at_i
      cases i with
      | zero =>
        simp only [List.getElem?_cons_zero, Option.some.injEq] at at_i
        subst at_i
        refine ⟨row, ?_, hash, by rw [message]; rfl⟩
        exact ((first.trans rest).slots _).trans found
      | succ i =>
        have shifted := delivered i text (by simpa using at_i)
        rwa [Nat.add_right_comm] at shifted
    | new | unknown | contentConflict | rejectedBlocked _ | held _ => simp at result

theorem deleteDelivery_find (db : DeliveryDb ρ) (deliveryId id : String) :
    (deleteDelivery db deliveryId).2.rest.outbox.find id =
      if id = deliveryId ∧ db.archive.recordRetired .deliveryOutbox deliveryId = false then none
      else db.rest.outbox.find id := by
  simp only [deleteDelivery, Table.find_delete]
  cases found : db.rest.outbox.find id with
  | none => simp
  | some row =>
    have same := Table.find_key found
    by_cases named : id = deliveryId
    · cases retired : db.archive.recordRetired .deliveryOutbox deliveryId <;>
        simp [same, named, Option.filter]
    · simp [same, named, Option.filter]

/-- A deletion leaves the archive and the receipts alone. -/
theorem deleteDelivery_later (db : DeliveryDb ρ) (deliveryId : String) :
    Later db (deleteDelivery db deliveryId).2 where
  archive := Archive.Extends.refl _
  captured := CapturesRows.of_archive rfl
  receipts _ r found := ⟨r, found, rfl, fun _ message => message⟩
  outbox id row found := by
    rw [deleteDelivery_find] at found
    split at found
    · cases found
    · exact ⟨row, found, rfl, rfl⟩
  evidence := id

theorem Untouched.later (same : Untouched db next) : Later db next where
  archive := same.archive ▸ Archive.Extends.refl _
  captured := CapturesRows.of_archive same.archive
  receipts key r found := ⟨r, (same.slots key).trans found, rfl, fun _ message => message⟩
  outbox _ row found := ⟨row, same.outbox ▸ found, rfl, rfl⟩
  evidence retired key c found := by
    rw [same.archive]
    rw [same.confirmations] at found
    exact retired key c found

theorem completeConfirmed_true {pending : StoredDelivery} {chunks : List String}
    (call : completeConfirmed hooks pending chunks db = (.ok true, next)) :
    db.rest.outbox.find pending.deliveryId = some pending ∧ Later db next ∧
      (∀ i chunk, chunks[i]? = some chunk →
        ChunkDelivered hooks.sha256 next (confirmedChunkKey pending i) chunk) ∧
      ∀ id, id ≠ pending.deliveryId → next.rest.outbox.find id = db.rest.outbox.find id := by
  unfold completeConfirmed at call
  split at call
  · cases call
  · obtain ⟨body, result, committed⟩ := commitWhen_ok call
    have same : next = body := committed
    subst same
    unfold completeConfirmedIn at result
    obtain ⟨_, _, result⟩ := bind_ok.1 result
    split at result
    · cases result
    · next stored found =>
      rcases ite_ok.1 result with ⟨_, refused⟩ | ⟨unchanged, result⟩
      · cases refused
      · obtain ⟨readiness, _, result⟩ := bind_ok.1 result
        rcases ite_ok.1 result with ⟨_, refused⟩ | ⟨_, result⟩
        · cases refused
        · obtain ⟨⟨confirmed, claimed⟩, claims, result⟩ := bind_ok.1 result
          cases confirmed with
          | false => cases result
          | true =>
            obtain ⟨untouched, delivered⟩ := claimConfirmed_delivered claims
            have deleted : next = (deleteDelivery claimed pending.deliveryId).2 := by
              simp only [if_true, Except.ok.injEq] at result
              rw [result]
            have gone := deleteDelivery_later claimed pending.deliveryId
            refine ⟨?_, ?_, ?_, ?_⟩
            · rw [found, not_not.1 unchanged]
            · exact deleted ▸ untouched.later.trans gone
            · intro i chunk at_i
              have here := delivered i chunk at_i
              rw [Nat.zero_add] at here
              exact deleted ▸ here.later gone
            · intro id different
              rw [deleted, deleteDelivery_find, if_neg (fun both => different both.1),
                untouched.outbox]

/-- Every other answer leaves the whole database as it was. -/
theorem completeConfirmed_restores {pending : StoredDelivery}
    {chunks : List String} {answer : Except StoreError Bool}
    (call : completeConfirmed hooks pending chunks db = (answer, next)) (other : answer ≠ .ok true) :
    next = db := by
  unfold completeConfirmed at call
  split at call
  · exact (Prod.mk.injEq .. ▸ call).2.symm
  · cases answer with
    | error e => exact commitWhen_error call
    | ok confirmed =>
      cases confirmed with
      | true => exact absurd rfl other
      | false =>
        obtain ⟨_, _, committed⟩ := commitWhen_ok call
        exact committed

/-! ## The ordinary path -/

theorem complete_spec {deliveryId : String}
    {answer : Except StoreError Bool} (call : complete deliveryId db = (answer, next)) :
    next = (deleteDelivery db deliveryId).2 := by
  simp only [complete, commit, commitWhen, if_true, Prod.mk.injEq] at call
  exact call.2.symm

theorem recordFailure_spec {deliveryId error : String} {now : Rat}
    {answer : Except StoreError StoredDelivery}
    (call : recordFailure deliveryId error now db = (answer, next)) :
    Later db next ∧ ∀ id, next.rest.outbox.find id = none → db.rest.outbox.find id = none := by
  cases answer with
  | error e =>
    rw [commit_error call]
    exact ⟨Later.refl db, fun _ gone => gone⟩
  | ok delivery =>
    have result := commit_ok call
    unfold recordFailureIn at result
    simp only at result
    split at result
    · cases result
    · split at result
      · cases result
      · cases result
        refine ⟨⟨Archive.Extends.refl _, CapturesRows.of_archive rfl,
          fun _ r found => ⟨r, found, rfl, fun _ message => message⟩, ?_, id⟩, ?_⟩
        · intro id later found
          rw [Table.find_update] at found
          obtain ⟨row, present, rfl⟩ := Option.map_eq_some_iff.1 found
          refine ⟨row, present, ?_⟩
          split <;> exact ⟨rfl, rfl⟩
        · intro id gone
          rw [Table.find_update] at gone
          exact Option.map_eq_none_iff.1 gone

end CodexRemote.Verified.Delivery

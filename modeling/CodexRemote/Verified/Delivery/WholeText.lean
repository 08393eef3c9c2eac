import CodexRemote.Runtime.Delivery
import CodexRemote.Verified.Delivery.Completion

/-! # A final leaves the outbox only after its whole text was delivered -/

namespace CodexRemote.Verified.Delivery

open Foundations Store CodexRemote.Runtime Discord
open Verified.DeliveryReceipt

variable {ρ Tid : Type}

/-- An answer other than `Ok(true)` of `complete_confirmed` leaves the database as it was. -/
def RestoresUnlessTrue (db : DeliveryDb ρ) (call : DeliveryCall) (answer : call.Answer)
    (next : DeliveryDb ρ) : Prop :=
  match call with
  | .completeConfirmed _ _ => (answer : Except StoreError Bool) ≠ .ok true → next = db
  | _ => True

/-- What every call of a delivering task keeps. -/
structure Kept (R : Rendering) (db : DeliveryDb ρ) (call : DeliveryCall) (answer : call.Answer)
    (next : DeliveryDb ρ) : Prop where
  later : Later db next
  delivered : ∀ row ∈ db.rest.outbox.rows, next.rest.outbox.find row.deliveryId = none →
    WholeTextDelivered R.sha256 next row
  restored : RestoresUnlessTrue db call answer next

def deliveryDiscipline (R : Rendering) :
    Discipline Tid (DeliveryDb ρ) DeliveryCall DeliveryCall.Answer where
  does _ := deliveryDoes R
  rely _ := Later
  guarantee _ := Kept R
  refl _ := Later.refl
  trans _ _ _ _ := Later.trans

/-! ## Calls that delete nothing -/

variable {R : Rendering} {db next : DeliveryDb ρ} {contentHash key chunk : String}
  {answer : Except StoreError Bool} {pending : StoredDelivery} {index : Nat}

theorem Kept.of_outbox {call : DeliveryCall} {answer : call.Answer} (later : Later db next)
    (rows : ∀ id, next.rest.outbox.find id = none → db.rest.outbox.find id = none)
    (restored : RestoresUnlessTrue db call answer next) : Kept R db call answer next where
  later := later
  delivered row member gone := by
    have absent := rows row.deliveryId gone
    rw [Table.find_of_mem member] at absent
    cases absent
  restored := restored

theorem Kept.same {call : DeliveryCall} {answer : call.Answer} :
    Kept R db call answer db := by
  refine Kept.of_outbox (Later.refl db) (fun _ gone => gone) ?_
  cases call <;> first | exact fun _ => rfl | trivial

/-- A receipt operation of the delivery path, whose hooks leave the outbox alone. -/
theorem receiptCall_later {event : ReceiptEvent} (step : ReceiptStep db event next)
    (frame : next.rest.outbox = db.rest.outbox ∧ next.archive = db.archive) :
    Later db next ∧ ∀ id, next.rest.outbox.find id = none → db.rest.outbox.find id = none :=
  ⟨receiptStep_later step frame.1 (CapturesRows.of_archive frame.2),
    fun _ gone => frame.1 ▸ gone⟩

theorem beginGuarded_kept {answer : Except StoreError ReceiptState}
    (does : deliveryDoes R db (.beginGuarded key contentHash) answer next) :
    Kept R db (.beginGuarded key contentHash) answer next := by
  rcases does with ⟨hooks, _, call⟩ | ⟨_, rfl⟩
  · obtain ⟨later, rows⟩ := receiptCall_later (.began hooks.receipts key contentHash call)
      (beginGuarded_frame (keepsOutbox hooks) call)
    exact Kept.of_outbox later rows trivial
  · exact Kept.same

theorem confirm_kept {messageId : String}
    (does : deliveryDoes R db (.confirm key messageId) answer next) :
    Kept R db (.confirm key messageId) answer next := by
  rcases does with ⟨hooks, _, call⟩ | ⟨_, rfl⟩
  · obtain ⟨later, rows⟩ := receiptCall_later (.confirmed hooks.receipts key messageId call)
      (confirm_frame (keepsOutbox hooks) call)
    exact Kept.of_outbox later rows trivial
  · exact Kept.same

theorem releaseRejected_kept (does : deliveryDoes R db (.releaseRejected key) answer next) :
    Kept R db (.releaseRejected key) answer next := by
  rcases does with ⟨hooks, _, call⟩ | ⟨_, rfl⟩
  · obtain ⟨later, rows⟩ := receiptCall_later (.released hooks.receipts key call)
      (releaseRejected_frame (keepsOutbox hooks) call)
    exact Kept.of_outbox later rows trivial
  · exact Kept.same

theorem blockRejected_kept {reason : String}
    (does : deliveryDoes R db (.blockRejected key reason) answer next) :
    Kept R db (.blockRejected key reason) answer next := by
  rcases does with ⟨_, _, call⟩ | ⟨_, rfl⟩
  · obtain ⟨rest, archive⟩ := blockRejected_frame call
    obtain ⟨later, rows⟩ := receiptCall_later (.blocked key reason call) ⟨by rw [rest], archive⟩
    exact Kept.of_outbox later rows trivial
  · exact Kept.same

theorem recordFailure_kept {deliveryId error : String}
    {now : Rat} {answer : Except StoreError StoredDelivery}
    (does : deliveryDoes R db (.recordFailure deliveryId error now) answer next) :
    Kept R db (.recordFailure deliveryId error now) answer next := by
  rcases does with ⟨_, _, call⟩ | ⟨_, rfl⟩
  · obtain ⟨later, rows⟩ := recordFailure_spec call
    exact Kept.of_outbox later rows trivial
  · exact Kept.same

def readsOnly : DeliveryCall → Prop
  | .finalPreflight _ | .admits _ | .request _ _ | .confirmedMessage _ _ | .now => True
  | _ => False

theorem readsOnly_same (call : DeliveryCall) {answer : call.Answer}
    (reads : readsOnly call) (does : deliveryDoes R db call answer next) :
    next = db := by
  cases call with
  | finalPreflight _ | admits _ | confirmedMessage _ _ =>
    rcases does with ⟨_, _, call⟩ | ⟨_, same⟩
    · exact (Prod.mk.inj call).2.symm
    · exact same
  | request _ _ | now => exact does
  | _ => exact reads.elim

/-! ## Calls that may delete the row -/

/-- The outbox still holds this final, if it holds its id at all. -/
def Listed (db : DeliveryDb ρ) (pending : StoredDelivery) : Prop :=
  ∀ row, db.rest.outbox.find pending.deliveryId = some row →
    row.content = pending.content ∧ row.channelId = pending.channelId

/-- A chunk is delivered, unless its row cannot be deleted any more. -/
def ChunkSettled (R : Rendering) (db : DeliveryDb ρ) (pending : StoredDelivery) (index : Nat)
    (chunk : String) : Prop :=
  ChunkDelivered R.sha256 db (confirmedChunkKey pending index) chunk ∨ Covered db pending.deliveryId

def AllSettled (R : Rendering) (db : DeliveryDb ρ) (pending : StoredDelivery) : Prop :=
  ∀ index chunk, (splitDeliveryChunks pending.content true)[index]? = some chunk →
    ChunkSettled R db pending index chunk

theorem Listed.later
    (listed : Listed db pending) (later : Later db next) : Listed next pending := by
  intro row found
  obtain ⟨earlier, present, content, channel⟩ := later.outbox _ row found
  obtain ⟨content', channel'⟩ := listed earlier present
  exact ⟨content.symm.trans content', channel.symm.trans channel'⟩

theorem ChunkSettled.later (settled : ChunkSettled R db pending index chunk)
    (later : Later db next) : ChunkSettled R next pending index chunk :=
  settled.imp (fun delivered => delivered.later later) later.covered

theorem complete_kept (listed : Listed db pending) (settled : AllSettled R db pending)
    (does : deliveryDoes R db (.complete pending.deliveryId) answer next) :
    Kept R db (.complete pending.deliveryId) answer next := by
  rcases does with ⟨_, _, call⟩ | ⟨_, rfl⟩
  · have deleted := complete_spec call
    subst deleted
    have later := deleteDelivery_later db pending.deliveryId
    refine ⟨later, ?_, trivial⟩
    intro row member gone index chunk at_index
    have present := Table.find_of_mem member
    rw [deleteDelivery_find] at gone
    split at gone
    · next selected =>
      obtain ⟨same, live⟩ := selected
      rw [same] at present
      obtain ⟨content, channel⟩ := listed row present
      rw [content] at at_index
      rcases settled index chunk at_index with delivered | retired | absent
      · have key := chunkKey_congr same channel index
        have here := delivered.later later
        rw [← key] at here
        exact here
      · rw [live] at retired
        cases retired
      · rw [present] at absent
        cases absent
    · rw [present] at gone
      cases gone
  · exact Kept.same

theorem completeConfirmed_kept (does : deliveryDoes R db
      (.completeConfirmed pending (splitDeliveryChunks pending.content true)) answer next) :
    Kept R db (.completeConfirmed pending (splitDeliveryChunks pending.content true)) answer
      next := by
  rcases does with ⟨hooks, sha256, call⟩ | ⟨_, rfl⟩
  · by_cases completed : answer = .ok true
    · subst completed
      obtain ⟨stored, later, delivered, others⟩ := completeConfirmed_true call
      refine ⟨later, ?_, fun other => absurd rfl other⟩
      intro row member gone index chunk at_index
      have present := Table.find_of_mem member
      by_cases same : row.deliveryId = pending.deliveryId
      · rw [same, stored, Option.some.injEq] at present
        subst present
        rw [← sha256]
        exact delivered index chunk at_index
      · rw [others _ same, present] at gone
        cases gone
    · have same := completeConfirmed_restores call completed
      subst same
      exact Kept.same
  · exact Kept.same

/-! ## Sending one chunk -/

variable {R : Rendering} {tid : Tid}

theorem kept_later {call : DeliveryCall} {answer : call.Answer} {tid : Tid}
    (kept : (deliveryDiscipline R).guarantee tid db call answer next) :
    (deliveryDiscipline R).rely tid db next :=
  Kept.later kept

/-- The key the sending path builds for a positive channel is the one of `complete_confirmed`. -/
theorem sentChunkKey_eq (positive : 0 < pending.channelId) (index : Nat) :
    sentChunkKey pending.channelId.toNat completionDomain pending.deliveryId index =
      confirmedChunkKey pending index := by
  obtain ⟨n, same⟩ := Int.eq_ofNat_of_zero_le (Int.le_of_lt positive)
  unfold sentChunkKey confirmedChunkKey
  rw [same]
  rfl

/-- A claim of a chunk that answered New: its receipt records the content, and was live. -/
structure Claimed (db : DeliveryDb ρ) (pending : StoredDelivery) (index : Nat)
    (contentHash : String) : Prop where
  evidence : EvidenceRetired db
  listed : Listed db pending
  recorded : ∃ row, slotOf db (confirmedChunkKey pending index) = some row ∧
    row.contentHash = contentHash
  live : db.archive.recordRetired .deliveryReceipts (confirmedChunkKey pending index) = false ∨
    Covered db pending.deliveryId

theorem Claimed.later (claimed : Claimed db pending index contentHash)
    (later : Later db next) : Claimed next pending index contentHash where
  evidence := later.evidence claimed.evidence
  listed := claimed.listed.later later
  recorded := by
    obtain ⟨row, found, hash⟩ := claimed.recorded
    obtain ⟨row', found', hash', _⟩ := later.receipts _ row found
    exact ⟨row', found', hash'.trans hash⟩
  live := by
    rcases claimed.live with live | covered
    · cases retired : next.archive.recordRetired .deliveryReceipts
          (confirmedChunkKey pending index) with
      | false => exact Or.inl rfl
      | true =>
        -- the archive captured the receipt in between, and the row with it
        right
        cases found : db.rest.outbox.find pending.deliveryId with
        | none => exact later.covered (Or.inr found)
        | some row =>
          have key := chunkKey_congr (Table.find_key found) (claimed.listed row found).2 index
          rw [← key] at retired live
          rcases later.captured _ row index found retired with earlier | covered
          · rw [live] at earlier
            cases earlier
          · exact covered
    · exact Or.inr (later.covered covered)

theorem Claimed.archived (claimed : Claimed db pending index contentHash)
    (retired : db.archive.recordRetired .deliveryReceipts (confirmedChunkKey pending index)) :
    Covered db pending.deliveryId := by
  rcases claimed.live with live | covered
  · rw [live] at retired
    cases retired
  · exact covered

/-- A confirmation that answers true settles the claimed chunk. -/
theorem Claimed.confirm {messageId : String} (claimed : Claimed db pending index (R.sha256 chunk))
    (does : deliveryDoes R db (.confirm (confirmedChunkKey pending index) messageId) (.ok true) next) :
    ChunkSettled R next pending index chunk := by
  have later := (confirm_kept does).later
  rcases does with ⟨hooks, _, call⟩ | ⟨⟨_, failed⟩, _⟩
  · rcases confirm_spec call with archived | ⟨_, _, ⟨_, row, found, _, sent⟩ | ⟨refused, _⟩⟩
    · exact Or.inr (later.covered (claimed.archived (confirmRetired_slot archived).1))
    · obtain ⟨row', found', hash⟩ := claimed.recorded
      rw [found, Option.some.injEq] at found'
      subst found'
      exact Or.inl ⟨_, sent, hash, rfl⟩
    · cases refused
  · cases failed

/-- So does a message that was recorded before the request failed. -/
theorem Claimed.confirmedMessage (claimed : Claimed db pending index (R.sha256 chunk))
    (recorded : (confirmedMessage db (confirmedChunkKey pending index) (R.sha256 chunk)).isSome) :
    ChunkSettled R db pending index chunk := by
  obtain ⟨row, found, hash⟩ := claimed.recorded
  unfold slotOf at found
  cases message : row.messageId with
  | some m => exact Or.inl ⟨row, found, hash, by rw [message]; rfl⟩
  | none =>
    cases evidence : db.confirmations.find (confirmedChunkKey pending index) with
    | none =>
      simp [Store.confirmedMessage, found, hash, message, evidence, Option.filter] at recorded
    | some c => exact Or.inr (claimed.archived (claimed.evidence _ c evidence))

theorem settleRequest_safe
    {answer : HttpAnswer} (claimed : Claimed db pending index (R.sha256 chunk)) :
    SafeOk (deliveryDiscipline R) tid (fun _ t => ChunkSettled R t pending index chunk)
      (settleRequest (confirmedChunkKey pending index) (R.sha256 chunk) answer) db := by
  cases answer with
  | expired => exact SafeOk.throw
  | sent message =>
    apply SafeOk.bind
    apply SafeOk.performOr
    intro t later answer u does
    refine ⟨confirm_kept does, ?_⟩
    intro confirmed same v further
    have answered : answer = .ok confirmed := same
    subst answered
    cases confirmed with
    | false => exact SafeOk.throw
    | true =>
      have settled := (claimed.later later).confirm does
      exact SafeOk.pure fun w last => (settled.later further).later last
  | failed error =>
    apply SafeOk.bind
    apply SafeOk.performOr
    intro t later answer u does
    have unread := readsOnly_same (.confirmedMessage _ _) trivial does
    subst unread
    refine ⟨Kept.same, ?_⟩
    intro recorded same v further
    have answered : answer = .ok recorded := same
    subst answered
    cases found : recorded.isSome with
    | true =>
      simp only [if_true]
      have read : confirmedMessage u (confirmedChunkKey pending index) (R.sha256 chunk) =
          recorded := by
        rcases does with ⟨_, _, call⟩ | ⟨⟨_, failed⟩, _⟩
        · exact Except.ok.inj (Prod.mk.inj call).1
        · cases failed
      have settled := (claimed.later later).confirmedMessage (read ▸ found)
      exact SafeOk.pure fun w last => (settled.later further).later last
    | false =>
      simp only [Bool.false_eq_true, if_false]
      split
      · apply SafeOk.bind
        split
        · apply SafeOk.performOr
          intro _ _ _ _ does
          exact ⟨releaseRejected_kept does, fun _ _ _ _ => SafeOk.throw⟩
        · apply SafeOk.performOr
          intro _ _ _ _ does
          exact ⟨blockRejected_kept does, fun _ _ _ _ => SafeOk.throw⟩
      · exact SafeOk.throw

theorem beginGuarded_answer
    {state : ReceiptState} (does : deliveryDoes R db (.beginGuarded key contentHash) (.ok state) next) :
    (state = .new → (∃ row, slotOf next key = some row ∧ row.contentHash = contentHash) ∧
        next.archive.recordRetired .deliveryReceipts key = false) ∧
      ∀ m, state = .delivered m →
        ∃ row, slotOf next key = some row ∧ row.contentHash = contentHash ∧ row.messageId = some m := by
  rcases does with ⟨hooks, _, call⟩ | ⟨⟨_, failed⟩, _⟩
  · have archive := (beginGuarded_frame (keepsOutbox hooks) call).2
    rcases beginGuarded_spec call with ⟨held, _⟩ | ⟨live, answer, slot, _⟩
    · constructor
      · rintro rfl
        cases held
      · rintro m rfl
        cases held
    · have claimed : (slotOf db key).claim key contentHash = (state, slotOf next key) :=
        Prod.ext answer.symm slot.symm
      constructor
      · rintro rfl
        obtain ⟨_, _, row, found, hash, _⟩ := Slot.claim_new claimed
        exact ⟨⟨row, found, hash⟩, archive ▸ live⟩
      · rintro m rfl
        obtain ⟨same, row, found, delivered⟩ := Slot.claim_other claimed (by simp)
        exact ⟨row, same.trans found, claimAnswer_delivered delivered.symm⟩
  · cases failed

/-- What is known of a final while it is being sent. -/
structure Sending (db : DeliveryDb ρ) (pending : StoredDelivery) : Prop where
  evidence : EvidenceRetired db
  listed : Listed db pending
  positive : 0 < pending.channelId

theorem Sending.later
    (sending : Sending db pending) (later : Later db next) : Sending next pending :=
  ⟨later.evidence sending.evidence, sending.listed.later later, sending.positive⟩

theorem sendChunkGuarded_safe (sending : Sending db pending) :
    SafeOk (deliveryDiscipline R) tid (fun _ t => ChunkSettled R t pending index chunk)
      (sendChunkGuarded R pending.channelId.toNat completionDomain pending.deliveryId index chunk)
      db := by
  unfold sendChunkGuarded
  rw [sentChunkKey_eq sending.positive]
  split
  · exact SafeOk.throw
  · apply SafeOk.bind
    apply SafeOk.performOr
    intro t later answer u does
    have unread := readsOnly_same (.admits _) trivial does
    subst unread
    refine ⟨Kept.same, ?_⟩
    intro _ _ v further
    split
    · exact SafeOk.throw
    · apply SafeOk.bind
      apply SafeOk.performOr
      intro t' later' answer' u' does'
      refine ⟨beginGuarded_kept does', ?_⟩
      intro state same v' further'
      have answered : answer' = .ok state := same
      subst answered
      obtain ⟨fresh, delivered⟩ := beginGuarded_answer does'
      have known := sending.later
        (((later.trans further).trans later').trans (beginGuarded_kept does').later)
      cases state with
      | held _ | unknown | contentConflict | rejectedBlocked _ => exact SafeOk.throw
      | delivered m =>
        obtain ⟨row, found, hash, message⟩ := delivered m rfl
        have settled : ChunkSettled R u' pending index chunk :=
          Or.inl ⟨row, found, hash, by rw [message]; rfl⟩
        exact SafeOk.pure fun w last => (settled.later further').later last
      | new =>
        obtain ⟨recorded, live⟩ := fresh rfl
        have claimed : Claimed u' pending index (R.sha256 chunk) :=
          ⟨known.evidence, known.listed, recorded, Or.inl live⟩
        apply SafeOk.bind
        apply SafeOk.performOr
        intro t'' later'' answer'' u'' does''
        have unread : u'' = t'' := does''
        subst unread
        refine ⟨Kept.same, ?_⟩
        intro http _ v'' further''
        exact settleRequest_safe (claimed.later ((further'.trans later'').trans further''))

/-! ## Sending a final -/

theorem deliverChunks_safe {total : Nat} {chunks : List String} (sending : Sending db pending) :
    SafeOk (deliveryDiscipline R) tid
      (fun _ t => ∀ i chunk, chunks[i]? = some chunk → ChunkSettled R t pending (index + i) chunk)
      (deliverChunks R pending.channelId.toNat completionDomain pending.deliveryId total index chunks)
      db := by
  induction chunks generalizing index db with
  | nil => exact SafeOk.pure fun _ _ i chunk impossible => by simp at impossible
  | cons chunk chunks ih =>
    apply SafeOk.bind
    have first : SafeOk (deliveryDiscipline R) tid (fun _ t => ChunkSettled R t pending index chunk)
        (tryCatch (sendChunkGuarded R pending.channelId.toNat completionDomain pending.deliveryId
          index chunk) fun source => throw (partFailure R (index + 1) total source)) db :=
      SafeOk.rethrow (sendChunkGuarded_safe sending) (fun _ => ⟨_, rfl⟩)
        (fun settled later => ChunkSettled.later settled later)
    refine (SafeOk.frame kept_later first (Later.refl db)).weaken ?_
    rintro _ t ⟨settled, later⟩
    refine (SafeOk.frame kept_later (ih (sending.later later)) (Later.refl t)).weaken ?_
    rintro _ u ⟨others, since⟩ i text at_i
    cases i with
    | zero =>
      simp only [List.getElem?_cons_zero, Option.some.injEq] at at_i
      exact at_i ▸ settled.later since
    | succ i =>
      have shifted := others i text (by simpa using at_i)
      rwa [Nat.add_right_comm] at shifted

/-- A final that is done sending has every chunk settled. -/
theorem sendFinal_safe (evidence : EvidenceRetired db) (listed : Listed db pending) :
    SafeOk (deliveryDiscipline R) tid (fun _ t => AllSettled R t pending) (sendFinal R pending)
      db := by
  unfold sendFinal i64Channel
  by_cases positive : 0 < pending.channelId
  · rw [if_pos positive]
    apply SafeOk.bind
    refine (deliverChunks_safe ⟨evidence, listed, positive⟩).weaken ?_
    intro _ t settled
    refine SafeOk.pure ?_
    intro u later i chunk at_i
    have here := settled i chunk at_i
    rw [Nat.zero_add] at here
    exact here.later later
  · rw [if_neg positive]
    exact SafeOk.throw

theorem completeConfirmedFinal_safe :
    SafeOk (deliveryDiscipline R) tid (fun _ _ => True) (completeConfirmedFinal R pending) db := by
  unfold completeConfirmedFinal
  split
  · exact SafeOk.pure fun _ _ => trivial
  · simp only
    split
    · exact SafeOk.pure fun _ _ => trivial
    · apply SafeOk.performOr
      intro _ _ _ _ does
      exact ⟨completeConfirmed_kept does, fun _ _ _ _ => trivial⟩

theorem attemptFinal_safe (evidence : EvidenceRetired db) (listed : Listed db pending) :
    SafeOk (deliveryDiscipline R) tid
      (fun complete t => complete = false → AllSettled R t pending) (attemptFinal R pending) db := by
  apply SafeOk.bind
  refine (SafeOk.frame kept_later completeConfirmedFinal_safe (Later.refl db)).weaken ?_
  rintro completed t ⟨_, later⟩
  cases completed with
  | true =>
    refine SafeOk.pure ?_
    rintro _ _ ⟨⟩
  | false =>
    apply SafeOk.bind
    apply SafeOk.performOr
    intro u later' answer v does
    have unread := readsOnly_same (.finalPreflight _) trivial does
    subst unread
    refine ⟨Kept.same, ?_⟩
    intro readiness _ w later''
    have since := (later.trans later').trans later''
    cases readiness with
    | held _ | firstReply _ | commentary | goalProgress => exact SafeOk.throw
    | ready =>
      refine (sendFinal_safe (since.evidence evidence) (listed.later since)).weaken ?_
      intro _ _ settled _
      exact settled

theorem finishFinal_safe {outcome : Except CompletionWorkerError Bool} (listed : Listed db pending)
    (settled : outcome = .ok false → AllSettled R db pending) :
    SafeOk (deliveryDiscipline R) tid (fun _ _ => True) (finishFinal R pending outcome) db := by
  have recorded (error : CompletionWorkerError) : SafeOk (deliveryDiscipline R) tid
      (fun _ _ => True) (do
        let time ← performOr .now id .store
        let _ ← performOr (.recordFailure pending.deliveryId (error.toText R) time) id .store
        throw error : DeliveryProg Unit) db := by
    apply SafeOk.bind
    apply SafeOk.performOr
    intro t later answer u does
    have unread : u = t := does
    subst unread
    refine ⟨Kept.same, ?_⟩
    intro time _ v further
    apply SafeOk.bind
    apply SafeOk.performOr
    intro _ _ _ _ does
    exact ⟨recordFailure_kept does, fun _ _ _ _ => SafeOk.throw⟩
  cases outcome with
  | ok completed =>
    cases completed with
    | true => exact SafeOk.pure fun _ _ => trivial
    | false =>
      apply SafeOk.bind
      apply SafeOk.performOr
      intro t later answer u does
      have done : AllSettled R t pending :=
        fun i chunk at_i => (settled rfl i chunk at_i).later later
      refine ⟨complete_kept (listed.later later) done does, ?_⟩
      intro _ _ _ _
      exact SafeOk.pure fun _ _ => trivial
  | error error =>
    cases error with
    | held reason => exact SafeOk.throw
    | store e => exact recorded (.store e)
    | delivery text => exact recorded (.delivery text)
    | channelId => exact recorded .channelId

theorem deliverOne_safe (evidence : EvidenceRetired db) (listed : Listed db pending) :
    Safe (deliveryDiscipline R) tid (fun _ _ => True) (deliverOne R pending) db := by
  apply Safe.bind
  refine (Safe.frame kept_later (attemptFinal_safe evidence listed) (Later.refl db)).weaken ?_
  rintro outcome t ⟨settled, later⟩
  refine Safe.weaken (finishFinal_safe (listed.later later) ?_) fun _ _ _ => trivial
  intro done
  exact settled false done rfl

/-! ## Every run -/

/-- Tasks deliver rows they read from the outbox, and may stop at any call; the rest of the
program may use any receipt and archive rooms, but writes no finals. -/
def deliverySurroundings (R : Rendering) : Surroundings Tid (DeliveryDb ρ) DeliveryCall
    DeliveryCall.Answer (Except CompletionWorkerError Unit) where
  starts _ p db := ∃ pending ∈ db.rest.outbox.rows, p = deliverOne R pending
  leaves _ db next := next = db
  crashes db next := next = db
  interferes db next := ∃ event, ReceiptStep db event next ∧
    next.rest.outbox = db.rest.outbox ∧ CapturesRows db next

theorem delivery_compatible (R : Rendering) :
    Compatible (deliveryDiscipline R) (deliverySurroundings R : Surroundings Tid (DeliveryDb ρ) ..)
      EvidenceRetired where
  others _ kept := kept.later
  leaves _ same := same ▸ Later.refl _
  interferes := by
    rintro _ _ _ ⟨event, step, outbox, captured⟩
    exact receiptStep_later step outbox captured
  starts := by
    rintro tid _ db evidence ⟨pending, member, rfl⟩
    refine deliverOne_safe evidence ?_
    intro row found
    rw [Table.find_of_mem member, Option.some.injEq] at found
    subst found
    exact ⟨rfl, rfl⟩
  kept evidence kept := kept.later.evidence evidence
  kept_leaves evidence same := same ▸ evidence
  kept_crashes evidence same := same ▸ evidence
  kept_interferes := by
    rintro _ _ evidence ⟨event, step, _, _⟩
    exact receiptStep_evidenceRetired step evidence

/-- In every run of any number of delivering tasks, with crashes, restarts and whatever the
guards and Discord answer: a call that makes a row disappear leaves every chunk of the row's
text with a receipt of its content and a message, and a `complete_confirmed` that does not
answer `Ok(true)` changes nothing. -/
theorem final_removed_when_delivered [DecidableEq Tid] (R : Rendering) {start : DeliveryDb ρ}
    {events : List (PoolEvent Tid DeliveryCall DeliveryCall.Answer)}
    {pool next : Pool Tid (DeliveryDb ρ) DeliveryCall DeliveryCall.Answer _} {tid : Tid}
    {call : DeliveryCall} {answer : call.Answer} (evidence : EvidenceRetired start)
    (run : PoolRun (deliveryDiscipline R) (deliverySurroundings R) ⟨start, fun _ => none⟩ events pool)
    (step : PoolStep (deliveryDiscipline R) (deliverySurroundings R) pool
      (.called tid call answer) next) :
    (∀ row ∈ pool.shared.rest.outbox.rows,
      next.shared.rest.outbox.find row.deliveryId = none →
        WholeTextDelivered R.sha256 next.shared row) ∧
      RestoresUnlessTrue pool.shared call answer next.shared := by
  have kept : Kept R pool.shared call answer next.shared :=
    pool_guarantees (delivery_compatible R) run (AllSafe.idle evidence) step
  exact ⟨kept.delivered, kept.restored⟩

/-! A one-chunk final whose message is already confirmed. -/

def shortText : String := "Final\nok"

def shortRendering : Rendering where
  sha256 text := if text = shortText then "8333e0ab5696032bc0dd34c09459a048bb5ada3d7ac87d77ad8a7c5e482f644c" else ""
  build _ _ _ _ _ := .ok ()
  storeText _ := ""
  debug _ := ""

def shortFinal : StoredDelivery :=
  ⟨"final", "job", "target", "turn", 7, shortText, 0, "", 1, 1⟩

def shortReceipt : ReceiptRow :=
  ⟨confirmedChunkKey shortFinal 0, shortRendering.sha256 shortText, some "42", false, none⟩

def shortDb : DeliveryDb Unit where
  archive := Archive.empty
  receipts := Table.empty.insertOrIgnore shortReceipt
  confirmations := Table.empty
  rest := ⟨Table.empty.insertOrIgnore shortFinal, ()⟩

/-- Checks that let everything pass. -/
def openHooks : DeliveryHooks Unit where
  sha256 := shortRendering.sha256
  keyChannel _ := some 7
  workRetired _ _ := .ok false
  validateFinalRecovery _ _ _ := .ok ()
  validateNewReply _ _ _ := .ok none
  insertFence _ _ := none
  confirmReceipt _ _ := .ok ()
  noticeClaimed _ _ := .ok ()
  noticeRejected _ _ := .ok ()
  verifyCatalog _ := .ok ()
  authorized _ _ := .ok false
  outputHold _ _ := .ok none
  firstReplyPending _ _ := .ok none
  commentaryPending _ _ := .ok false
  goalProgressPending _ _ _ := .ok false

def shortRemoved : DeliveryDb Unit := (completeConfirmed openHooks shortFinal [shortText] shortDb).2

theorem shortText_chunks : splitDeliveryChunks shortText true = [shortText] := by
  have kept : trim shortText.toList = shortText.toList := by decide
  have visible : shortText.toList.isEmpty = false := by decide
  have short : ¬discordMaxLen - chunkMarkerBudget < shortText.toList.length := by decide
  have whole : splitMessage shortText (discordMaxLen - chunkMarkerBudget) (by decide) =
      [shortText] := by
    unfold splitMessage splitLoop
    simp only [kept, visible]
    rw [dif_neg short]
    rfl
  simp only [splitDeliveryChunks, whole]
  rfl

theorem shortFinal_call : ∃ next, deliverOne shortRendering shortFinal =
    .call (.completeConfirmed shortFinal [shortText]) next := by
  have fast : completeConfirmedFinal shortRendering shortFinal =
      performOr (.completeConfirmed shortFinal [shortText]) id .store := by
    have chunks : splitDeliveryChunks shortFinal.content true = [shortText] := shortText_chunks
    unfold completeConfirmedFinal
    rw [chunks]
    rfl
  unfold deliverOne attemptFinal
  rw [fast]
  exact ⟨_, rfl⟩

abbrev ShortPool := Pool Nat (DeliveryDb Unit) DeliveryCall DeliveryCall.Answer
  (Except CompletionWorkerError Unit)

/-- One task starts, and its first call completes the final. -/
theorem short_final_removed : WholeTextDelivered shortRendering.sha256 shortRemoved shortFinal := by
  obtain ⟨next, starts⟩ := shortFinal_call
  have evidence : EvidenceRetired shortDb := by
    intro key c found
    cases found
  let running : ShortPool :=
    ⟨shortDb, Function.update (fun _ => none) 0 (some (deliverOne shortRendering shortFinal))⟩
  let finished : ShortPool := ⟨shortRemoved, Function.update running.tasks 0 (some (next (.ok true)))⟩
  have started : PoolStep (deliveryDiscipline shortRendering) (deliverySurroundings shortRendering)
      ⟨shortDb, fun _ => none⟩ (.started 0) running :=
    .started 0 _ rfl ⟨shortFinal, by decide, rfl⟩
  have completed : PoolStep (deliveryDiscipline shortRendering)
      (deliverySurroundings shortRendering) running
      (.called 0 (.completeConfirmed shortFinal [shortText]) (.ok true)) finished :=
    .called 0 _ next (.ok true) shortRemoved (by simp [running, starts])
      (Or.inl ⟨openHooks, rfl, rfl⟩)
  exact (final_removed_when_delivered shortRendering evidence (.single started) completed).1
    shortFinal (by decide) rfl
end CodexRemote.Verified.Delivery

import CodexRemote.Foundations.Counters
import CodexRemote.Foundations.Encodings
import CodexRemote.Foundations.Programs
import CodexRemote.Store.Delivery

/-! # Deliveries

The identity of a message that is delivered, and the program that delivers a final.
-/

namespace CodexRemote.Runtime

open Foundations
open Discord (trim)

/-! ## Identities

The nonce of a message comes from a domain and a logical key.  The keys of progress begin every
field with its length in bytes.
-/

def completionNonceDomain : String := "completion/v1"
def goalProgressNonceDomain : String := "completion/goal-progress/v1"
def commentaryNonceDomain : String := "completion/commentary/v1"

structure CompletionDeliveryIdentity where
  domain : String
  logicalKey : String
deriving DecidableEq, Repr

def lengthPrefixedKey (parts : List String) : String :=
  parts.foldl (fun key part => key ++ part.utf8ByteSize.repr ++ ":" ++ part ++ ";") ""

namespace CompletionDeliveryIdentity

def outbox (deliveryId : String) : CompletionDeliveryIdentity :=
  ⟨completionNonceDomain, deliveryId⟩

def goalProgress (threadId turnId : String) : CompletionDeliveryIdentity :=
  ⟨goalProgressNonceDomain, lengthPrefixedKey [threadId, turnId]⟩

/-- The digest is over the trimmed text and a NUL. -/
def commentary (sha256 : List UInt8 → List UInt8) (threadId turnId text : String) :
    CompletionDeliveryIdentity :=
  let textDigest := hexEncode (sha256 (utf8Bytes (String.ofList (trim text.toList)) ++ [0]))
  ⟨commentaryNonceDomain, lengthPrefixedKey [threadId, turnId, textDigest]⟩

end CompletionDeliveryIdentity

/-- `instr(text, part)`: the characters before the first occurrence and one, or zero -/
def instr (text part : List Char) : Nat :=
  if part.isPrefixOf text then 1
  else
    match text with
    | [] => 0
    | _ :: rest =>
      match instr rest part with
      | 0 => 0
      | position => position + 1

/-! ## Delivering a final

The completion worker's `deliver_one` as a program.  Each call is one transaction on
the store, one HTTP request or one look at the clock, and anything may happen between
two calls.
-/

open Store Discord

/-- The errors of the completion worker that the delivery of a final raises. -/
inductive CompletionWorkerError where
  | store (error : StoreError)
  | delivery (text : String)
  | held (reason : String)
  | channelId
deriving DecidableEq, Repr

/-- How the texts of errors are rendered, and what the SHA-256 and HTTP crates compute. -/
structure Rendering where
  sha256 : String → String
  build : RequestBuilder
  storeText : StoreError → String
  debug : CompletionWorkerError → String

def CompletionWorkerError.toText (R : Rendering) : CompletionWorkerError → String
  | .store error => R.storeText error
  | .delivery text => "Discord final delivery failed: " ++ text
  | .held reason => "output held without HTTP attempt: " ++ reason
  | .channelId => "Discord channel identifier does not fit the unsigned contract"

/-- The outcome of one message request, within its deadline of 25 seconds. -/
inductive HttpAnswer where
  | sent (messageId : String)
  | expired
  | failed (error : IdempotentMessageError)

inductive DeliveryCall where
  | completeConfirmed (pending : StoredDelivery) (chunks : List String)
  | finalPreflight (pending : StoredDelivery)
  | admits (channel : Nat)
  | beginGuarded (key contentHash : String)
  | request (channel : Nat) (content : String)
  | confirmedMessage (key contentHash : String)
  | releaseRejected (key : String)
  | blockRejected (key reason : String)
  | confirm (key messageId : String)
  | now
  | recordFailure (deliveryId error : String) (now : Rat)
  | complete (deliveryId : String)

def DeliveryCall.Answer : DeliveryCall → Type
  | .completeConfirmed _ _ => Except StoreError Bool
  | .finalPreflight _ => Except StoreError FinalReadiness
  | .admits _ => Except StoreError Unit
  | .beginGuarded _ _ => Except StoreError ReceiptState
  | .request _ _ => HttpAnswer
  | .confirmedMessage _ _ => Except StoreError (Option String)
  | .releaseRejected _ => Except StoreError Bool
  | .blockRejected _ _ => Except StoreError Bool
  | .confirm _ _ => Except StoreError Bool
  | .now => Except StoreError Rat
  | .recordFailure _ _ _ => Except StoreError StoredDelivery
  | .complete _ => Except StoreError Bool

abbrev DeliveryProg (α : Type) := ExceptT CompletionWorkerError (Prog DeliveryCall DeliveryCall.Answer) α

/-! ## One chunk -/

/-- The part of `send_chunk_guarded` after the HTTP request. -/
def settleRequest (key contentHash : String) : HttpAnswer → DeliveryProg Unit
  | .expired =>
    throw (.delivery "Discord send deadline expired; outcome unknown, no automatic resend")
  | .sent message => do
      let confirmed ← performOr (.confirm key message) id .store
      if confirmed then pure ()
      else throw (.delivery "Discord accepted message but its receipt could not be committed; automatic resend held")
  | .failed error => do
      let recorded ← performOr (.confirmedMessage key contentHash) id .store
      if recorded.isSome then pure ()
      else if definitelyRejected error then do
        let _ ← (if retryableRejection error then
          performOr (.releaseRejected key) id .store
        else performOr (.blockRejected key error.toText) id .store : DeliveryProg Bool)
        throw (.delivery ("Discord rejected message; definite rejection recorded separately from unknown delivery: " ++ error.toText))
      else throw (.delivery ("send outcome unconfirmed; automatic resend held: " ++ error.toText))

/-- `send_chunk_guarded`, without components -/
def sendChunkGuarded (R : Rendering) (channel : Nat) (domain logicalKey : String)
    (chunkIndex : Nat) (content : String) : DeliveryProg Unit :=
  if channel > i64Max then
    throw (.delivery "out of range integral type conversion attempted")
  else do
    performOr (.admits channel) id .store
    match idempotentMessageRequest R.build channel content domain logicalKey chunkIndex with
    | .error error => throw (.delivery error.toText)
    | .ok _ =>
      let key := sentChunkKey channel domain logicalKey chunkIndex
      let state ← performOr (.beginGuarded key (R.sha256 content)) id .store
      match state with
      | .held reason => throw (.held reason)
      | .delivered _ => pure ()
      | .unknown =>
        throw (.delivery "send outcome unknown; held without automatic resend. Inspect !runners and reconcile the Discord message receipt.")
      | .contentConflict =>
        throw (.delivery "delivery content changed for an existing chunk identity; held without sending")
      | .rejectedBlocked reason =>
        throw (.delivery ("Discord delivery requires correction; no new request sent: " ++ reason))
      | .new => do
          let answer ← performOr (.request channel content)
            (fun answer : HttpAnswer => (.ok answer : Except StoreError HttpAnswer)) .store
          settleRequest key (R.sha256 content) answer

/-! ## One final -/

/-- A held output stays held; every other failure is reported with its part. -/
def partFailure (R : Rendering) (part total : Nat) : CompletionWorkerError → CompletionWorkerError
  | .held reason => .held reason
  | source =>
    .delivery ("DeliveryFailure \x7b part: " ++ toString part ++ ", total_parts: " ++
      toString total ++ ", attempts: 1, source: " ++ R.debug source ++ " \x7d")

/-- The loop of `deliver_chunks_indexed`, with no retries. -/
def deliverChunks (R : Rendering) (channel : Nat) (domain logicalKey : String) (total : Nat) :
    Nat → List String → DeliveryProg Unit
  | _, [] => pure ()
  | index, chunk :: chunks => do
      tryCatch (sendChunkGuarded R channel domain logicalKey index chunk) fun source =>
        throw (partFailure R (index + 1) total source)
      deliverChunks R channel domain logicalKey total (index + 1) chunks

def sendIdempotentText (R : Rendering) (channel : Nat) (domain logicalKey text : String) :
    DeliveryProg Unit :=
  let chunks := splitDeliveryChunks text true
  deliverChunks R channel domain logicalKey chunks.length 0 chunks

/-- `i64_channel`: a positive id. -/
def i64Channel (value : Int) : Except CompletionWorkerError Nat :=
  if 0 < value then .ok value.toNat else .error .channelId

/-- The worker's `complete_confirmed`: only for chunks it could send. -/
def completeConfirmedFinal (R : Rendering) (pending : StoredDelivery) : DeliveryProg Bool :=
  match i64Channel pending.channelId with
  | .error _ => pure false
  | .ok channel =>
    let chunks := splitDeliveryChunks pending.content true
    let sendable := chunks.zipIdx.all fun (chunk, index) =>
      (idempotentMessageRequest R.build channel chunk completionDomain pending.deliveryId
        index).isOk
    if !sendable then pure false
    else performOr (.completeConfirmed pending chunks) id .store

/-- The sending part of `deliver_one`, once the preflight is ready. -/
def sendFinal (R : Rendering) (pending : StoredDelivery) : DeliveryProg Bool :=
  match i64Channel pending.channelId with
  | .error error => throw error
  | .ok channel => do
      sendIdempotentText R channel completionDomain pending.deliveryId pending.content
      pure false

/-- The inner block of `deliver_one`; true when the final was already complete. -/
def attemptFinal (R : Rendering) (pending : StoredDelivery) : DeliveryProg Bool := do
  if ← completeConfirmedFinal R pending then pure true
  else
    let readiness ← performOr (.finalPreflight pending) id .store
    match readiness with
    | .held reason => throw (.held reason)
    | .firstReply request =>
      throw (.delivery ("output saved; first reply is not confirmed for " ++ request ++
        ". No output POST attempted; inspect the saved request if its reply failed"))
    | .commentary =>
      throw (.delivery "output saved behind earlier undelivered progress; no output POST attempted")
    | .goalProgress =>
      throw (.delivery "final saved behind undelivered goal progress; no final POST attempted")
    | .ready => sendFinal R pending

/-- What `deliver_one` does with the outcome of its attempt. -/
def finishFinal (R : Rendering) (pending : StoredDelivery) :
    Except CompletionWorkerError Bool → DeliveryProg Unit
  | .ok true => pure ()
  | .ok false => do
      let _ ← performOr (.complete pending.deliveryId) id .store
      pure ()
  | .error (.held reason) => throw (.held reason)
  | .error error => do
      let time ← performOr .now id .store
      let _ ← performOr (.recordFailure pending.deliveryId (error.toText R) time) id .store
      throw error

def deliverOne (R : Rendering) (pending : StoredDelivery) :
    Prog DeliveryCall DeliveryCall.Answer (Except CompletionWorkerError Unit) := do
  let result ← (attemptFinal R pending).run
  (finishFinal R pending result).run

/-! ## What the calls do -/

variable {ρ : Type}

/-- A store operation under whatever the checks of other modules answer, or a failure in
SQLite that leaves the database alone. -/
def storeCall {α : Type} (sha256 : String → String)
    (operation : DeliveryHooks ρ → DeliveryDb ρ → Except StoreError α × DeliveryDb ρ)
    (db : DeliveryDb ρ) (answer : Except StoreError α) (next : DeliveryDb ρ) : Prop :=
  (∃ hooks : DeliveryHooks ρ, hooks.sha256 = sha256 ∧ operation hooks db = (answer, next)) ∨
    ((∃ error, answer = .error error) ∧ next = db)

/-- One call of a task.  A request answers anything: the message id of an accepted request,
an error of any kind, or nothing in time. -/
def deliveryDoes (R : Rendering) (db : DeliveryDb ρ) (call : DeliveryCall) (answer : call.Answer)
    (next : DeliveryDb ρ) : Prop :=
  match call with
  | .completeConfirmed pending chunks =>
    storeCall R.sha256 (fun hooks => completeConfirmed hooks pending chunks) db answer next
  | .finalPreflight pending =>
    storeCall R.sha256 (fun hooks db => (readReadiness hooks db pending, db)) db answer next
  | .admits channel =>
    storeCall R.sha256 (fun _ db => (if db.archive.blocked (some (channel : Int)) none then
      .error (.integrity "archived mirror retired; original outcome preserved; no automatic replay")
      else .ok (), db)) db answer next
  | .beginGuarded key contentHash =>
    storeCall R.sha256 (fun hooks => beginGuarded hooks.receipts key contentHash) db answer next
  | .request _ _ => next = db
  | .confirmedMessage key contentHash =>
    storeCall R.sha256 (fun _ db => (.ok (confirmedMessage db key contentHash), db)) db answer next
  | .releaseRejected key =>
    storeCall R.sha256 (fun hooks => releaseRejected hooks.receipts key) db answer next
  | .blockRejected key reason =>
    storeCall R.sha256 (fun _ => blockRejected key reason) db answer next
  | .confirm key messageId =>
    storeCall R.sha256 (fun hooks => confirm hooks.receipts key messageId) db answer next
  | .now => next = db
  | .recordFailure deliveryId error now =>
    storeCall R.sha256 (fun _ => recordFailure deliveryId error now) db answer next
  | .complete deliveryId =>
    storeCall R.sha256 (fun _ => complete deliveryId) db answer next

end CodexRemote.Runtime

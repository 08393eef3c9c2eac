import CodexRemote.Discord.MessageGaps
import CodexRemote.Discord.Text

/-! # Publishing gateway events

A publish runs through atomic sections: it reads a flag, takes a number, tries a lane, records a
gap.  Each section is a function of what the clones of one ingress share; the phases say which
section comes next.
-/

namespace CodexRemote.Discord

open Foundations

/-! ## Lanes -/

inductive IngressLane where
  | normalInteraction
  | reservedInteraction
  | message
  | emergencyMessage
deriving DecidableEq, Repr

inductive InteractionIngressTag where
  | normal
  | busy
  | stopping
deriving DecidableEq, Repr

/-- The sending half of a bounded channel, with what its receiver has not taken yet -/
structure Lane (α : Type) where
  capacity : Nat
  queue : List α
  closed : Bool

/-- `try_send`, with `unavailable_reason` of its error -/
def Lane.trySend {α : Type} (lane : Lane α) (item : α) : Except UnavailableReason (Lane α) :=
  if lane.closed then .error .closed
  else if lane.capacity ≤ lane.queue.length then .error .full
  else .ok { lane with queue := lane.queue ++ [item] }

structure InteractionIngress (ι : Type) where
  sequence : Nat
  receivedAt : Rat
  tag : InteractionIngressTag
  event : ι

structure MessageCreate where
  id : Nat
  channelId : Nat
  timestampMicros : Int
  content : String
deriving DecidableEq, Repr

def MessageCreate.position (message : MessageCreate) : MessageGapPosition :=
  ⟨message.timestampMicros, message.id⟩

structure MessageIngress where
  sequence : Nat
  event : MessageCreate
  nonce : Option Nat
deriving DecidableEq, Repr

/-! ## Routing -/

/-- `split_whitespace` -/
def splitWhitespace (text : List Char) : List (List Char) :=
  (text.splitOnP isWhitespace).filter (· ≠ [])

def eqIgnoreAsciiCase (text : List Char) (word : String) : Bool :=
  text.map Char.toLower = word.toList

/-- The words after `!` -/
def commandWords (content : String) : Option (List (List Char)) :=
  match trim content.toList with
  | '!' :: command => some (splitWhitespace command)
  | _ => none

def isForceRestartMessage (content : String) : Bool :=
  match commandWords content with
  | none => false
  | some words =>
    let name := words.head?.getD []
    let argument := words.tail.head?
    words.length ≤ 2 &&
      ((eqIgnoreAsciiCase name "force_restart" && argument.isNone) ||
        (eqIgnoreAsciiCase name "restart_codex" && argument.any fun text =>
          eqIgnoreAsciiCase text "force" || eqIgnoreAsciiCase text "--force"))

def isEmergencyMessage (content : String) : Bool :=
  isForceRestartMessage content ||
    match commandWords content with
    | none => false
    | some words =>
      let name := words.head?.getD []
      (eqIgnoreAsciiCase name "recover" || name = "복구".toList ||
        eqIgnoreAsciiCase name "repair" || name = "도구복구".toList) && words.tail.length ≤ 1

def messageLane (message : MessageCreate) : IngressLane :=
  if isEmergencyMessage message.content then .emergencyMessage else .message

/-! ## Shared state -/

structure GatewayIngress (ι : Type) where
  normalInteractions : Lane (InteractionIngress ι)
  reservedInteractions : Lane (InteractionIngress ι)
  messages : Lane MessageIngress
  emergencyMessages : Lane MessageIngress
  messageGaps : MessageGapTracker
  hardDroppedInteractions : Nat
  recoverableMessageGaps : Nat
  accepting : Bool
  /-- `PROCESS_LAST_SEQUENCE` -/
  lastSequence : Nat

inductive PublishOutcome where
  | ignored
  | interactionAccepted (sequence : Nat) (tag : InteractionIngressTag)
  | interactionHardDropped (reason : UnavailableReason)
  | messageAccepted (sequence : Nat)
  | messageRecoverableGap (reason : UnavailableReason) (tracking : GapAnswer Unit)
deriving DecidableEq, Repr

namespace GatewayIngress

variable {ι : Type}

/-- `SequenceSource::next` -/
def nextSequence (ingress : GatewayIngress ι) : Option Nat × GatewayIngress ι :=
  match checkedSucc u64Max ingress.lastSequence with
  | none => (none, ingress)
  | some next => (some next, { ingress with lastSequence := next })

def stopAccepting (ingress : GatewayIngress ι) : GatewayIngress ι :=
  { ingress with accepting := false }

def recordHardDrop (ingress : GatewayIngress ι) : GatewayIngress ι :=
  { ingress with
    hardDroppedInteractions := saturatingSucc u64Max ingress.hardDroppedInteractions }

def recordRecoverableGap (ingress : GatewayIngress ι) : GatewayIngress ι :=
  { ingress with recoverableMessageGaps := saturatingSucc u64Max ingress.recoverableMessageGaps }

def sendInteraction (reserved : Bool) (envelope : InteractionIngress ι) (ingress : GatewayIngress ι) :
    Except UnavailableReason (GatewayIngress ι) :=
  if reserved then
    (ingress.reservedInteractions.trySend envelope).map fun lane =>
      { ingress with reservedInteractions := lane }
  else
    (ingress.normalInteractions.trySend envelope).map fun lane =>
      { ingress with normalInteractions := lane }

def sendMessage (envelope : MessageIngress) (ingress : GatewayIngress ι) :
    Except UnavailableReason (GatewayIngress ι) :=
  if isEmergencyMessage envelope.event.content then
    (ingress.emergencyMessages.trySend envelope).map fun lane =>
      { ingress with emergencyMessages := lane }
  else
    (ingress.messages.trySend envelope).map fun lane => { ingress with messages := lane }

end GatewayIngress

/-! ## Phases of a publish -/

/-- What a section does, as the other tasks can see it -/
inductive PublishAction where
  | read (accepting : Bool)
  | numbered (sequence : Option Nat)
  | sent (lane : IngressLane) (sequence : Nat) (tag : Option InteractionIngressTag)
  | refused (lane : IngressLane) (reason : UnavailableReason)
  | recorded (message : MessageCreate) (answer : GapAnswer Unit)
  | counted
  | dropped
deriving DecidableEq, Repr

inductive MessagePhase where
  /-- waits for the publication gate -/
  | begun
  | gated
  | accepted
  | numbered (sequence : Nat)
  | refused (reason : UnavailableReason)
  | recorded (reason : UnavailableReason) (tracking : GapAnswer Unit)
  | returning (outcome : PublishOutcome)
deriving DecidableEq, Repr

inductive InteractionPhase where
  | begun
  | tagged (tag : InteractionIngressTag)
  | normal (sequence : Nat)
  | reserved (sequence : Nat) (tag : InteractionIngressTag)
  | refused (reason : UnavailableReason)
  | returning (outcome : PublishOutcome)
deriving DecidableEq, Repr

variable {ι : Type}

/-- The next section of `publish_message`, once it holds the gate; none is left when it returns. -/
def publishMessage (event : MessageCreate) (nonce : Option Nat) (phase : MessagePhase)
    (ingress : GatewayIngress ι) : Option (PublishAction × MessagePhase × GatewayIngress ι) :=
  match phase with
  | .begun => none
  | .gated =>
    some (.read ingress.accepting,
      if ingress.accepting then .accepted else .refused .stopping, ingress)
  | .accepted =>
    match ingress.nextSequence with
    | (none, next) => some (.numbered none, .refused .sequenceExhausted, next)
    | (some sequence, next) => some (.numbered (some sequence), .numbered sequence, next)
  | .numbered sequence =>
    match ingress.sendMessage ⟨sequence, event, nonce⟩ with
    | .ok next =>
      some (.sent (messageLane event) sequence none, .returning (.messageAccepted sequence), next)
    | .error reason => some (.refused (messageLane event) reason, .refused reason, ingress)
  | .refused reason =>
    let (answer, tracker) := ingress.messageGaps.record event.channelId event.position reason
    some (.recorded event answer, .recorded reason answer, { ingress with messageGaps := tracker })
  | .recorded reason tracking =>
    some (.counted, .returning (.messageRecoverableGap reason tracking),
      ingress.recordRecoverableGap)
  | .returning _ => none

/-- The next section of `publish_interaction` -/
def publishInteraction (event : ι) (receivedAt : Rat) (phase : InteractionPhase)
    (ingress : GatewayIngress ι) : Option (PublishAction × InteractionPhase × GatewayIngress ι) :=
  match phase with
  | .begun =>
    some (.read ingress.accepting,
      .tagged (if ingress.accepting then .normal else .stopping), ingress)
  | .tagged tag =>
    match ingress.nextSequence with
    | (none, next) => some (.numbered none, .refused .sequenceExhausted, next)
    | (some sequence, next) =>
      some (.numbered (some sequence),
        if tag = .stopping then .reserved sequence .stopping else .normal sequence, next)
  | .normal sequence =>
    match ingress.sendInteraction false ⟨sequence, receivedAt, .normal, event⟩ with
    | .ok next =>
      some (.sent .normalInteraction sequence (some .normal),
        .returning (.interactionAccepted sequence .normal), next)
    | .error reason => some (.refused .normalInteraction reason, .reserved sequence .busy, ingress)
  -- `try_reserved`
  | .reserved sequence tag =>
    match ingress.sendInteraction true ⟨sequence, receivedAt, tag, event⟩ with
    | .ok next =>
      some (.sent .reservedInteraction sequence (some tag),
        .returning (.interactionAccepted sequence tag), next)
    | .error reason => some (.refused .reservedInteraction reason, .refused reason, ingress)
  | .refused reason =>
    some (.dropped, .returning (.interactionHardDropped reason), ingress.recordHardDrop)
  | .returning _ => none

end CodexRemote.Discord

import CodexRemote.Discord.GatewayIngress
import CodexRemote.Foundations.Transactions
import CodexRemote.Verified.MessageGaps

/-! # The shared ingress and what runs on it

The system is the shared ingress, the publishes in flight, one to a task, and the tokens of the gap
tracker.  Its steps are the sections of publishes and what the receivers do.  Seen from the gap
tracker alone, a run is a run of the tracker.
-/

namespace CodexRemote.Verified.GatewayIngress

open Foundations Discord Verified.MessageGaps

/-! ## The system -/

inductive PublishRequest (ι : Type) where
  | message (event : MessageCreate) (nonce : Option Nat)
  | interaction (event : ι) (receivedAt : Rat)
  | other

inductive Publication (ι : Type) where
  | message (event : MessageCreate) (nonce : Option Nat) (phase : MessagePhase)
  | interaction (event : ι) (receivedAt : Rat) (phase : InteractionPhase)
  | other

/-- A publish when it is called -/
def PublishRequest.start {ι : Type} : PublishRequest ι → Publication ι
  | message event nonce => .message event nonce .begun
  | interaction event receivedAt => .interaction event receivedAt .begun
  | other => .other

namespace Publication

variable {ι : Type}

/-- The next section of a publish -/
def act (publication : Publication ι) (ingress : GatewayIngress ι) :
    Option (PublishAction × Publication ι × GatewayIngress ι) :=
  match publication with
  | message event nonce phase =>
    (publishMessage event nonce phase ingress).map fun (action, phase, ingress) =>
      (action, message event nonce phase, ingress)
  | interaction event receivedAt phase =>
    (publishInteraction event receivedAt phase ingress).map fun (action, phase, ingress) =>
      (action, interaction event receivedAt phase, ingress)
  | other => none

def outcome : Publication ι → Option PublishOutcome
  | message _ _ (.returning outcome) => some outcome
  | interaction _ _ (.returning outcome) => some outcome
  | other => some .ignored
  | _ => none

/-- The guard of `begin_publication` lives until the publish returns. -/
def holdsGate : Publication ι → Bool
  | message _ _ .begun => false
  | message _ _ _ => true
  | _ => false

/-- The number it has taken and not used yet -/
def pending : Publication ι → Option Nat
  | message _ _ (.numbered sequence) => some sequence
  | interaction _ _ (.normal sequence) | interaction _ _ (.reserved sequence _) => some sequence
  | _ => none

end Publication

structure System (ι : Type) where
  ingress : GatewayIngress ι
  publications : Nat → Option (Publication ι)
  /-- the task that holds the publication gate -/
  gate : Option Nat
  notices : List (MessageGapNotice × Nat)
  fences : List (MessageGapFence × Nat)
  log : List GapEvent

namespace System

variable {ι : Type}

/-- The gap tracker with its tokens -/
def gaps (s : System ι) : GapRun := ⟨s.ingress.messageGaps, s.notices, s.fences, s.log⟩

def withGaps (s : System ι) (gaps : GapRun) : System ι :=
  { s with
    ingress := { s.ingress with messageGaps := gaps.tracker }
    notices := gaps.notices
    fences := gaps.fences
    log := gaps.log }

def put (s : System ι) (task : Nat) (publication : Option (Publication ι)) : System ι :=
  { s with publications := Function.update s.publications task publication }

end System

inductive IngressEvent (ι : Type) where
  | began (task : Nat) (request : PublishRequest ι)
  | acted (task : Nat) (action : PublishAction)
  | returned (task : Nat) (outcome : PublishOutcome)
  | stopped
  | gap (event : GapEvent)
  | surrounded

/-- The entry of the gap log that a section leaves -/
def actionGap : PublishAction → Option GapEvent
  | .recorded message answer => some (.recorded message.channelId message.position answer)
  | _ => none

def eventGap {ι : Type} : IngressEvent ι → Option GapEvent
  | .acted _ action => actionGap action
  | .gap event => some event
  | _ => none

/-- The calls of receivers that run no action -/
def receiving : GapEvent → Bool
  | .snapshotTaken _ | .acknowledged _ _ _ | .captured _ _ => true
  | _ => false

/-- What a receiver does with its lane -/
inductive LaneStep {α : Type} : Lane α → Lane α → Prop where
  | took (lane item rest) (front : lane.queue = item :: rest) :
      LaneStep lane { lane with queue := rest }
  | closed (lane) : LaneStep lane { lane with closed := true }
  | dropped (lane) : LaneStep lane { lane with closed := true, queue := [] }

inductive ReceiverStep {ι : Type} : GatewayIngress ι → GatewayIngress ι → Prop where
  | normal (s lane) (step : LaneStep s.normalInteractions lane) :
      ReceiverStep s { s with normalInteractions := lane }
  | reserved (s lane) (step : LaneStep s.reservedInteractions lane) :
      ReceiverStep s { s with reservedInteractions := lane }
  | message (s lane) (step : LaneStep s.messages lane) : ReceiverStep s { s with messages := lane }
  | emergency (s lane) (step : LaneStep s.emergencyMessages lane) :
      ReceiverStep s { s with emergencyMessages := lane }

/-- One atomic section of one task, or of a receiver.  Other ingresses of the process take numbers
from the same counter; the locks are never poisoned. -/
inductive IngressStep {ι : Type} : System ι → IngressEvent ι → System ι → Prop where
  | began {s} (task request) (idle : s.publications task = none) :
      IngressStep s (.began task request) (s.put task (some request.start))
  | gated {s} (task event nonce)
      (waiting : s.publications task = some (.message event nonce .begun)) (free : s.gate = none) :
      IngressStep s .surrounded
        { s.put task (some (.message event nonce .gated)) with gate := some task }
  | acted {s} (task publication action next ingress)
      (running : s.publications task = some publication)
      (ran : publication.act s.ingress = some (action, next, ingress)) :
      IngressStep s (.acted task action)
        { s.put task (some next) with
          ingress := ingress
          log := s.log ++ (actionGap action).toList }
  | returned {s} (task publication outcome) (running : s.publications task = some publication)
      (done : publication.outcome = some outcome) :
      IngressStep s (.returned task outcome)
        { s.put task none with gate := if publication.holdsGate then none else s.gate }
  | stopped {s} : IngressStep s .stopped { s with ingress := s.ingress.stopAccepting }
  | received {s} (ingress) (step : ReceiverStep s.ingress ingress) :
      IngressStep s .surrounded { s with ingress := ingress }
  | gap {s} (event gaps) (step : GapStep s.gaps event gaps) (call : receiving event = true) :
      IngressStep s (.gap event) (s.withGaps gaps)
  -- `with_current_fence` takes the publication gate for as long as the action runs
  | fenced {s} {α : Type} (fence taken ran) (value : α) (free : s.gate = none)
      (held : (fence, taken) ∈ s.fences ∨ fence.trackerIdentity ≠ s.ingress.messageGaps.identity)
      (result : GapAnswer.isOk
        (s.ingress.messageGaps.withCurrentFence fence (.returns value)).1 = ran) :
      IngressStep s (.gap (.fenced fence taken ran))
        { s with log := s.log ++ [.fenced fence taken ran] }
  | elsewhere {s} (last) (later : s.ingress.lastSequence ≤ last) :
      IngressStep s .surrounded { s with ingress := { s.ingress with lastSequence := last } }

/-- What the lanes hold -/
inductive LaneItem (ι : Type) where
  | message (envelope : MessageIngress)
  | interaction (envelope : InteractionIngress ι)

def LaneItem.sequence {ι : Type} : LaneItem ι → Nat
  | message envelope => envelope.sequence
  | interaction envelope => envelope.sequence

def items {ι : Type} (ingress : GatewayIngress ι) : IngressLane → List (LaneItem ι)
  | .normalInteraction => ingress.normalInteractions.queue.map .interaction
  | .reservedInteraction => ingress.reservedInteractions.queue.map .interaction
  | .message => ingress.messages.queue.map .message
  | .emergencyMessage => ingress.emergencyMessages.queue.map .message

/-- The item of a request, under the number and the tag that its publish gives it: a message has no
tag, and an interaction has one. -/
def PublishRequest.item {ι : Type} (request : PublishRequest ι) (sequence : Nat)
    (tag : Option InteractionIngressTag) : Option (LaneItem ι) :=
  match request, tag with
  | message event nonce, none => some (.message ⟨sequence, event, nonce⟩)
  | interaction event receivedAt, some tag => some (.interaction ⟨sequence, receivedAt, tag, event⟩)
  | _, _ => none

/-- The numbers of what a lane holds, in order -/
def held {ι : Type} (ingress : GatewayIngress ι) : IngressLane → List Nat
  | .normalInteraction => ingress.normalInteractions.queue.map (·.sequence)
  | .reservedInteraction => ingress.reservedInteractions.queue.map (·.sequence)
  | .message => ingress.messages.queue.map (·.sequence)
  | .emergencyMessage => ingress.emergencyMessages.queue.map (·.sequence)

/-- A new ingress -/
structure Fresh {ι : Type} (s : System ι) (identity : Nat) : Prop where
  idle : s.publications = fun _ => none
  gaps : s.gaps = .start identity
  lanes : ∀ lane, held s.ingress lane = []
  drops : s.ingress.hardDroppedInteractions = 0

/-! ## Sections -/

section

variable {ι : Type} {ingress next : GatewayIngress ι}

theorem held_items (ingress : GatewayIngress ι) (lane : IngressLane) :
    held ingress lane = (items ingress lane).map LaneItem.sequence := by
  cases lane <;> simp only [held, items, List.map_map] <;> rfl

/-- What a successful send does -/
structure Delivered (ingress : GatewayIngress ι) (lane : IngressLane) (item : LaneItem ι)
    (next : GatewayIngress ι) : Prop where
  gaps : next.messageGaps = ingress.messageGaps
  last : next.lastSequence = ingress.lastSequence
  accepting : next.accepting = ingress.accepting
  drops : next.hardDroppedInteractions = ingress.hardDroppedInteractions
  appended : items next lane = items ingress lane ++ [item]
  others : ∀ other, other ≠ lane → items next other = items ingress other

theorem Delivered.numbers {lane : IngressLane} {item : LaneItem ι}
    (sent : Delivered ingress lane item next) (other : IngressLane) :
    held next other = held ingress other ++ if lane = other then [item.sequence] else [] := by
  rw [held_items, held_items]
  split
  · next same => rw [← same, sent.appended, List.map_append, List.map_singleton]
  · next different => rw [sent.others other (Ne.symm different), List.append_nil]

theorem trySend_ok {α : Type} {lane after : Lane α} {item : α}
    (sent : lane.trySend item = .ok after) : after.queue = lane.queue ++ [item] := by
  rw [Lane.trySend] at sent
  split at sent
  · cases sent
  · split at sent
    · cases sent
    · cases sent
      rfl

theorem sendMessage_delivers {envelope : MessageIngress}
    (sent : ingress.sendMessage envelope = .ok next) :
    Delivered ingress (messageLane envelope.event) (.message envelope) next := by
  rw [GatewayIngress.sendMessage] at sent
  rw [messageLane]
  split at sent
  · next emergency =>
    obtain ⟨lane, taken, rfl⟩ := map_ok.1 sent
    rw [if_pos emergency]
    refine ⟨rfl, rfl, rfl, rfl, ?_, ?_⟩
    · simp only [items, trySend_ok taken, List.map_append, List.map_cons, List.map_nil]
    · intro other different
      cases other <;> first | rfl | exact absurd rfl different
  · next ordinary =>
    obtain ⟨lane, taken, rfl⟩ := map_ok.1 sent
    rw [if_neg ordinary]
    refine ⟨rfl, rfl, rfl, rfl, ?_, ?_⟩
    · simp only [items, trySend_ok taken, List.map_append, List.map_cons, List.map_nil]
    · intro other different
      cases other <;> first | rfl | exact absurd rfl different

def interactionLane (reserved : Bool) : IngressLane :=
  if reserved then .reservedInteraction else .normalInteraction

theorem sendInteraction_delivers {reserved : Bool} {envelope : InteractionIngress ι}
    (sent : ingress.sendInteraction reserved envelope = .ok next) :
    Delivered ingress (interactionLane reserved) (.interaction envelope) next := by
  rw [GatewayIngress.sendInteraction] at sent
  cases reserved with
  | true =>
    obtain ⟨lane, taken, rfl⟩ := map_ok.1 sent
    refine ⟨rfl, rfl, rfl, rfl, ?_, ?_⟩
    · simp only [interactionLane, if_true, items, trySend_ok taken, List.map_append, List.map_cons,
        List.map_nil]
    · intro other different
      cases other <;> first | rfl | exact absurd rfl different
  | false =>
    obtain ⟨lane, taken, rfl⟩ := map_ok.1 sent
    refine ⟨rfl, rfl, rfl, rfl, ?_, ?_⟩
    · simp only [interactionLane, Bool.false_eq_true, if_false, items, trySend_ok taken,
        List.map_append, List.map_cons, List.map_nil]
    · intro other different
      cases other <;> first | rfl | exact absurd rfl different

/-- What one section of a publish does, as one case for each way it can go -/
inductive Section (s : GatewayIngress ι) :
    Publication ι → PublishAction → Publication ι → GatewayIngress ι → Prop where
  | read (event nonce) : Section s (.message event nonce .gated) (.read s.accepting)
      (.message event nonce (if s.accepting then .accepted else .refused .stopping)) s
  | exhausted (event nonce) : Section s (.message event nonce .accepted) (.numbered none)
      (.message event nonce (.refused .sequenceExhausted)) s
  | numbered (event nonce) : Section s (.message event nonce .accepted)
      (.numbered (some (s.lastSequence + 1))) (.message event nonce (.numbered (s.lastSequence + 1)))
      { s with lastSequence := s.lastSequence + 1 }
  | sent (event nonce sequence next)
      (sent : Delivered s (messageLane event) (.message ⟨sequence, event, nonce⟩) next) :
      Section s (.message event nonce (.numbered sequence))
        (.sent (messageLane event) sequence none)
        (.message event nonce (.returning (.messageAccepted sequence))) next
  | refused (event nonce sequence reason) : Section s (.message event nonce (.numbered sequence))
      (.refused (messageLane event) reason) (.message event nonce (.refused reason)) s
  | recorded (event nonce reason) :
      Section s (.message event nonce (.refused reason))
        (.recorded event (s.messageGaps.record event.channelId event.position reason).1)
        (.message event nonce
          (.recorded reason (s.messageGaps.record event.channelId event.position reason).1))
        { s with
          messageGaps := (s.messageGaps.record event.channelId event.position reason).2 }
  | counted (event nonce reason tracking) :
      Section s (.message event nonce (.recorded reason tracking)) .counted
        (.message event nonce (.returning (.messageRecoverableGap reason tracking)))
        s.recordRecoverableGap
  | tagged (event receivedAt) : Section s (.interaction event receivedAt .begun) (.read s.accepting)
      (.interaction event receivedAt (.tagged (if s.accepting then .normal else .stopping))) s
  | spent (event receivedAt tag) :
      Section s (.interaction event receivedAt (.tagged tag)) (.numbered none)
        (.interaction event receivedAt (.refused .sequenceExhausted)) s
  | taken (event receivedAt tag) : Section s (.interaction event receivedAt (.tagged tag))
      (.numbered (some (s.lastSequence + 1)))
      (.interaction event receivedAt (if tag = .stopping
        then .reserved (s.lastSequence + 1) .stopping else .normal (s.lastSequence + 1)))
      { s with lastSequence := s.lastSequence + 1 }
  | normal (event receivedAt sequence next)
      (sent : Delivered s .normalInteraction
        (.interaction ⟨sequence, receivedAt, .normal, event⟩) next) :
      Section s (.interaction event receivedAt (.normal sequence))
        (.sent .normalInteraction sequence (some .normal))
        (.interaction event receivedAt (.returning (.interactionAccepted sequence .normal))) next
  | busy (event receivedAt sequence reason) :
      Section s (.interaction event receivedAt (.normal sequence))
        (.refused .normalInteraction reason)
        (.interaction event receivedAt (.reserved sequence .busy)) s
  | reserved (event receivedAt sequence tag next)
      (sent : Delivered s .reservedInteraction
        (.interaction ⟨sequence, receivedAt, tag, event⟩) next) :
      Section s (.interaction event receivedAt (.reserved sequence tag))
        (.sent .reservedInteraction sequence (some tag))
        (.interaction event receivedAt (.returning (.interactionAccepted sequence tag))) next
  | full (event receivedAt sequence tag reason) :
      Section s (.interaction event receivedAt (.reserved sequence tag))
        (.refused .reservedInteraction reason) (.interaction event receivedAt (.refused reason)) s
  | dropped (event receivedAt reason) :
      Section s (.interaction event receivedAt (.refused reason)) .dropped
        (.interaction event receivedAt (.returning (.interactionHardDropped reason)))
        s.recordHardDrop

theorem nextSequence_cases (s : GatewayIngress ι) : s.nextSequence = (none, s) ∨
    s.nextSequence = (some (s.lastSequence + 1), { s with lastSequence := s.lastSequence + 1 }) := by
  rw [GatewayIngress.nextSequence]
  cases numbered : checkedSucc u64Max s.lastSequence with
  | none => exact Or.inl rfl
  | some sequence =>
    obtain ⟨rfl, _⟩ := checkedSucc_some numbered
    exact Or.inr rfl

theorem message_section {event : MessageCreate} {nonce : Option Nat} {phase after : MessagePhase}
    {action : PublishAction}
    (ran : publishMessage event nonce phase ingress = some (action, after, next)) :
    Section ingress (.message event nonce phase) action (.message event nonce after) next := by
  cases phase with
  | begun => cases ran
  | gated =>
    cases ran
    exact .read event nonce
  | accepted =>
    obtain same | same := nextSequence_cases ingress
    · simp only [publishMessage, same] at ran
      cases ran
      exact .exhausted event nonce
    · simp only [publishMessage, same] at ran
      cases ran
      exact .numbered event nonce
  | numbered sequence =>
    simp only [publishMessage] at ran
    split at ran
    · next sent =>
      have delivered := sendMessage_delivers sent
      cases ran
      exact .sent event nonce sequence _ delivered
    · cases ran
      exact .refused event nonce sequence _
  | refused reason =>
    cases ran
    exact .recorded event nonce reason
  | recorded reason tracking =>
    cases ran
    exact .counted event nonce reason tracking
  | returning => cases ran

theorem interaction_section {event : ι} {receivedAt : Rat} {phase after : InteractionPhase}
    {action : PublishAction}
    (ran : publishInteraction event receivedAt phase ingress = some (action, after, next)) :
    Section ingress (.interaction event receivedAt phase) action
      (.interaction event receivedAt after) next := by
  cases phase with
  | begun =>
    cases ran
    exact .tagged event receivedAt
  | tagged tag =>
    obtain same | same := nextSequence_cases ingress
    · simp only [publishInteraction, same] at ran
      cases ran
      exact .spent event receivedAt tag
    · simp only [publishInteraction, same] at ran
      cases ran
      exact .taken event receivedAt tag
  | normal sequence =>
    simp only [publishInteraction] at ran
    split at ran
    · next sent =>
      cases ran
      exact .normal event receivedAt sequence _ (sendInteraction_delivers sent)
    · cases ran
      exact .busy event receivedAt sequence _
  | reserved sequence tag =>
    simp only [publishInteraction] at ran
    split at ran
    · next sent =>
      cases ran
      exact .reserved event receivedAt sequence tag _ (sendInteraction_delivers sent)
    · cases ran
      exact .full event receivedAt sequence tag _
  | refused reason =>
    cases ran
    exact .dropped event receivedAt reason
  | returning => cases ran

theorem act_section {publication after : Publication ι} {action : PublishAction}
    (ran : publication.act ingress = some (action, after, next)) :
    Section ingress publication action after next := by
  cases publication with
  | message event nonce phase =>
    obtain ⟨answer, once, same⟩ := Option.map_eq_some_iff.1 ran
    cases same
    exact message_section once
  | interaction event receivedAt phase =>
    obtain ⟨answer, once, same⟩ := Option.map_eq_some_iff.1 ran
    cases same
    exact interaction_section once
  | other => cases ran

end

end CodexRemote.Verified.GatewayIngress

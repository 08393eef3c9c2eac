import CodexRemote.Verified.GatewayIngress.Gaps

/-! # What one publish does

A publish is followed from its call to its return by what its sections have sent, recorded and
dropped so far.
-/

namespace CodexRemote.Verified.GatewayIngress

open Foundations Discord Verified.MessageGaps

/-! ## What a run shows of a publish -/

section

variable {ι : Type}

def actionOf (task : Nat) : IngressEvent ι → Option PublishAction
  | .acted other action => if other = task then some action else none
  | _ => none

/-- The sections of one task, in order -/
def actions (task : Nat) (events : List (IngressEvent ι)) : List PublishAction :=
  events.filterMap (actionOf task)

def sent : PublishAction → Option (IngressLane × Nat × Option InteractionIngressTag)
  | .sent lane sequence tag => some (lane, sequence, tag)
  | _ => none

def sends (acts : List PublishAction) :
    List (IngressLane × Nat × Option InteractionIngressTag) := acts.filterMap sent

def gapOf : PublishAction → Option MessageCreate
  | .recorded message _ => some message
  | _ => none

def records (acts : List PublishAction) : List MessageCreate := acts.filterMap gapOf

def drops (acts : List PublishAction) : Nat := acts.count .dropped

/-- The numbers that one task has put into lanes -/
def carried (task : Nat) (events : List (IngressEvent ι)) : List Nat :=
  (sends (actions task events)).map (·.2.1)

def actionNumber : PublishAction → Option Nat
  | .numbered sequence => sequence
  | _ => none

def assigned : IngressEvent ι → Option Nat
  | .acted _ action => actionNumber action
  | _ => none

def sentInto (lane : IngressLane) : PublishAction → Option Nat
  | .sent other sequence _ => if other = lane then some sequence else none
  | _ => none

def enqueued (lane : IngressLane) : IngressEvent ι → Option Nat
  | .acted _ action => sentInto lane action
  | _ => none

def hardDrop : IngressEvent ι → Bool
  | .acted _ action => action = .dropped
  | _ => false

/-- One lane, or one gap -/
def MessageSettled (event : MessageCreate) (acts : List PublishAction) (outcome : PublishOutcome) :
    Prop :=
  (∃ sequence, outcome = .messageAccepted sequence ∧
    sends acts = [(messageLane event, sequence, none)] ∧ records acts = []) ∨
  ∃ reason, outcome = .messageRecoverableGap reason (.ok ()) ∧ sends acts = [] ∧
    records acts = [event]

/-- One lane, or one hard drop -/
def InteractionSettled (acts : List PublishAction) (outcome : PublishOutcome) : Prop :=
  (∃ sequence tag lane, outcome = .interactionAccepted sequence tag ∧
    sends acts = [(lane, sequence, some tag)] ∧ drops acts = 0 ∧
    (lane = .normalInteraction ∧ tag = .normal ∨ lane = .reservedInteraction ∧ tag ≠ .normal)) ∨
  ∃ reason, outcome = .interactionHardDropped reason ∧ sends acts = [] ∧ drops acts = 1

/-! ## The publish of one task -/

def MessageProgress (event : MessageCreate) (acts : List PublishAction) : MessagePhase → Prop
  | .recorded _ tracking => sends acts = [] ∧ records acts = [event] ∧ tracking = .ok ()
  | .returning outcome => MessageSettled event acts outcome
  | _ => sends acts = [] ∧ records acts = []

def InteractionProgress (acts : List PublishAction) : InteractionPhase → Prop
  | .reserved _ tag => sends acts = [] ∧ drops acts = 0 ∧ tag ≠ .normal
  | .returning outcome => InteractionSettled acts outcome
  | _ => sends acts = [] ∧ drops acts = 0

inductive Progress : PublishRequest ι → List PublishAction → Publication ι → Prop where
  | message {event nonce phase acts} (progress : MessageProgress event acts phase) :
      Progress (.message event nonce) acts (.message event nonce phase)
  | interaction {event receivedAt phase acts} (progress : InteractionProgress acts phase) :
      Progress (.interaction event receivedAt) acts (.interaction event receivedAt phase)
  | other {acts} (quiet : acts = []) : Progress .other acts .other

theorem sends_snoc (acts : List PublishAction) (action : PublishAction) :
    sends (acts ++ [action]) = sends acts ++ (sent action).toList := by
  cases found : sent action <;>
    simp only [sends, List.filterMap_append, List.filterMap_cons, List.filterMap_nil, found,
      Option.toList_none, Option.toList_some]

theorem records_snoc (acts : List PublishAction) (action : PublishAction) :
    records (acts ++ [action]) = records acts ++ (gapOf action).toList := by
  cases found : gapOf action <;>
    simp only [records, List.filterMap_append, List.filterMap_cons, List.filterMap_nil, found,
      Option.toList_none, Option.toList_some]

theorem drops_snoc (acts : List PublishAction) (action : PublishAction) :
    drops (acts ++ [action]) = drops acts + if action = .dropped then 1 else 0 := by
  rw [drops, List.count_append, List.count_singleton]
  simp only [drops, beq_iff_eq]

/-- A section that neither sends nor records leaves both lists alone. -/
theorem quiet_message {acts : List PublishAction} {action : PublishAction} (silent : sent action = none)
    (unrecorded : gapOf action = none) (before : sends acts = [] ∧ records acts = []) :
    sends (acts ++ [action]) = [] ∧ records (acts ++ [action]) = [] := by
  rw [sends_snoc, records_snoc, silent, unrecorded, before.1, before.2]
  exact ⟨rfl, rfl⟩

theorem quiet_interaction {acts : List PublishAction} {action : PublishAction}
    (silent : sent action = none) (kept : action ≠ .dropped)
    (before : sends acts = [] ∧ drops acts = 0) :
    sends (acts ++ [action]) = [] ∧ drops (acts ++ [action]) = 0 := by
  rw [sends_snoc, drops_snoc, silent, if_neg kept, before.1, before.2]
  exact ⟨rfl, rfl⟩

theorem progress_kept {ingress next : GatewayIngress ι} {before after : Publication ι}
    {request : PublishRequest ι} {action : PublishAction} {acts : List PublishAction}
    (acted : Section ingress before action after next)
    (healthy : ingress.messageGaps.poisoned = false ∧ ingress.messageGaps.gatePoisoned = false)
    (progress : Progress request acts before) : Progress request (acts ++ [action]) after := by
  cases acted with
  | read =>
    cases progress with
    | message progress =>
      refine .message ?_
      split <;> exact quiet_message rfl rfl progress
  | exhausted | numbered | refused =>
    cases progress with
    | message progress => exact .message (quiet_message rfl rfl progress)
  | sent event nonce sequence _ _ =>
    cases progress with
    | message progress =>
      refine .message (Or.inl ⟨sequence, rfl, ?_, ?_⟩)
      · rw [sends_snoc, progress.1]
        rfl
      · rw [records_snoc, progress.2]
        rfl
  | recorded event nonce reason =>
    cases progress with
    | message progress =>
      refine .message ⟨?_, ?_, (record_healthy healthy).1⟩
      · rw [sends_snoc, progress.1]
        rfl
      · rw [records_snoc, progress.2]
        rfl
  | counted event nonce reason tracking =>
    cases progress with
    | message progress =>
      obtain ⟨silent, recorded, rfl⟩ := progress
      refine .message (Or.inr ⟨reason, rfl, ?_, ?_⟩)
      · rw [sends_snoc, silent]
        rfl
      · rw [records_snoc, recorded]
        rfl
  | tagged | spent =>
    cases progress with
    | interaction progress =>
      exact .interaction (quiet_interaction rfl (fun same => nomatch same) progress)
  | taken =>
    cases progress with
    | interaction progress =>
      have quiet := @quiet_interaction acts (.numbered (some (ingress.lastSequence + 1)))
        rfl (fun same => nomatch same) progress
      refine .interaction ?_
      split
      · exact ⟨quiet.1, quiet.2, fun same => nomatch same⟩
      · exact quiet
  | normal event receivedAt sequence _ _ =>
    cases progress with
    | interaction progress =>
      refine .interaction
        (Or.inl ⟨sequence, .normal, .normalInteraction, rfl, ?_, ?_, Or.inl ⟨rfl, rfl⟩⟩)
      · rw [sends_snoc, progress.1]
        rfl
      · rw [drops_snoc, progress.2]
        rfl
  | busy event receivedAt sequence reason =>
    cases progress with
    | interaction progress =>
      have quiet := @quiet_interaction acts (.refused .normalInteraction reason) rfl
        (fun same => nomatch same) progress
      exact .interaction ⟨quiet.1, quiet.2, fun same => nomatch same⟩
  | reserved event receivedAt sequence tag _ _ =>
    cases progress with
    | interaction progress =>
      obtain ⟨silent, kept, unusual⟩ := progress
      refine .interaction
        (Or.inl ⟨sequence, tag, .reservedInteraction, rfl, ?_, ?_, Or.inr ⟨rfl, unusual⟩⟩)
      · rw [sends_snoc, silent]
        rfl
      · rw [drops_snoc, kept]
        rfl
  | full =>
    cases progress with
    | interaction progress =>
      exact .interaction
        (quiet_interaction rfl (fun same => nomatch same) ⟨progress.1, progress.2.1⟩)
  | dropped event receivedAt reason =>
    cases progress with
    | interaction progress =>
      refine .interaction (Or.inr ⟨reason, rfl, ?_, ?_⟩)
      · rw [sends_snoc, progress.1]
        rfl
      · rw [drops_snoc, progress.2]
        rfl

variable {s t start : System ι} {event : IngressEvent ι} {events : List (IngressEvent ι)}
  {identity task : Nat}

/-- What a step does to the publish of one task -/
inductive TaskMove (task : Nat) (s : System ι) (event : IngressEvent ι) (t : System ι) : Prop where
  | kept (same : t.publications task = s.publications task) (quiet : actionOf task event = none)
  | began (request) (called : event = .began task request)
      (after : t.publications task = some request.start)
  | gated (message nonce) (before : s.publications task = some (.message message nonce .begun))
      (after : t.publications task = some (.message message nonce .gated))
      (quiet : actionOf task event = none)
  | acted (publication action next) (before : s.publications task = some publication)
      (section_ : Section s.ingress publication action next t.ingress)
      (after : t.publications task = some next) (called : event = .acted task action)
  | returned (after : t.publications task = none) (quiet : actionOf task event = none)

theorem put_same (s : System ι) (publication : Option (Publication ι)) :
    (s.put task publication).publications task = publication := Function.update_self ..

theorem put_other {other : Nat} (s : System ι) (publication : Option (Publication ι))
    (different : task ≠ other) :
    (s.put other publication).publications task = s.publications task :=
  Function.update_of_ne different ..

theorem task_move (step : IngressStep s event t) (task : Nat) : TaskMove task s event t := by
  cases step with
  | began other request idle =>
    by_cases same : task = other
    · subst same
      exact .began request rfl (put_same _ _)
    · exact .kept (put_other _ _ same) rfl
  | gated other message nonce waiting free =>
    by_cases same : task = other
    · subst same
      exact .gated message nonce waiting (put_same _ _) rfl
    · exact .kept (put_other _ _ same) rfl
  | acted other publication action next ingress running ran =>
    by_cases same : task = other
    · subst same
      exact .acted publication action next running (act_section ran) (put_same _ _) rfl
    · exact .kept (put_other _ _ same) (if_neg fun equal => same equal.symm)
  | returned other publication outcome running done =>
    by_cases same : task = other
    · subst same
      exact .returned (put_same _ _) rfl
    · exact .kept (put_other _ _ same) rfl
  | stopped | received | gap | fenced | elsewhere => exact .kept rfl rfl

theorem actions_snoc (task : Nat) (events : List (IngressEvent ι)) (event : IngressEvent ι) :
    actions task (events ++ [event]) = actions task events ++ (actionOf task event).toList := by
  cases found : actionOf task event <;>
    simp only [actions, List.filterMap_append, List.filterMap_cons, List.filterMap_nil, found,
      Option.toList_none, Option.toList_some]

theorem actionOf_acted (task : Nat) (action : PublishAction) :
    actionOf task (.acted task action : IngressEvent ι) = some action := if_pos rfl

/-- From its call on, until the task publishes again, a publish is where its sections led it. -/
theorem publish_progress {mid : List (IngressEvent ι)} {request : PublishRequest ι}
    (run : Run IngressStep s mid t) (healthy : Healthy s)
    (called : s.publications task = some request.start)
    (own : ∀ again, .began task again ∉ mid) :
    ∀ publication, t.publications task = some publication →
      Progress request (actions task mid) publication := by
  have known : Healthy t ∧ ((∀ again, .began task again ∉ mid) →
      ∀ publication, t.publications task = some publication →
        Progress request (actions task mid) publication) := by
    apply run.records fun past u => Healthy u ∧ ((∀ again, .began task again ∉ past) →
      ∀ publication, u.publications task = some publication →
        Progress request (actions task past) publication)
    · intro past u e v _ step ⟨open_, before⟩
      refine ⟨healthy_kept step open_, fun own publication running => ?_⟩
      have earlier := before fun again member => own again (List.mem_append_left _ member)
      rw [actions_snoc]
      cases task_move step task with
      | kept same quiet =>
        rw [quiet, Option.toList_none, List.append_nil]
        exact earlier publication (same ▸ running)
      | began again called after =>
        subst called
        exact absurd (List.mem_append_right _ (List.mem_singleton_self _)) (own again)
      | gated message nonce waiting after quiet =>
        rw [quiet, Option.toList_none, List.append_nil]
        rw [after] at running
        cases running
        cases earlier _ waiting with
        | message progress => exact .message progress
      | acted publication' action next waiting section_ after called =>
        rw [called, actionOf_acted, Option.toList_some]
        rw [after] at running
        cases running
        exact progress_kept section_ open_ (earlier _ waiting)
      | returned after quiet =>
        rw [after] at running
        cases running
    · refine ⟨healthy, fun _ publication running => ?_⟩
      rw [called] at running
      cases running
      cases request with
      | message => exact .message ⟨rfl, rfl⟩
      | interaction => exact .interaction ⟨rfl, rfl⟩
      | other => exact .other rfl
  exact known.2 own

/-! ## After the stop -/

/-- Where a publish can stand that has found the ingress not accepting -/
def Halting : Publication ι → Prop
  | .message _ _ .accepted | .message _ _ (.numbered _) | .interaction _ _ (.normal _) => False
  | .interaction _ _ (.tagged tag) | .interaction _ _ (.reserved _ tag) => tag = .stopping
  | _ => True

theorem halting_kept {ingress next : GatewayIngress ι} {before after : Publication ι}
    {action : PublishAction} (acted : Section ingress before action after next)
    (stopped : ingress.accepting = false) (halting : Halting before) :
    Halting after ∧ ∀ lane sequence tag, action = .sent lane sequence tag →
      lane = .reservedInteraction ∧ tag = some .stopping := by
  cases acted with
  | read => exact ⟨by rw [stopped]; trivial, fun _ _ _ same => nomatch same⟩
  | tagged => exact ⟨by rw [stopped]; rfl, fun _ _ _ same => nomatch same⟩
  | taken event receivedAt tag =>
    refine ⟨?_, fun _ _ _ same => nomatch same⟩
    have stopping : tag = .stopping := halting
    rw [if_pos stopping]
    rfl
  | reserved event receivedAt sequence tag =>
    refine ⟨trivial, fun _ _ _ same => ?_⟩
    cases same
    exact ⟨rfl, congrArg some halting⟩
  | sent | numbered | exhausted | normal | busy => cases halting
  | refused | recorded | counted | spent | full | dropped =>
    exact ⟨trivial, fun _ _ _ same => nomatch same⟩

theorem accepting_kept (step : IngressStep s event t) (stopped : s.ingress.accepting = false) :
    t.ingress.accepting = false := by
  cases step with
  | acted _ publication action next ingress running ran =>
    exact (act_section ran).accepting.trans stopped
  | received ingress step => exact (ReceiverStep.gaps step).2.2.1.trans stopped
  | stopped => rfl
  | began | gated | returned | gap | fenced | elsewhere => exact stopped

theorem stopped_sends {mid : List (IngressEvent ι)} {request : PublishRequest ι}
    (run : Run IngressStep s mid t) (stopped : s.ingress.accepting = false)
    (called : s.publications task = some request.start) (own : ∀ again, .began task again ∉ mid) :
    ∀ lane sequence tag, .sent lane sequence tag ∈ actions task mid →
      lane = .reservedInteraction ∧ tag = some .stopping := by
  have known : t.ingress.accepting = false ∧ ((∀ again, .began task again ∉ mid) →
      (∀ publication, t.publications task = some publication → Halting publication) ∧
      ∀ lane sequence tag, .sent lane sequence tag ∈ actions task mid →
        lane = .reservedInteraction ∧ tag = some .stopping) := by
    apply run.records fun past u => u.ingress.accepting = false ∧
      ((∀ again, .began task again ∉ past) →
        (∀ publication, u.publications task = some publication → Halting publication) ∧
        ∀ lane sequence tag, .sent lane sequence tag ∈ actions task past →
          lane = .reservedInteraction ∧ tag = some .stopping)
    · intro past u e v _ step ⟨closed, before⟩
      refine ⟨accepting_kept step closed, fun own => ?_⟩
      obtain ⟨halting, earlier⟩ :=
        before fun again member => own again (List.mem_append_left _ member)
      rw [actions_snoc]
      cases task_move step task with
      | kept same quiet =>
        rw [quiet, Option.toList_none, List.append_nil]
        exact ⟨fun publication running => halting publication (same ▸ running), earlier⟩
      | began again called after =>
        subst called
        exact absurd (List.mem_append_right _ (List.mem_singleton_self _)) (own again)
      | gated message nonce waiting after quiet =>
        rw [quiet, Option.toList_none, List.append_nil]
        refine ⟨fun publication running => ?_, earlier⟩
        rw [after] at running
        cases running
        trivial
      | acted publication action next waiting section_ after called =>
        rw [called, actionOf_acted, Option.toList_some]
        obtain ⟨still, only⟩ := halting_kept section_ closed (halting _ waiting)
        refine ⟨fun publication running => ?_, fun lane sequence tag member => ?_⟩
        · rw [after] at running
          cases running
          exact still
        · obtain old | new := List.mem_append.1 member
          · exact earlier lane sequence tag old
          · exact only lane sequence tag (List.mem_singleton.1 new).symm
      | returned after quiet =>
        rw [quiet, Option.toList_none, List.append_nil]
        refine ⟨fun publication running => ?_, earlier⟩
        rw [after] at running
        cases running
    · refine ⟨stopped, fun _ => ⟨fun publication running => ?_, fun _ _ _ member => ?_⟩⟩
      · rw [called] at running
        cases running
        cases request <;> trivial
      · cases member
  exact (known.2 own).2

theorem run_accepting (run : Run IngressStep s events t) (stopped : s.ingress.accepting = false) :
    t.ingress.accepting = false :=
  run.preserves (·.ingress.accepting = false) (fun _ _ _ step => accepting_kept step) stopped

end

end CodexRemote.Verified.GatewayIngress

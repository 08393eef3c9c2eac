import CodexRemote.Verified.GatewayIngress.Progress

/-! # Nothing that is published is lost without a trace

Beside the progress of each publish, two facts are carried along a run: which numbers were taken
and used, and what the lanes and the counter of hard drops hold.
-/

namespace CodexRemote.Verified.GatewayIngress

open Foundations Discord Verified.MessageGaps

variable {action : PublishAction}

section

variable {ι : Type} {s t start : System ι} {event : IngressEvent ι} {events : List (IngressEvent ι)}
  {identity task : Nat}

/-! ## Numbers -/

/-- A section takes the next number, uses the one it has taken, or does neither. -/
inductive NumberMove (ingress : GatewayIngress ι) (before : Publication ι) (action : PublishAction)
    (after : Publication ι) (next : GatewayIngress ι) : Prop where
  | took (number : actionNumber action = some (ingress.lastSequence + 1))
      (last : next.lastSequence = ingress.lastSequence + 1) (silent : sent action = none)
      (holds : after.pending = some (ingress.lastSequence + 1))
  | used (lane sequence tag) (number : actionNumber action = none)
      (last : next.lastSequence = ingress.lastSequence) (held : before.pending = some sequence)
      (spent : sent action = some (lane, sequence, tag)) (gone : after.pending = none)
  | kept (number : actionNumber action = none) (last : next.lastSequence = ingress.lastSequence)
      (silent : sent action = none)
      (holds : ∀ sequence, after.pending = some sequence → before.pending = some sequence)

variable {after before : Publication ι} {ingress next : GatewayIngress ι}
  {past : List (IngressEvent ι)}

theorem Section.numbers (acted : Section ingress before action after next) :
    NumberMove ingress before action after next := by
  cases acted with
  | read =>
    refine .kept rfl rfl rfl fun sequence holds => ?_
    split at holds <;> cases holds
  | numbered => exact .took rfl rfl rfl rfl
  | taken =>
    refine .took rfl rfl rfl ?_
    split <;> rfl
  | sent _ _ sequence _ sent => exact .used _ sequence _ rfl sent.last rfl rfl rfl
  | normal _ _ sequence _ sent => exact .used _ sequence _ rfl sent.last rfl rfl rfl
  | reserved _ _ sequence _ _ sent => exact .used _ sequence _ rfl sent.last rfl rfl rfl
  | busy => exact .kept rfl rfl rfl fun _ holds => holds
  | exhausted | refused | recorded | counted | tagged | spent | full | dropped =>
    exact .kept rfl rfl rfl fun _ holds => nomatch holds

/-- Numbers grow as they are taken, and a task uses the one it took last. -/
structure Numbered (events : List (IngressEvent ι)) (s : System ι) : Prop where
  grow : (events.filterMap assigned).Pairwise (· < ·)
  last : ∀ n ∈ events.filterMap assigned, n ≤ s.ingress.lastSequence
  carries : ∀ task, (carried task events).Pairwise (· < ·)
  below : ∀ task, ∀ n ∈ carried task events, n ≤ s.ingress.lastSequence
  pending : ∀ task publication sequence, s.publications task = some publication →
    publication.pending = some sequence →
    sequence ≤ s.ingress.lastSequence ∧ ∀ n ∈ carried task events, n < sequence

theorem carried_snoc (task : Nat) (events : List (IngressEvent ι)) (event : IngressEvent ι) :
    carried task (events ++ [event]) =
      carried task events ++ ((actionOf task event).bind sent).toList.map (·.2.1) := by
  rw [carried, actions_snoc]
  cases actionOf task event with
  | none => simp only [Option.toList_none, List.append_nil, Option.bind_none, List.map_nil, carried]
  | some action =>
    rw [Option.toList_some, sends_snoc, List.map_append]
    rfl

theorem carried_quiet {task : Nat} {events : List (IngressEvent ι)} {event : IngressEvent ι}
    (quiet : (actionOf task event).bind sent = none) :
    carried task (events ++ [event]) = carried task events := by
  rw [carried_snoc, quiet, Option.toList_none, List.map_nil, List.append_nil]

theorem assigned_snoc (events : List (IngressEvent ι)) (event : IngressEvent ι) :
    (events ++ [event]).filterMap assigned =
      events.filterMap assigned ++ (assigned event).toList := by
  cases found : assigned event <;>
    simp only [List.filterMap_append, List.filterMap_cons, List.filterMap_nil, found,
      Option.toList_none, Option.toList_some]

/-- A list that grows by a number above all of it -/
theorem pairwise_snoc {numbers : List Nat} {n : Nat} (grow : numbers.Pairwise (· < ·))
    (above : ∀ m ∈ numbers, m < n) : (numbers ++ [n]).Pairwise (· < ·) :=
  List.pairwise_append.2 ⟨grow, List.pairwise_singleton _ n, fun m member k last => by
    rw [List.mem_singleton.1 last]
    exact above m member⟩

/-- A step that no number goes through -/
theorem numbered_around (known : Numbered past s)
    (silent : assigned event = none) (quiet : ∀ task, (actionOf task event).bind sent = none)
    (later : s.ingress.lastSequence ≤ t.ingress.lastSequence)
    (holds : ∀ task publication sequence, t.publications task = some publication →
      publication.pending = some sequence → ∃ before, s.publications task = some before ∧
        before.pending = some sequence) : Numbered (past ++ [event]) t := by
  have same : (past ++ [event]).filterMap assigned = past.filterMap assigned := by
    rw [assigned_snoc, silent, Option.toList_none, List.append_nil]
  refine ⟨?_, ?_, fun task => ?_, fun task => ?_, fun task publication sequence running pends => ?_⟩
  · rw [same]
    exact known.grow
  · rw [same]
    exact fun n member => Nat.le_trans (known.last n member) later
  · rw [carried_quiet (quiet task)]
    exact known.carries task
  · rw [carried_quiet (quiet task)]
    exact fun n member => Nat.le_trans (known.below task n member) later
  · rw [carried_quiet (quiet task)]
    obtain ⟨before, ran, pended⟩ := holds task publication sequence running pends
    obtain ⟨small, above⟩ := known.pending task before sequence ran pended
    exact ⟨Nat.le_trans small later, above⟩

theorem numbered_acted {publication next : Publication ι} (known : Numbered past s)
    (running : s.publications task = some publication)
    (acted : Section s.ingress publication action next ingress)
    (after : t.publications = (s.put task (some next)).publications)
    (moved : t.ingress.lastSequence = ingress.lastSequence) :
    Numbered (past ++ [.acted task action]) t := by
  have there : t.publications task = some next := by
    rw [after]
    exact put_same _ _
  have elsewhere : ∀ other, other ≠ task → t.publications other = s.publications other := by
    intro other different
    rw [after]
    exact put_other _ _ different
  have quiet : ∀ other, other ≠ task →
      carried other (past ++ [.acted task action]) = carried other past := by
    intro other different
    apply carried_quiet
    rw [actionOf, if_neg (Ne.symm different), Option.bind_none]
  have carries : carried task (past ++ [.acted task action]) =
      carried task past ++ (sent action).toList.map (·.2.1) := by
    rw [carried_snoc, actionOf_acted, Option.bind_some]
  cases acted.numbers with
  | took number last silent holds =>
    rw [last] at moved
    have counted : (past ++ [IngressEvent.acted task action]).filterMap assigned =
        past.filterMap assigned ++ [s.ingress.lastSequence + 1] := by
      rw [assigned_snoc, assigned, number, Option.toList_some]
    rw [silent, Option.toList_none, List.map_nil, List.append_nil] at carries
    have same : ∀ other, carried other (past ++ [.acted task action]) = carried other past := by
      intro other
      by_cases equal : other = task
      · rw [equal, carries]
      · exact quiet other equal
    refine ⟨?_, ?_, fun other => ?_, fun other => ?_, fun other publication' sequence ran pends => ?_⟩
    · rw [counted]
      exact pairwise_snoc known.grow fun m member => Nat.lt_succ_of_le (known.last m member)
    · rw [counted, moved]
      intro n member
      obtain old | new := List.mem_append.1 member
      · exact Nat.le_succ_of_le (known.last n old)
      · exact Nat.le_of_eq (List.mem_singleton.1 new)
    · rw [same]
      exact known.carries other
    · rw [same, moved]
      exact fun n member => Nat.le_succ_of_le (known.below other n member)
    · rw [same, moved]
      by_cases equal : other = task
      · subst equal
        rw [there] at ran
        cases ran
        rw [holds] at pends
        cases pends
        exact ⟨Nat.le_refl _, fun n member => Nat.lt_succ_of_le (known.below other n member)⟩
      · rw [elsewhere other equal] at ran
        obtain ⟨small, above⟩ := known.pending other publication' sequence ran pends
        exact ⟨Nat.le_succ_of_le small, above⟩
  | used lane number' tag number last held spent gone =>
    rw [last] at moved
    obtain ⟨small, above⟩ := known.pending task publication number' running held
    have counted : (past ++ [IngressEvent.acted task action]).filterMap assigned =
        past.filterMap assigned := by
      rw [assigned_snoc, assigned, number, Option.toList_none, List.append_nil]
    rw [spent] at carries
    refine ⟨?_, ?_, fun other => ?_, fun other => ?_, fun other publication' sequence ran pends => ?_⟩
    · rw [counted]
      exact known.grow
    · rw [counted, moved]
      exact known.last
    · by_cases equal : other = task
      · rw [equal, carries]
        exact pairwise_snoc (known.carries task) above
      · rw [quiet other equal]
        exact known.carries other
    · rw [moved]
      by_cases equal : other = task
      · rw [equal, carries]
        intro n member
        obtain old | new := List.mem_append.1 member
        · exact known.below task n old
        · rw [List.mem_singleton.1 new]
          exact small
      · rw [quiet other equal]
        exact known.below other
    · by_cases equal : other = task
      · subst equal
        rw [there] at ran
        cases ran
        rw [gone] at pends
        cases pends
      · rw [elsewhere other equal] at ran
        rw [quiet other equal, moved]
        exact known.pending other publication' sequence ran pends
  | kept number last silent holds =>
    apply numbered_around known
    · rw [assigned, number]
    · intro other
      by_cases equal : other = task
      · rw [equal, actionOf_acted, Option.bind_some, silent]
      · rw [actionOf, if_neg (Ne.symm equal), Option.bind_none]
    · rw [moved, last]
    · intro other publication' sequence ran pends
      by_cases equal : other = task
      · subst equal
        rw [there] at ran
        cases ran
        exact ⟨publication, running, holds sequence pends⟩
      · rw [elsewhere other equal] at ran
        exact ⟨publication', ran, pends⟩

/-- A publish that has taken no number, or none at all, in the place of one task -/
theorem pending_put {s t : System ι} {after : Option (Publication ι)}
    (placed : t.publications = (s.put task after).publications)
    (none_ : ∀ publication, after = some publication → publication.pending = none) (other : Nat)
    (publication : Publication ι) (sequence : Nat) (running : t.publications other = some publication)
    (pends : publication.pending = some sequence) : ∃ before, s.publications other = some before ∧
      before.pending = some sequence := by
  rw [placed] at running
  by_cases equal : other = task
  · subst equal
    rw [put_same] at running
    rw [none_ publication running] at pends
    cases pends
  · rw [put_other _ _ equal] at running
    exact ⟨publication, running, pends⟩

theorem start_pending (request : PublishRequest ι) : request.start.pending = none := by
  cases request with
  | message | interaction | other => rfl

theorem numbered_kept (step : IngressStep s event t)
    (known : Numbered past s) : Numbered (past ++ [event]) t := by
  cases step with
  | began other request idle =>
    refine numbered_around known rfl (fun _ => rfl) (Nat.le_refl _) (pending_put rfl ?_)
    intro publication same
    cases same
    exact start_pending request
  | gated other message nonce waiting free =>
    refine numbered_around known rfl (fun _ => rfl) (Nat.le_refl _) (pending_put rfl ?_)
    intro publication same
    cases same
    rfl
  | returned other publication outcome running done =>
    refine numbered_around known rfl (fun _ => rfl) (Nat.le_refl _) (pending_put rfl ?_)
    intro publication same
    cases same
  | acted other publication action next ingress running ran =>
    exact numbered_acted known running (act_section ran) rfl rfl
  | received ingress step =>
    exact numbered_around known rfl (fun _ => rfl) (Nat.le_of_eq (ReceiverStep.gaps step).2.1.symm)
      fun _ publication _ running pends => ⟨publication, running, pends⟩
  | elsewhere last later =>
    exact numbered_around known rfl (fun _ => rfl) later
      fun _ publication _ running pends => ⟨publication, running, pends⟩
  | stopped | gap | fenced =>
    exact numbered_around known rfl (fun _ => rfl) (Nat.le_refl _)
      fun _ publication _ running pends => ⟨publication, running, pends⟩

theorem run_numbered (fresh : Fresh start identity) (run : Run IngressStep start events s) :
    Numbered events s := by
  refine run.records Numbered (fun past u e v _ step known => numbered_kept step known) ?_
  refine ⟨.nil, (fun _ member => nomatch member), fun _ => .nil,
    (fun _ _ member => nomatch member), ?_⟩
  intro task publication sequence running
  rw [fresh.idle] at running
  cases running

/-! ## Lanes and hard drops -/

/-- Lanes hold what was sent into them, in order; every hard drop is counted once. -/
structure Kept (events : List (IngressEvent ι)) (s : System ι) : Prop where
  lanes : ∀ lane, (held s.ingress lane).Sublist (events.filterMap (enqueued lane))
  drops : s.ingress.hardDroppedInteractions = min (events.countP hardDrop) u64Max

theorem Section.lanes (acted : Section ingress before action after next)
    (lane : IngressLane) : held next lane = held ingress lane ++ (sentInto lane action).toList := by
  have delivered : ∀ {other tag} {item : LaneItem ι}, Delivered ingress other item next →
      held next lane = held ingress lane ++ (sentInto lane (.sent other item.sequence tag)).toList := by
    intro other item tag sent
    rw [sent.numbers lane, sentInto]
    split <;> rfl
  cases acted with
  | sent _ _ _ _ sent => exact delivered sent
  | normal _ _ _ _ sent => exact delivered sent
  | reserved _ _ _ _ _ sent => exact delivered sent
  | read | exhausted | numbered | refused | recorded | counted | tagged | spent | taken | busy
  | full | dropped =>
    cases lane <;> exact (List.append_nil _).symm

/-- A section that sends appends the item of its request to its lane, and to no other. -/
theorem Section.delivers
    {request : PublishRequest ι} {acts : List PublishAction} {lane : IngressLane} {sequence : Nat}
    {tag : Option InteractionIngressTag} (progress : Progress request acts before)
    (acted : Section ingress before (.sent lane sequence tag) after next) :
    ∃ item, request.item sequence tag = some item ∧ Delivered ingress lane item next := by
  cases acted with
  | sent _ _ _ _ sent =>
    cases progress
    exact ⟨_, rfl, sent⟩
  | normal _ _ _ _ sent =>
    cases progress
    exact ⟨_, rfl, sent⟩
  | reserved _ _ _ _ _ sent =>
    cases progress
    exact ⟨_, rfl, sent⟩

theorem Section.drops (acted : Section ingress before action after next) :
    next.hardDroppedInteractions = if action = .dropped
      then saturatingSucc u64Max ingress.hardDroppedInteractions
      else ingress.hardDroppedInteractions := by
  cases acted with
  | sent _ _ _ _ sent => exact sent.drops
  | normal _ _ _ _ sent => exact sent.drops
  | reserved _ _ _ _ _ sent => exact sent.drops
  | read | exhausted | numbered | refused | recorded | counted | tagged | spent | taken | busy
  | full | dropped => rfl

theorem LaneStep.sublist {α : Type} {lane next : Lane α} (step : LaneStep lane next) :
    next.queue.Sublist lane.queue := by
  cases step with
  | took item rest front =>
    rw [front]
    exact List.sublist_cons_self _ _
  | closed => exact List.Sublist.refl _
  | dropped => exact List.nil_sublist _

theorem ReceiverStep.lanes (step : ReceiverStep ingress next)
    (lane : IngressLane) : (held next lane).Sublist (held ingress lane) := by
  cases step with
  | normal _ step =>
    cases lane with
    | normalInteraction => exact (LaneStep.sublist step).map _
    | reservedInteraction | message | emergencyMessage => exact List.Sublist.refl _
  | reserved _ step =>
    cases lane with
    | reservedInteraction => exact (LaneStep.sublist step).map _
    | normalInteraction | message | emergencyMessage => exact List.Sublist.refl _
  | message _ step =>
    cases lane with
    | message => exact (LaneStep.sublist step).map _
    | normalInteraction | reservedInteraction | emergencyMessage => exact List.Sublist.refl _
  | emergency _ step =>
    cases lane with
    | emergencyMessage => exact (LaneStep.sublist step).map _
    | normalInteraction | reservedInteraction | message => exact List.Sublist.refl _

/-- A step that nothing enters a lane through -/
theorem kept_around (known : Kept past s)
    (silent : ∀ lane, enqueued lane event = none) (undropped : hardDrop event = false)
    (lanes : ∀ lane, (held t.ingress lane).Sublist (held s.ingress lane))
    (same : t.ingress.hardDroppedInteractions = s.ingress.hardDroppedInteractions) :
    Kept (past ++ [event]) t := by
  refine ⟨fun lane => ?_, ?_⟩
  · rw [List.filterMap_append, List.filterMap_cons_none (silent lane), List.filterMap_nil,
      List.append_nil]
    exact (lanes lane).trans (known.lanes lane)
  · rw [same, known.drops, List.countP_append, List.countP_singleton, undropped,
      if_neg Bool.false_ne_true, Nat.add_zero]

theorem kept_kept (step : IngressStep s event t)
    (known : Kept past s) : Kept (past ++ [event]) t := by
  cases step with
  | acted task publication action next ingress running ran =>
    have section_ := act_section ran
    refine ⟨fun lane => ?_, ?_⟩
    · have pushed : ([.acted task action] : List (IngressEvent ι)).filterMap (enqueued lane) =
          (sentInto lane action).toList := by
        cases found : sentInto lane action <;>
          simp only [List.filterMap_cons, List.filterMap_nil, enqueued, found, Option.toList_none,
            Option.toList_some]
      rw [List.filterMap_append, pushed, section_.lanes lane]
      exact (known.lanes lane).append (List.Sublist.refl _)
    · rw [section_.drops, known.drops, List.countP_append, List.countP_singleton, hardDrop]
      simp only [decide_eq_true_eq]
      split
      · rw [saturatingSucc]
        omega
      · rfl
  | received ingress step =>
    exact kept_around known (fun _ => rfl) rfl (ReceiverStep.lanes step)
      (ReceiverStep.gaps step).2.2.2
  | began | gated | returned | stopped | gap | fenced | elsewhere =>
    exact kept_around known (fun _ => rfl) rfl
      (fun lane => by cases lane <;> exact List.Sublist.refl _) rfl

theorem run_kept (fresh : Fresh start identity) (run : Run IngressStep start events s) :
    Kept events s := by
  refine run.records Kept (fun past u e v _ step known => kept_kept step known) ?_
  refine ⟨fun lane => ?_, ?_⟩
  · rw [fresh.lanes lane]
    exact List.nil_sublist _
  · rw [fresh.drops]
    rfl

/-! ## Main result -/

theorem outcome_message {event : MessageCreate} {nonce : Option Nat} {acts : List PublishAction}
    {publication : Publication ι} {outcome : PublishOutcome}
    (progress : Progress (.message event nonce) acts publication)
    (done : publication.outcome = some outcome) : MessageSettled event acts outcome := by
  cases progress with
  | @message _ _ phase _ progress =>
    cases phase with
    | returning =>
      cases done
      exact progress
    | begun | gated | accepted | numbered | refused | recorded => cases done

theorem outcome_interaction {event : ι} {receivedAt : Rat} {acts : List PublishAction}
    {publication : Publication ι} {outcome : PublishOutcome}
    (progress : Progress (.interaction event receivedAt) acts publication)
    (done : publication.outcome = some outcome) : InteractionSettled acts outcome := by
  cases progress with
  | @interaction _ _ phase _ progress =>
    cases phase with
    | returning =>
      cases done
      exact progress
    | begun | tagged | normal | reserved | refused => cases done

/-- A publish that returned, as far as it went before -/
theorem returned_progress {front mid back : List (IngressEvent ι)} {request : PublishRequest ι}
    {outcome : PublishOutcome} (fresh : Fresh start identity) (run : Run IngressStep start
      (front ++ .began task request :: (mid ++ .returned task outcome :: back)) s)
    (own : ∀ again, .began task again ∉ mid) : ∃ publication : Publication ι,
      Progress request (actions task mid) publication ∧ publication.outcome = some outcome := by
  obtain ⟨before, called, left, began, rest⟩ := run.split_at
  obtain ⟨last, gone, middle, returned, _⟩ := rest.split_at
  have healthy : Healthy called := healthy_kept began
    (left.preserves Healthy (fun _ _ _ => healthy_kept) (fresh_healthy fresh))
  have placed : called.publications task = some request.start := by
    cases began with
    | began _ _ idle => exact put_same _ _
  cases returned with
  | returned _ publication _ running done =>
    exact ⟨publication, publish_progress middle healthy placed own publication running, done⟩

/-- What a publish sends, where its request was made earlier in the run -/
theorem sent_appends {front mid back : List (IngressEvent ι)} {request : PublishRequest ι}
    {lane : IngressLane} {sequence : Nat} {tag : Option InteractionIngressTag}
    (fresh : Fresh start identity) (run : Run IngressStep start
      (front ++ .began task request :: (mid ++ .acted task (.sent lane sequence tag) :: back)) s)
    (own : ∀ again, .began task again ∉ mid) : ∃ before after item,
      Run IngressStep start (front ++ .began task request :: mid) before ∧
      IngressStep before (.acted task (.sent lane sequence tag)) after ∧
      Run IngressStep after back s ∧ request.item sequence tag = some item ∧
      items after.ingress lane = items before.ingress lane ++ [item] ∧
      ∀ other, other ≠ lane → items after.ingress other = items before.ingress other := by
  obtain ⟨idle, called, left, began, rest⟩ := run.split_at
  obtain ⟨before, after, middle, acted, right⟩ := rest.split_at
  have healthy : Healthy called := healthy_kept began
    (left.preserves Healthy (fun _ _ _ => healthy_kept) (fresh_healthy fresh))
  have placed : called.publications task = some request.start := by
    cases began with
    | began _ _ idle => exact put_same _ _
  have whole := acted
  -- the section that ran is one of the request that the task published, as far as it came
  cases acted with
  | acted _ publication _ next ingress running ran =>
    have progress := publish_progress middle healthy placed own publication running
    obtain ⟨item, same, sent⟩ := Section.delivers progress (act_section ran)
    exact ⟨before, _, item, left.append (.cons began middle), whole, right, same, sent.appended,
      sent.others⟩

/-- A record is made under healthy locks. -/
theorem recorded_ok {front back : List (IngressEvent ι)} {message : MessageCreate}
    {answer : GapAnswer Unit} (fresh : Fresh start identity)
    (run : Run IngressStep start (front ++ .acted task (.recorded message answer) :: back) s) :
    answer = .ok () := by
  obtain ⟨before, after, left, step, _⟩ := run.split_at
  have healthy : Healthy before :=
    left.preserves Healthy (fun _ _ _ => healthy_kept) (fresh_healthy fresh)
  cases step with
  | acted _ publication _ next ingress running ran =>
    obtain ⟨quiet, _⟩ | ⟨message', reason, same, _⟩ := (act_section ran).gaps
    · cases quiet
    · cases same
      exact (record_healthy healthy).1

/-- For every run of one ingress: numbers are taken in order, one task uses them in order, and a
lane holds what was sent into it; a send appends the item of its request to its lane and leaves the
other lanes; a publish that returns has put its message into its lane or
recorded it, once, and a record leaves a gap that no older token clears or runs past; an
interaction is in one lane or one counted hard drop; and a publish called after the stop sends
nothing but reserved interactions with the stopping tag. -/
theorem gateway_publication (fresh : Fresh start identity) (run : Run IngressStep start events s) :
    (events.filterMap assigned).Pairwise (· < ·) ∧
    (∀ task, (carried task events).Pairwise (· < ·)) ∧
    (∀ lane, (held s.ingress lane).Sublist (events.filterMap (enqueued lane))) ∧
    (∀ front task request mid lane sequence tag back,
      events = front ++ .began task request ::
        (mid ++ .acted task (.sent lane sequence tag) :: back) →
      (∀ again, .began task again ∉ mid) → ∃ before after item,
        Run IngressStep start (front ++ .began task request :: mid) before ∧
        IngressStep before (.acted task (.sent lane sequence tag)) after ∧
        Run IngressStep after back s ∧ request.item sequence tag = some item ∧
        items after.ingress lane = items before.ingress lane ++ [item] ∧
        ∀ other, other ≠ lane → items after.ingress other = items before.ingress other) ∧
    (∀ front task event nonce mid outcome back,
      events = front ++ .began task (.message event nonce) ::
        (mid ++ .returned task outcome :: back) →
      (∀ again, .began task again ∉ mid) → MessageSettled event (actions task mid) outcome) ∧
    (∀ front task message answer rest, events = front ++ .acted task (.recorded message answer) :: rest →
      answer = .ok () ∧ Traced message (gapLog front).length rest s) ∧
    (∀ front task event receivedAt mid outcome back,
      events = front ++ .began task (.interaction event receivedAt) ::
        (mid ++ .returned task outcome :: back) →
      (∀ again, .began task again ∉ mid) → InteractionSettled (actions task mid) outcome) ∧
    s.ingress.hardDroppedInteractions = min (events.countP hardDrop) u64Max ∧
    ∀ front task request mid, events = front ++ .began task request :: mid → .stopped ∈ front →
      (∀ again, .began task again ∉ mid) → ∀ lane sequence tag,
        .sent lane sequence tag ∈ actions task mid →
          lane = .reservedInteraction ∧ tag = some .stopping := by
  have numbers := run_numbered fresh run
  have kept := run_kept fresh run
  refine ⟨numbers.grow, numbers.carries, kept.lanes, ?_, ?_, ?_, ?_, kept.drops, ?_⟩
  · intro front task request mid lane sequence tag back split own
    subst split
    exact sent_appends fresh run own
  · intro front task event nonce mid outcome back split own
    subst split
    obtain ⟨publication, progress, done⟩ := returned_progress fresh run own
    exact outcome_message progress done
  · intro front task message answer rest split
    subst split
    obtain rfl := recorded_ok fresh run
    exact ⟨rfl, recorded_traced fresh run⟩
  · intro front task event receivedAt mid outcome back split own
    subst split
    obtain ⟨publication, progress, done⟩ := returned_progress fresh run own
    exact outcome_interaction progress done
  · intro front task request mid split stopped own
    subst split
    obtain ⟨before, called, left, began, rest⟩ := run.split_at
    obtain ⟨past, later, rfl⟩ := List.append_of_mem stopped
    obtain ⟨_, closed, _, stop, more⟩ := left.split_at
    -- nothing opens the ingress again, so the publish meets it closed
    have shut : closed.ingress.accepting = false := by
      cases stop with
      | stopped => rfl
    have placed : called.publications task = some request.start := by
      cases began with
      | began _ _ idle => exact put_same _ _
    exact stopped_sends rest (accepting_kept began (run_accepting more shut)) placed own

/-! ## A gap that is acknowledged before the publish returns -/

/-- An ingress nothing was published through yet -/
def quietIngress : System Unit where
  ingress :=
    { normalInteractions := ⟨1, [], false⟩
      reservedInteractions := ⟨1, [], false⟩
      messages := ⟨1, [], false⟩
      emergencyMessages := ⟨1, [], false⟩
      messageGaps := .new 0
      hardDroppedInteractions := 0
      recoverableMessageGaps := 0
      accepting := true
      lastSequence := 0 }
  publications := fun _ => none
  gate := none
  notices := []
  fences := []
  log := []

theorem quietIngress_fresh : Fresh quietIngress 0 where
  idle := rfl
  gaps := rfl
  lanes lane := by cases lane <;> rfl
  drops := rfl

def hello : MessageCreate := ⟨1, 7, 5, "hello"⟩

def helloNotice : MessageGapNotice := ⟨⟨7, ⟨5, 1⟩, 4, 1, 1⟩, 0⟩

/-- Stopped, then published and acknowledged between the record and the return -/
def acknowledgedEarly : List (IngressEvent Unit) :=
  [.stopped, .began 0 (.message hello none), .surrounded, .acted 0 (.read false),
    .acted 0 (.recorded hello (.ok ())), .gap (.snapshotTaken (.ok [helloNotice])),
    .gap (.acknowledged helloNotice 1 (.ok .cleared)), .acted 0 .counted,
    .returned 0 (.messageRecoverableGap .stopping (.ok ()))]

theorem acknowledged_early : ∃ s, Run IngressStep quietIngress acknowledgedEarly s ∧
    s.gaps.active 7 = none :=
  ⟨_, .cons .stopped (.cons (.began 0 (.message hello none) rfl)
    (.cons (.gated 0 hello none rfl rfl) (.cons (.acted 0 _ _ _ _ rfl rfl)
    (.cons (.acted 0 _ _ _ _ rfl rfl) (.cons (.gap _ _ (.snapshot _) rfl)
    (.cons (.gap _ _ (.acknowledge _ helloNotice 1 (Or.inl (by decide))) rfl)
    (.cons (.acted 0 _ _ _ _ rfl rfl) (.cons (.returned 0 _ _ rfl rfl) (.nil _))))))))), by decide⟩

def helloPublish : List (IngressEvent Unit) :=
  [.surrounded, .acted 0 (.read false), .acted 0 (.recorded hello (.ok ())),
    .gap (.snapshotTaken (.ok [helloNotice])), .gap (.acknowledged helloNotice 1 (.ok .cleared)),
    .acted 0 .counted]

theorem hello_once (again : PublishRequest Unit) : .began 0 again ∉ helloPublish := by
  intro member
  simp only [helloPublish, List.mem_cons, List.not_mem_nil, reduceCtorEq, or_self] at member

/-- The same message while the ingress accepts, up to its send -/
def helloSent : List (IngressEvent Unit) :=
  [.began 0 (.message hello none), .surrounded, .acted 0 (.read true),
    .acted 0 (.numbered (some 1)), .acted 0 (.sent .message 1 none)]

theorem hello_sent : ∃ s, Run IngressStep quietIngress helloSent s :=
  ⟨_, .cons (.began 0 (.message hello none) rfl) (.cons (.gated 0 hello none rfl rfl)
    (.cons (.acted 0 _ _ _ _ rfl rfl) (.cons (.acted 0 _ _ _ _ rfl rfl)
    (.cons (.acted 0 _ _ _ _ rfl rfl) (.nil _)))))⟩

theorem hello_settled : MessageSettled hello (actions 0 helloPublish)
      (.messageRecoverableGap .stopping (.ok ())) ∧
    ∃ before after : System Unit, IngressStep before (.acted 0 (.sent .message 1 none)) after ∧
      items after.ingress .message = items before.ingress .message ++ [.message ⟨1, hello, none⟩] := by
  constructor
  · obtain ⟨s, run, _⟩ := acknowledged_early
    exact (gateway_publication quietIngress_fresh run).2.2.2.2.1 [.stopped] 0 hello none helloPublish _
      [] rfl hello_once
  · obtain ⟨s, run⟩ := hello_sent
    obtain ⟨before, after, item, _, sent, _, same, appended, _⟩ :=
      (gateway_publication quietIngress_fresh run).2.2.2.1 [] 0 (.message hello none)
        ((helloSent.drop 1).take 3) .message 1 none [] rfl (by simp [helloSent])
    cases same
    exact ⟨before, after, sent, appended⟩

/-- The message is in no lane, and its channel has no gap when its publish returns. -/
theorem hello_gap_gone : ¬ ∀ (events : List (IngressEvent Unit)) (s : System Unit),
    Run IngressStep quietIngress events s → ∀ front task event nonce mid outcome,
      events = front ++ .began task (.message event nonce) :: (mid ++ [.returned task outcome]) →
      sends (actions task mid) ≠ [] ∨
        ∃ gap, s.gaps.active event.channelId = some gap ∧ gap.earliest ≤ event.position := by
  intro claimed
  obtain ⟨s, run, cleared⟩ := acknowledged_early
  obtain sent | ⟨gap, active, _⟩ :=
    claimed _ s run [.stopped] 0 hello none helloPublish _ rfl
  · exact sent rfl
  · have same : s.gaps.active hello.channelId = none := cleared
    rw [same] at active
    cases active

end

end CodexRemote.Verified.GatewayIngress

import CodexRemote.Verified.GatewayIngress.System

/-! # A recorded gap outlives every older token

Seen from the gap tracker, a run of the ingress is a run of the tracker.  What is known of notices
and fences there says that nothing taken before a record can clear it or run past it.
-/

namespace CodexRemote.Verified.GatewayIngress

open Foundations Discord Verified.MessageGaps

section

variable {ι : Type} {s t start : System ι} {event : IngressEvent ι} {events : List (IngressEvent ι)}
  {identity : Nat}

/-- A section records a gap, or leaves the tracker alone. -/
theorem Section.gaps {ingress next : GatewayIngress ι} {before after : Publication ι}
    {action : PublishAction} (acted : Section ingress before action after next) :
    (actionGap action = none ∧ next.messageGaps = ingress.messageGaps) ∨
      ∃ message reason,
        action = .recorded message
          (ingress.messageGaps.record message.channelId message.position reason).1 ∧
        next.messageGaps =
          (ingress.messageGaps.record message.channelId message.position reason).2 := by
  cases acted with
  | recorded event nonce reason => exact Or.inr ⟨event, reason, rfl, rfl⟩
  | sent _ _ _ _ sent => exact Or.inl ⟨rfl, sent.gaps⟩
  | normal _ _ _ _ sent => exact Or.inl ⟨rfl, sent.gaps⟩
  | reserved _ _ _ _ _ sent => exact Or.inl ⟨rfl, sent.gaps⟩
  | read | exhausted | numbered | refused | counted | tagged | spent | taken | busy | full
  | dropped => exact Or.inl ⟨rfl, rfl⟩

theorem Section.accepting {ingress next : GatewayIngress ι} {before after : Publication ι}
    {action : PublishAction} (acted : Section ingress before action after next) :
    next.accepting = ingress.accepting := by
  cases acted with
  | sent _ _ _ _ sent => exact sent.accepting
  | normal _ _ _ _ sent => exact sent.accepting
  | reserved _ _ _ _ _ sent => exact sent.accepting
  | read | exhausted | numbered | refused | recorded | counted | tagged | spent | taken | busy
  | full | dropped => rfl

theorem ReceiverStep.gaps {ingress next : GatewayIngress ι} (step : ReceiverStep ingress next) :
    next.messageGaps = ingress.messageGaps ∧ next.lastSequence = ingress.lastSequence ∧
      next.accepting = ingress.accepting ∧
      next.hardDroppedInteractions = ingress.hardDroppedInteractions := by
  cases step with
  | normal | reserved | message | emergency => exact ⟨rfl, rfl, rfl, rfl⟩

/-! ## The gap tracker in the system -/

theorem gaps_stay (step : IngressStep s event t) (silent : eventGap event = none) :
    t.gaps = s.gaps := by
  cases step with
  | acted task publication action next ingress running ran =>
    obtain ⟨quiet, same⟩ | ⟨message, reason, rfl, _⟩ := (act_section ran).gaps
    · simp only [System.gaps, System.put, quiet, same, Option.toList_none, List.append_nil]
    · cases silent
  | received ingress step => simp only [System.gaps, (ReceiverStep.gaps step).1]
  | gap | fenced => cases silent
  | began | gated | returned | stopped | elsewhere => rfl

/-- An action that returns leaves the tracker as it is. -/
theorem fence_returns {α : Type} (tracker : MessageGapTracker) (fence : MessageGapFence)
    (value : α) : (tracker.withCurrentFence fence (.returns value)).2 = tracker := by
  rw [MessageGapTracker.withCurrentFence]
  split
  · rfl
  · split
    · rfl
    · split
      · rfl
      · simp only
        split <;> rfl

theorem gaps_move {entry : GapEvent} (step : IngressStep s event t)
    (left : eventGap event = some entry) : GapStep s.gaps entry t.gaps := by
  cases step with
  | acted task publication action next ingress running ran =>
    obtain ⟨quiet, _⟩ | ⟨message, reason, rfl, same⟩ := (act_section ran).gaps
    · rw [eventGap, quiet] at left
      cases left
    · cases left
      have recorded := GapStep.record s.gaps message.channelId message.position reason
      simp only [System.gaps, System.put, same]
      exact recorded
  | gap entry' gaps step call =>
    cases left
    exact step
  | @fenced α fence taken ran value free held result =>
    cases left
    have fenced := GapStep.fence s.gaps fence taken (.returns value) held
    have same := fence_returns s.ingress.messageGaps fence value
    subst result
    simp only [System.gaps, same] at fenced ⊢
    exact fenced
  | began | gated | returned | stopped | received | elsewhere => cases left

/-- What a run leaves in the gap log -/
def gapLog (events : List (IngressEvent ι)) : List GapEvent := events.filterMap eventGap

theorem gap_run (fresh : Fresh start identity) (run : Run IngressStep start events s) :
    Run GapStep (.start identity) (gapLog events) s.gaps := by
  rw [← fresh.gaps]
  exact run.project System.gaps eventGap (fun _ _ _ step => gaps_stay step)
    (fun _ _ _ _ step => gaps_move step)

/-! ## Healthy locks -/

def Healthy (s : System ι) : Prop :=
  s.ingress.messageGaps.poisoned = false ∧ s.ingress.messageGaps.gatePoisoned = false

theorem record_healthy {tracker : MessageGapTracker} {channelId : Nat}
    {position : MessageGapPosition} {reason : UnavailableReason}
    (open_ : tracker.poisoned = false ∧ tracker.gatePoisoned = false) :
    (tracker.record channelId position reason).1 = .ok () ∧
      (tracker.record channelId position reason).2.poisoned = false ∧
      (tracker.record channelId position reason).2.gatePoisoned = false := by
  simp only [MessageGapTracker.record, open_.1, open_.2, Bool.false_eq_true, if_false, and_self]

theorem received_healthy {before after : GapRun} {entry : GapEvent}
    (step : GapStep before entry after) (call : receiving entry = true)
    (open_ : before.tracker.poisoned = false ∧ before.tracker.gatePoisoned = false) :
    after.tracker.poisoned = false ∧ after.tracker.gatePoisoned = false := by
  cases step with
  | acknowledge _ notice taken held =>
    obtain ⟨_, same⟩ | ⟨_, _, _, _, _, _, cleared⟩ :=
      acknowledge_cases before.tracker notice
    · simp only [same, open_, and_self]
    · simp only [cleared, open_, and_self]
  | snapshot | capture => exact open_
  | record | fence | panic => cases call

theorem healthy_kept (step : IngressStep s event t) (healthy : Healthy s) : Healthy t := by
  cases step with
  | acted task publication action next ingress running ran =>
    obtain ⟨_, same⟩ | ⟨message, reason, _, same⟩ := (act_section ran).gaps
    · simp only [Healthy, same]
      exact healthy
    · simp only [Healthy, same]
      exact (record_healthy healthy).2
  | received ingress step =>
    simp only [Healthy, (ReceiverStep.gaps step).1]
    exact healthy
  | gap entry gaps step call => exact received_healthy step call healthy
  | began | gated | returned | stopped | fenced | elsewhere => exact healthy

theorem fresh_healthy (fresh : Fresh start identity) : Healthy start := by
  have tracker : start.ingress.messageGaps = .new identity := congrArg GapRun.tracker fresh.gaps
  simp only [Healthy, tracker, MessageGapTracker.new, and_self]

/-! ## A record and what comes after it -/

/-- A position stays among those since the gap became active until the channel is cleared. -/
theorem positionsSince_kept {channelId : Nat} {position : MessageGapPosition}
    (front back : List GapEvent) (uncleared : ∀ entry ∈ back, clearsOn channelId entry = false) :
    position ∈ positionsSince channelId
      (front ++ .recorded channelId position (.ok ()) :: back) := by
  induction back using List.reverseRecOn with
  | nil =>
    rw [positionsSince_append]
    simp only [if_true, List.mem_append, List.mem_singleton, or_true]
  | append_singleton back entry ih =>
    have before := ih fun other member => uncleared other (List.mem_append_left _ member)
    have quiet := uncleared entry (List.mem_append_right _ (List.mem_singleton_self entry))
    rw [← List.cons_append, ← List.append_assoc, positionsSince_append]
    split
    · next channel position' =>
      split
      · exact List.mem_append_left _ before
      · exact before
    · next notice taken =>
      simp only [clearsOn, beq_eq_false_iff_ne] at quiet
      rw [if_neg quiet]
      exact before
    · exact before

/-- From a record on: the channel's gap starts no later than the message until a notice clears it,
and neither that notice nor a fence that an action ran under was taken before the record. -/
structure Traced (message : MessageCreate) (recorded : Nat) (rest : List (IngressEvent ι))
    (s : System ι) : Prop where
  active : (∃ gap, s.gaps.active message.channelId = some gap ∧ gap.earliest ≤ message.position) ∨
    ∃ notice taken, .gap (.acknowledged notice taken (.ok .cleared)) ∈ rest ∧
      notice.snapshot.channelId = message.channelId
  notices : ∀ notice taken, .gap (.acknowledged notice taken (.ok .cleared)) ∈ rest →
    notice.snapshot.channelId = message.channelId → recorded < taken
  fences : ∀ fence taken, .gap (.fenced fence taken true) ∈ rest →
    fence.channelId = message.channelId → recorded < taken

/-- The run up to an event that a token was used in, as the tracker sees it -/
theorem gap_run_at (fresh : Fresh start identity) (run : Run IngressStep start events s)
    (front back : List (IngressEvent ι)) {entry : GapEvent}
    (split : events = front ++ .gap entry :: back) :
    ∃ before after, Run GapStep (.start identity) (gapLog front) before ∧
      GapStep before entry after := by
  subst split
  obtain ⟨before, after, left, once, _⟩ := run.split_at
  exact ⟨before.gaps, after.gaps, gap_run fresh left, gaps_move once rfl⟩

theorem recorded_traced {front rest : List (IngressEvent ι)} {task : Nat}
    {message : MessageCreate} (fresh : Fresh start identity)
    (run : Run IngressStep start (front ++ .acted task (.recorded message (.ok ())) :: rest) s) :
    Traced message (gapLog front).length rest s := by
  have log : ∀ more, gapLog (front ++ .acted task (.recorded message (.ok ())) :: more) =
      gapLog front ++ .recorded message.channelId message.position (.ok ()) :: gapLog more := by
    intro more
    simp only [gapLog, List.filterMap_append, List.filterMap_cons, eventGap, actionGap]
  -- the record stands in the log of every later time
  have since : ∀ more taken, taken ≤ (gapLog front).length →
      Since (recordsOn message.channelId) taken
        (gapLog (front ++ .acted task (.recorded message (.ok ())) :: more)) := by
    intro more taken early
    refine ⟨(gapLog front).length, .recorded message.channelId message.position (.ok ()), early,
      ?_, beq_self_eq_true _⟩
    rw [log]
    simp only [List.getElem?_append_right, Nat.le_refl, Nat.sub_self, List.getElem?_cons_zero]
  refine ⟨?_, ?_, ?_⟩
  · by_cases cleared : ∃ entry ∈ gapLog rest, clearsOn message.channelId entry = true
    · obtain ⟨entry, member, clears⟩ := cleared
      obtain ⟨event, member, left⟩ := List.mem_filterMap.1 member
      refine Or.inr ?_
      cases event with
      | gap entry' =>
        cases left
        cases entry with
        | acknowledged notice taken answer =>
          cases answer with
          | ok outcome =>
            cases outcome with
            | cleared => exact ⟨notice, taken, member, beq_iff_eq.1 clears⟩
            | stale => cases clears
          | foreignTracker | revisionExhausted | advanced | statePoisoned | panicked =>
            cases clears
        | recorded | snapshotTaken | captured | fenced | panicked => cases clears
      | acted task action =>
        cases action with
        | recorded message answer =>
          cases left
          cases clears
        | read | numbered | sent | refused | counted | dropped => cases left
      | began | returned | stopped | surrounded => cases left
    · have quiet : ∀ entry ∈ gapLog rest, clearsOn message.channelId entry = false := by
        intro entry member
        cases clears : clearsOn message.channelId entry with
        | false => rfl
        | true => exact absurd ⟨entry, member, clears⟩ cleared
      have tracked := gap_run fresh run
      have earliest := (run_invariant tracked).earliest message.channelId
      have entries : s.gaps.log = _ := run_log tracked
      rw [entries, log, GapRun.start, List.nil_append] at earliest
      have position : message.position ∈ _ := positionsSince_kept (gapLog front) (gapLog rest) quiet
      refine Or.inl ?_
      cases active : s.gaps.active message.channelId with
      | none =>
        rw [active] at earliest
        rw [earliest] at position
        cases position
      | some gap =>
        rw [active] at earliest
        exact ⟨gap, rfl, earliest.2 _ position⟩
  · intro notice taken member channel
    obtain ⟨more, back, rfl⟩ := List.append_of_mem member
    obtain ⟨_, _, tracked, step⟩ := gap_run_at fresh run (front ++ _ :: more) back
      (List.append_assoc front (_ :: more) _).symm
    by_contra early
    have current := ((gap_tokens_current tracked).2.1 notice taken _ step).1
    rw [channel] at current
    exact current (since more taken (Nat.le_of_not_lt early))
  · intro fence taken member channel
    obtain ⟨more, back, rfl⟩ := List.append_of_mem member
    obtain ⟨_, _, tracked, step⟩ := gap_run_at fresh run (front ++ _ :: more) back
      (List.append_assoc front (_ :: more) _).symm
    by_contra early
    have current := (gap_tokens_current tracked).1 fence taken _ step
    rw [channel] at current
    exact current (since more taken (Nat.le_of_not_lt early))

end

end CodexRemote.Verified.GatewayIngress

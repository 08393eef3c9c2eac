import CodexRemote.AppServer.TargetGate
import CodexRemote.Foundations.Runs

/-! # Gaps and proofs that race

Marks, holds, reads of the epoch and clears in any order.  The counter only grows, and every gap
makes it grow or finds it at its maximum, so that an epoch is current again only where nothing has
happened since it was read.
-/

namespace CodexRemote.Verified.ObservationLatch

open Foundations AppServer

/-! ## The latch by itself -/

inductive LatchEvent where
  | marked
  | held
  | read (epoch : Nat)
  | cleared (epoch : Nat) (done : Bool)

inductive LatchStep : ObservationLatch → LatchEvent → ObservationLatch → Prop where
  | marked (latch : ObservationLatch) : LatchStep latch .marked latch.markGap
  | held (latch : ObservationLatch) : LatchStep latch .held latch.holdUnattributedGap
  | read (latch : ObservationLatch) : LatchStep latch (.read latch.gapEpoch) latch
  | cleared (latch : ObservationLatch) (epoch : Nat) :
      LatchStep latch (.cleared epoch (latch.clearGap epoch).1) (latch.clearGap epoch).2

/-- The event is a gap. -/
def Unseen (event : LatchEvent) : Prop := event = .marked ∨ event = .held

variable {s t u : ObservationLatch} {event : LatchEvent} {events : List LatchEvent} {epoch : Nat}

theorem clearGap_cases (latch : ObservationLatch) (epoch : Nat) :
    (latch.clearGap epoch).2 = latch ∨
      (latch.observationGap = epoch ∧ epoch % 2 = 1 ∧ (latch.clearGap epoch).1 = true ∧
        (latch.clearGap epoch).2.observationGap = epoch + 1) := by
  rw [ObservationLatch.clearGap]
  by_cases top : epoch = u64Max
  · rw [dif_pos top]
    exact .inl rfl
  · rw [dif_neg top]
    by_cases even : epoch % 2 = 0
    · rw [if_pos even]
      exact .inl rfl
    · rw [if_neg even]
      by_cases same : latch.observationGap = epoch
      · rw [dif_pos same]
        exact .inr ⟨same, by omega, rfl, rfl⟩
      · rw [dif_neg same]
        exact .inl rfl

/-- An epoch that is cleared is the current one, and not the last one. -/
theorem clearGap_true {latch : ObservationLatch} (done : (latch.clearGap epoch).1 = true) :
    latch.observationGap = epoch ∧ epoch ≠ u64Max := by
  rw [ObservationLatch.clearGap] at done
  by_cases top : epoch = u64Max
  · rw [dif_pos top] at done
    cases done
  · rw [dif_neg top] at done
    by_cases even : epoch % 2 = 0
    · rw [if_pos even, decide_eq_true_eq] at done
      exact ⟨done, top⟩
    · rw [if_neg even] at done
      by_cases same : latch.observationGap = epoch
      · exact ⟨same, top⟩
      · rw [dif_neg same] at done
        cases done

theorem markGap_odd (latch : ObservationLatch) : latch.markGap.observationGap % 2 = 1 := by
  have top : u64Max % 2 = 1 := by decide
  rw [ObservationLatch.markGap]
  dsimp only
  omega

theorem verified_iff : t.observationsVerified = true ↔ t.observationGap % 2 = 0 := by
  rw [ObservationLatch.observationsVerified, decide_eq_true_eq, ObservationLatch.gapEpoch]

/-! ## What a step does to the counter -/

theorem LatchStep.grows (step : LatchStep s event t) : s.observationGap ≤ t.observationGap := by
  have bounded := s.bounded
  cases step with
  | marked =>
    rw [ObservationLatch.markGap]
    dsimp only
    omega
  | held => exact s.bounded
  | read => exact Nat.le_refl _
  | cleared epoch =>
    obtain same | ⟨now, -, -, next⟩ := clearGap_cases s epoch
    · rw [same]
    · omega

/-- A gap moves the counter unless it is at its end. -/
theorem LatchStep.unseen (step : LatchStep s event t) (unseen : Unseen event) :
    s.observationGap < t.observationGap ∨ t.observationGap = u64Max := by
  have bounded := s.bounded
  cases step with
  | marked =>
    rw [ObservationLatch.markGap]
    dsimp only
    omega
  | held => exact .inr rfl
  | read => obtain other | other := unseen <;> cases other
  | cleared epoch => obtain other | other := unseen <;> cases other

/-- Only a clear of the current epoch makes an odd counter even. -/
theorem LatchStep.verifies (step : LatchStep s event t) (open_ : s.observationGap % 2 = 1)
    (verified : t.observationGap % 2 = 0) : event = .cleared s.observationGap true := by
  cases step with
  | marked =>
    have odd := markGap_odd s
    omega
  | held =>
    have top : u64Max % 2 = 0 := verified
    cases top
  | read => omega
  | cleared epoch =>
    obtain same | ⟨now, -, done, -⟩ := clearGap_cases s epoch
    · rw [same] at verified
      omega
    · rw [done, now]

theorem LatchStep.done (step : LatchStep s (.cleared epoch true) t) :
    s.observationGap = epoch ∧ epoch ≠ u64Max := by
  generalize same : LatchEvent.cleared epoch true = event at step
  cases step with
  | marked => cases same
  | held => cases same
  | read => cases same
  | cleared e =>
    obtain ⟨rfl, done⟩ := LatchEvent.cleared.inj same
    exact clearGap_true done.symm

theorem LatchStep.seen (step : LatchStep s (.read epoch) t) :
    t.observationGap = s.observationGap ∧ s.observationGap = epoch := by
  cases step
  exact ⟨rfl, rfl⟩

/-! ## Runs of the latch -/

theorem run_grows (run : Run LatchStep s events t) : s.observationGap ≤ t.observationGap :=
  run.preserves (fun latch => s.observationGap ≤ latch.observationGap)
    (fun _ _ _ step here => Nat.le_trans here step.grows) (Nat.le_refl _)

theorem run_unseen (run : Run LatchStep s events t) (member : event ∈ events)
    (unseen : Unseen event) : s.observationGap < t.observationGap ∨ t.observationGap = u64Max := by
  obtain ⟨front, back, rfl⟩ := List.append_of_mem member
  obtain ⟨before, after, left, step, right⟩ := run.split_at
  have grown := run_grows left
  have grows := run_grows right
  have bounded := t.bounded
  have moved := step.unseen unseen
  omega

/-- At its end the counter stays. -/
theorem run_saturated (run : Run LatchStep s events t) (top : s.observationGap = u64Max) :
    t.observationGap = u64Max :=
  Nat.le_antisymm t.bounded (top ▸ run_grows run)

/-- An epoch that is cleared was read after every gap. -/
theorem cleared_seen {past between rest : List LatchEvent}
    (run : Run LatchStep s (past ++ .read epoch :: (between ++ .cleared epoch true :: rest)) t) :
    ∀ event ∈ between, ¬ Unseen event := by
  obtain ⟨_, v, -, first, later⟩ := run.split_at
  obtain ⟨w, _, apart, clear, -⟩ := later.split_at
  have here := first.seen
  obtain ⟨now, last⟩ := clear.done
  intro event member unseen
  have moved := run_unseen apart member unseen
  omega

/-- Every epoch that is cleared was read before. -/
def EpochsRead (events : List LatchEvent) : Prop :=
  ∀ past epoch done rest, events = past ++ .cleared epoch done :: rest → .read epoch ∈ past

/-- After a gap was marked nothing is verified before an epoch is cleared that was read since. -/
theorem marked_open {past rest : List LatchEvent}
    (run : Run LatchStep s (past ++ .marked :: rest) t)
    (disciplined : EpochsRead (past ++ .marked :: rest)) (verified : t.observationsVerified = true) :
    ∃ epoch before between after,
      rest = before ++ .read epoch :: (between ++ .cleared epoch true :: after) := by
  obtain ⟨v, w, front, mark, later⟩ := run.split_at
  have odd : w.observationGap % 2 = 1 := by
    cases mark
    exact markGap_odd v
  obtain ⟨before, event, after, x, y, rfl, until_, clear, still, lost, -⟩ :=
    later.loses (fun latch => latch.observationGap % 2 = 1) odd
      (by rw [verified_iff] at verified; omega)
  obtain rfl := clear.verifies still (by omega)
  have current := clear.done.2
  have known := disciplined (past ++ .marked :: before) x.observationGap true after
    (by rw [List.append_assoc, List.cons_append])
  obtain old | new := List.mem_append.1 known
  · -- the counter has left behind every value that was read before the mark
    obtain ⟨early, late, rfl⟩ := List.append_of_mem old
    obtain ⟨a, b, -, first, onward⟩ := front.split_at
    have here := first.seen
    have grown := run_grows onward
    have moved := mark.unseen (.inl rfl)
    have grows := run_grows until_
    have bounded := x.bounded
    omega
  · obtain other | member := List.mem_cons.1 new
    · cases other
    · obtain ⟨early, between, rfl⟩ := List.append_of_mem member
      exact ⟨x.observationGap, early, between, after, by
        rw [List.append_assoc, List.cons_append]⟩

theorem held_for_ever (run : Run LatchStep s events t)
    (held : .held ∈ events ∨ s.observationGap = u64Max) : t.observationsVerified = false := by
  have top : t.observationGap = u64Max := by
    obtain member | top := held
    · obtain ⟨front, back, rfl⟩ := List.append_of_mem member
      obtain ⟨_, v, -, hold, later⟩ := run.split_at
      exact run_saturated later (by cases hold; rfl)
    · exact run_saturated run top
  rw [ObservationLatch.observationsVerified, ObservationLatch.gapEpoch, top]
  decide

/-! ## The latch under calls that reconcile the prefix -/

structure Gate where
  latch : ObservationLatch
  calls : Nat → ReconcileCall

inductive GateEvent where
  | marked
  | held
  | advanced (call : Nat) (before after : ReconcileCall)

inductive GateStep : Gate → GateEvent → Gate → Prop where
  | marked (gate : Gate) : GateStep gate .marked { gate with latch := gate.latch.markGap }
  | held (gate : Gate) : GateStep gate .held { gate with latch := gate.latch.holdUnattributedGap }
  | advanced {gate : Gate} {after : ReconcileCall} {latch : ObservationLatch} (call : Nat)
      (scopeVerified : Option (Except String Bool)) (certified : Except String Bool)
      (moved : (gate.calls call).advance scopeVerified certified gate.latch = (after, latch)) :
      GateStep gate (.advanced call (gate.calls call) after)
        ⟨latch, Function.update gate.calls call after⟩

/-- What the latch sees of an event -/
def GateEvent.latch : GateEvent → Option LatchEvent
  | .marked => some .marked
  | .held => some .held
  | .advanced _ .reading (.asking epoch) => some (.read epoch)
  | .advanced _ (.clearing epoch) (.returned (.ok done)) => some (.cleared epoch done)
  | .advanced _ _ _ => none

section Calls

variable {g h : Gate} {log : List GateEvent}

/-- A part of a call: it reads the epoch, clears it or leaves the latch alone. -/
theorem advance_cases {scopeVerified : Option (Except String Bool)}
    {certified : Except String Bool} {latch moved : ObservationLatch} {before after : ReconcileCall}
    (advanced : before.advance scopeVerified certified latch = (after, moved)) :
    (before = .reading ∧ after = .asking latch.gapEpoch ∧ moved = latch) ∨
      (∃ epoch, before = .asking epoch ∧ moved = latch ∧
        (after = .certifying epoch ∨ after ≠ .returned (.ok true) ∧ ∃ r, after = .returned r)) ∨
      (∃ epoch, before = .certifying epoch ∧ moved = latch ∧
        (after = .clearing epoch ∨ after ≠ .returned (.ok true) ∧ ∃ r, after = .returned r)) ∨
      (∃ epoch, before = .clearing epoch ∧ after = .returned (.ok (latch.clearGap epoch).1) ∧
        moved = (latch.clearGap epoch).2) ∨
      (∃ result, before = .returned result ∧ after = before ∧ moved = latch) := by
  cases before with
  | reading =>
    obtain ⟨rfl, rfl⟩ := Prod.mk.inj advanced
    exact .inl ⟨rfl, rfl, rfl⟩
  | asking epoch =>
    refine .inr (.inl ⟨epoch, rfl, ?_⟩)
    obtain _ | _ | _ | _ := scopeVerified <;> obtain ⟨rfl, rfl⟩ := Prod.mk.inj advanced <;> simp
  | certifying epoch =>
    refine .inr (.inr (.inl ⟨epoch, rfl, ?_⟩))
    obtain _ | _ | _ := certified <;> obtain ⟨rfl, rfl⟩ := Prod.mk.inj advanced <;> simp
  | clearing epoch =>
    obtain ⟨rfl, rfl⟩ := Prod.mk.inj advanced
    exact .inr (.inr (.inr (.inl ⟨epoch, rfl, rfl, rfl⟩)))
  | returned result =>
    obtain ⟨rfl, rfl⟩ := Prod.mk.inj advanced
    exact .inr (.inr (.inr (.inr ⟨result, rfl, rfl, rfl⟩)))

theorem GateStep.latched {event : GateEvent} {seen : LatchEvent} (step : GateStep g event h)
    (label : event.latch = some seen) : LatchStep g.latch seen h.latch := by
  cases step with
  | marked =>
    cases label
    exact .marked _
  | held =>
    cases label
    exact .held _
  | advanced call scopeVerified certified moved =>
    obtain ⟨before, rfl, rfl⟩ | ⟨epoch, before, rfl, rfl | ⟨-, r, rfl⟩⟩ |
      ⟨epoch, before, rfl, rfl | ⟨-, r, rfl⟩⟩ | ⟨epoch, before, rfl, rfl⟩ |
      ⟨result, before, rfl, rfl⟩ := advance_cases moved <;> rw [before] at label <;> cases label
    · exact .read _
    · exact .cleared _ _

theorem GateStep.unlatched {event : GateEvent} (step : GateStep g event h)
    (label : event.latch = none) : h.latch = g.latch := by
  cases step with
  | marked => cases label
  | held => cases label
  | advanced call scopeVerified certified moved =>
    obtain ⟨before, rfl, rfl⟩ | ⟨epoch, before, rfl, -⟩ | ⟨epoch, before, rfl, -⟩ |
      ⟨epoch, before, rfl, rfl⟩ | ⟨result, before, rfl, rfl⟩ := advance_cases moved
    · rfl
    · rfl
    · rfl
    · rw [before] at label
      cases label
    · rfl

theorem run_latched (run : Run GateStep g log h) :
    Run LatchStep g.latch (log.filterMap GateEvent.latch) h.latch :=
  run.project Gate.latch GateEvent.latch (fun _ _ _ step => step.unlatched)
    (fun _ _ _ _ step => step.latched)

/-- How far a call has got: an epoch that is certified or cleared was read before its scope was
verified. -/
def Progress (call : Nat) (past : List GateEvent) : ReconcileCall → Prop
  | .reading => True
  | .asking epoch => ∃ front back, past = front ++ .advanced call .reading (.asking epoch) :: back
  | .certifying epoch | .clearing epoch => ∃ front back,
      past = front ++ .advanced call .reading (.asking epoch) :: back ∧
        .advanced call (.asking epoch) (.certifying epoch) ∈ back
  | .returned (.ok true) => ∃ epoch front between rest,
      past = front ++ .advanced call .reading (.asking epoch) ::
        (between ++ .advanced call (.clearing epoch) (.returned (.ok true)) :: rest) ∧
        .advanced call (.asking epoch) (.certifying epoch) ∈ between
  | .returned _ => True

theorem Progress.later {call : Nat} {past more : List GateEvent} {phase : ReconcileCall}
    (known : Progress call past phase) : Progress call (past ++ more) phase := by
  cases phase with
  | reading => exact known
  | asking epoch =>
    obtain ⟨front, back, rfl⟩ := known
    exact ⟨front, back ++ more, by rw [List.append_assoc, List.cons_append]⟩
  | certifying epoch =>
    obtain ⟨front, back, rfl, member⟩ := known
    exact ⟨front, back ++ more, by rw [List.append_assoc, List.cons_append],
      List.mem_append_left _ member⟩
  | clearing epoch =>
    obtain ⟨front, back, rfl, member⟩ := known
    exact ⟨front, back ++ more, by rw [List.append_assoc, List.cons_append],
      List.mem_append_left _ member⟩
  | returned result =>
    obtain _ | _ | _ := result
    · exact known
    · exact known
    · obtain ⟨epoch, front, between, rest, rfl, member⟩ := known
      exact ⟨epoch, front, between, rest ++ more, by
        rw [List.append_assoc, List.cons_append, List.append_assoc, List.cons_append], member⟩

theorem Progress.ended {call : Nat} {past : List GateEvent} {r : Except String Bool}
    (other : ReconcileCall.returned r ≠ .returned (.ok true)) : Progress call past (.returned r) := by
  obtain _ | _ | _ := r
  · trivial
  · trivial
  · exact absurd rfl other

theorem Progress.advances {call : Nat} {past : List GateEvent} {latch moved : ObservationLatch}
    {before after : ReconcileCall} {scopeVerified : Option (Except String Bool)}
    {certified : Except String Bool} (known : Progress call past before)
    (advanced : before.advance scopeVerified certified latch = (after, moved)) :
    Progress call (past ++ [.advanced call before after]) after := by
  obtain ⟨rfl, rfl, -⟩ | ⟨epoch, rfl, -, rfl | ⟨other, r, rfl⟩⟩ |
    ⟨epoch, rfl, -, rfl | ⟨other, r, rfl⟩⟩ | ⟨epoch, rfl, rfl, -⟩ | ⟨result, rfl, rfl, -⟩ :=
    advance_cases advanced
  · exact ⟨past, [], rfl⟩
  · obtain ⟨front, back, rfl⟩ := known
    exact ⟨front, back ++ [_], by rw [List.append_assoc, List.cons_append],
      List.mem_append_right _ (List.mem_singleton_self _)⟩
  · exact .ended other
  · exact known.later
  · exact .ended other
  · cases cleared : (latch.clearGap epoch).1 with
    | false => exact .ended (by simp)
    | true =>
      obtain ⟨front, back, rfl, member⟩ := known
      exact ⟨epoch, front, back, [], by rw [List.append_assoc, List.cons_append], member⟩
  · exact known.later

theorem run_progress {call : Nat} (run : Run GateStep g log h) (fresh : g.calls call = .reading) :
    Progress call log (h.calls call) :=
  run.records (fun past gate => Progress call past (gate.calls call))
    (fun past u event v _ step known => by
      cases step with
      | marked => exact known.later
      | held => exact known.later
      | advanced other scopeVerified certified moved =>
        dsimp only
        by_cases same : call = other
        · subst same
          rw [Function.update_self]
          exact known.advances moved
        · rw [Function.update_of_ne same]
          exact known.later)
    (by rw [fresh]; trivial)

end Calls

/-- The latch is cleared only with an epoch that no gap has followed; until then, and for ever
after a loss without an attribution or at the end of the counter, nothing is verified.  So a prefix
is reconciled only where no gap was marked since its epoch was read, before its scope was verified. -/
theorem no_unseen_gap_cleared :
    (∀ {s t : ObservationLatch} {events : List LatchEvent}, Run LatchStep s events t →
      (∀ past between rest epoch,
        events = past ++ .read epoch :: (between ++ .cleared epoch true :: rest) →
        .marked ∉ between ∧ .held ∉ between) ∧
      (EpochsRead events → ∀ past rest, events = past ++ .marked :: rest →
        t.observationsVerified = true → ∃ epoch before between after,
          rest = before ++ .read epoch :: (between ++ .cleared epoch true :: after)) ∧
      (.held ∈ events ∨ s.observationGap = u64Max → t.observationsVerified = false)) ∧
    ∀ {g h : Gate} {log : List GateEvent} (call : Nat), Run GateStep g log h →
      g.calls call = .reading → h.calls call = .returned (.ok true) →
      ∃ epoch front between rest,
        log = front ++ .advanced call .reading (.asking epoch) ::
          (between ++ .advanced call (.clearing epoch) (.returned (.ok true)) :: rest) ∧
        .advanced call (.asking epoch) (.certifying epoch) ∈ between ∧
        .marked ∉ between ∧ .held ∉ between := by
  refine ⟨fun run => ⟨?_, ?_, held_for_ever run⟩, fun call run fresh returned => ?_⟩
  · rintro past between rest epoch rfl
    have seen := cleared_seen run
    exact ⟨fun member => seen _ member (.inl rfl), fun member => seen _ member (.inr rfl)⟩
  · rintro disciplined past rest rfl verified
    exact marked_open run disciplined verified
  · have known := run_progress run fresh
    rw [returned] at known
    obtain ⟨epoch, front, between, rest, rfl, member⟩ := known
    have latched := run_latched run
    simp only [List.filterMap_append, List.filterMap_cons, GateEvent.latch] at latched
    have seen := cleared_seen latched
    exact ⟨epoch, front, between, rest, rfl, member,
      fun marked => seen _ (List.mem_filterMap.2 ⟨_, marked, rfl⟩) (.inl rfl),
      fun held => seen _ (List.mem_filterMap.2 ⟨_, held, rfl⟩) (.inr rfl)⟩

/-- A gap is marked, and the prefix is reconciled after it. -/
theorem marked_prefix_reconciled :
    ∃ epoch front between rest,
      [GateEvent.marked, .advanced 0 .reading (.asking 1), .advanced 0 (.asking 1) (.certifying 1),
        .advanced 0 (.certifying 1) (.clearing 1),
        .advanced 0 (.clearing 1) (.returned (.ok true))] =
      front ++ .advanced 0 .reading (.asking epoch) ::
        (between ++ .advanced 0 (.clearing epoch) (.returned (.ok true)) :: rest) ∧
      .advanced 0 (.asking epoch) (.certifying epoch) ∈ between ∧
      .marked ∉ between ∧ .held ∉ between := by
  have reconciled : Run GateStep ⟨.default, fun _ => .reading⟩ _ _ :=
    .cons (.marked _) (.cons (.advanced 0 none (.ok false) rfl)
      (.cons (.advanced 0 (some (.ok true)) (.ok false) rfl)
        (.cons (.advanced 0 none (.ok true) rfl) (.single (.advanced 0 none (.ok false) rfl)))))
  exact no_unseen_gap_cleared.2 0 reconciled rfl rfl

end CodexRemote.Verified.ObservationLatch

import CodexRemote.Foundations.Chains
import CodexRemote.Store.Queue.Enqueue

/-! # Where a forked thread went

A thread that was forked stands for the target of its handoff, which may have been forked in turn.
-/

namespace CodexRemote.Verified.ForkHandoff

open Foundations Store

variable {ρ : Type} {db : QueueDb ρ} {source : String}

/-- The thread that a finished handoff leads to, unless threads are routed as they are named -/
def hop (db : QueueDb ρ) (thread : String) : Option String :=
  if db.exactRouting then none else completedTargetForSource db thread

/-- What the handoffs that start at a thread say of it -/
inductive Resolved (db : QueueDb ρ) (source : String) : Except StoreError String → Prop where
  | ended {n : Nat} {last : String} (there : chainAt (hop db) source n = some last)
      (last_ : hop db last = none)
      (free : ∀ m ≤ n, ∀ t, chainAt (hop db) source m = some t → targetIsHeld db t = false) :
      Resolved db source (.ok last)
  | held {n : Nat} {thread : String} (there : chainAt (hop db) source n = some thread)
      (stops : targetIsHeld db thread = true)
      (free : ∀ m < n, ∀ t, chainAt (hop db) source m = some t → targetIsHeld db t = false) :
      Resolved db source (.error (.deadGenerationTargetHeld thread))
  | cycle (endless : ∀ n, ∃ t, chainAt (hop db) source n = some t ∧ targetIsHeld db t = false) :
      Resolved db source (.error (.forkHandoffCycle source))

theorem hop_source {thread : String} (moved : (hop db thread).isSome) :
    thread ∈ db.handoffs.rows.map (·.sourceThreadId) := by
  rw [hop] at moved
  split at moved
  · cases moved
  · cases found : handoffBySource db thread with
    | none =>
      rw [completedTargetForSource, found] at moved
      cases moved
    | some handoff =>
      have own := List.find?_some found
      exact List.mem_map.2 ⟨handoff, List.mem_of_find?_eq_some found, by simpa using own⟩

/-- The loop never runs out: each pass adds another source of a handoff to what it has visited. -/
theorem followCompleted_resolved {fuel : Nat} {visited : List String} {current : String}
    (routed : db.exactRouting = false) (passed : Passed (hop db) source visited)
    (here : chainAt (hop db) source visited.length = some current)
    (clear : ∀ t ∈ visited, targetIsHeld db t = false)
    (enough : visited.length + fuel = db.handoffs.rows.length + 1) :
    Resolved db source (followCompleted db source fuel visited current) := by
  induction fuel generalizing visited current with
  | zero =>
    have fits := passed.length_le (by rw [here]; rfl) fun _ moved => hop_source moved
    rw [List.length_map] at fits
    omega
  | succ fuel ih =>
    have before : ∀ m < visited.length, ∀ t, chainAt (hop db) source m = some t →
        targetIsHeld db t = false :=
      fun m below t reached => clear t ((passed.chain t).2 ⟨m, below, reached⟩)
    rw [followCompleted]
    by_cases again : visited.contains current = true
    · rw [if_pos again]
      -- the round that is closed here holds all that is ever reached, and none of it stops
      obtain ⟨m, low, there⟩ := (passed.chain current).1 (List.contains_iff_mem.1 again)
      refine .cycle fun n => ?_
      obtain ⟨k, below, same⟩ := chainAt_cycle low there here n
      have reached := chainAt_isSome_of_le (Nat.le_of_lt below) (by rw [here]; rfl)
      obtain ⟨t, reached⟩ := Option.isSome_iff_exists.1 reached
      exact ⟨t, same.trans reached, before k below t reached⟩
    · rw [if_neg again]
      cases stops : targetIsHeld db current with
      | true =>
        rw [ensureTargetAvailable, if_pos stops]
        exact .held here stops before
      | false =>
        rw [ensureTargetAvailable, if_neg (by simp [stops])]
        have free : ∀ m ≤ visited.length, ∀ t, chainAt (hop db) source m = some t →
            targetIsHeld db t = false := by
          intro m most t reached
          obtain below | rfl := Nat.lt_or_eq_of_le most
          · exact before m below t reached
          · rw [← Option.some.inj (here.symm.trans reached)]
            exact stops
        have hops : hop db current = completedTargetForSource db current := by
          rw [hop, routed]
          rfl
        dsimp only [bind, Except.bind]
        cases onward : completedTargetForSource db current with
        | none => exact .ended here (hops.trans onward) free
        | some target =>
          refine ih (passed.cons here fun there => again (List.contains_iff_mem.2 there))
            ?_ ?_ ?_
          · show (chainAt (hop db) source visited.length).bind (hop db) = some target
            rw [here]
            exact hops.trans onward
          · intro t there
            obtain rfl | older := List.mem_cons.1 there
            · exact stops
            · exact clear t older
          · rw [List.length_cons]
            omega

/-- A thread is resolved to the end of its finished handoffs.  It is refused at the first thread on
the way that is held, and as a cycle exactly when the handoffs lead on for ever. -/
theorem canonical_target_resolved (db : QueueDb ρ) (source : String) :
    Resolved db source (canonicalCompletedTarget db source) := by
  rw [canonicalCompletedTarget]
  cases routed : db.exactRouting with
  | false =>
    exact followCompleted_resolved routed (.nil _ _) rfl (List.forall_mem_nil _) (by simp)
  | true =>
    have stays : hop db source = none := by
      rw [hop, routed]
      rfl
    rw [if_pos rfl]
    cases stops : targetIsHeld db source with
    | true =>
      rw [ensureTargetAvailable, if_pos stops]
      exact @Resolved.held _ _ _ 0 source rfl stops nofun
    | false =>
      rw [ensureTargetAvailable, if_neg (by simp [stops])]
      refine @Resolved.ended _ _ _ 0 source rfl stays fun m most t reached => ?_
      obtain rfl := Nat.le_zero.1 most
      rw [← Option.some.inj reached]
      exact stops

end CodexRemote.Verified.ForkHandoff

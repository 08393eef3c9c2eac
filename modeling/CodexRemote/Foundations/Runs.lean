import Mathlib.Data.List.Basic
import Mathlib.Data.List.Induction

/-! # Runs of a labelled transition system

A run is a finite sequence of labelled steps.  The rules below are the three
shapes of argument a safety proof over runs needs: a predicate kept by every
step, a relation between the two ends of a run, and a credit that pays for the
steps of one kind with the steps of another.
-/

namespace CodexRemote.Foundations

universe u v

variable {σ : Type u} {ε : Type v}

/-- The states a step relation can reach, with the labels of the steps taken. -/
inductive Run (step : σ → ε → σ → Prop) : σ → List ε → σ → Prop where
  | nil (s : σ) : Run step s [] s
  | cons {s next t : σ} {e : ε} {events : List ε} (first : step s e next)
      (rest : Run step next events t) : Run step s (e :: events) t

namespace Run

variable {step : σ → ε → σ → Prop} {s t u : σ} {e : ε} {events front back : List ε}

theorem single (once : step s e t) : Run step s [e] t := .cons once (.nil t)

theorem append (left : Run step s front t) (right : Run step t back u) :
    Run step s (front ++ back) u := by
  induction left with
  | nil _ => exact right
  | cons first _ ih => exact .cons first (ih right)

theorem append_inv (run : Run step s (front ++ back) u) :
    ∃ t, Run step s front t ∧ Run step t back u := by
  induction front generalizing s with
  | nil => exact ⟨s, .nil s, run⟩
  | cons e front ih =>
    cases run with
    | cons first rest =>
      obtain ⟨t, left, right⟩ := ih rest
      exact ⟨t, .cons first left, right⟩

theorem cons_inv (run : Run step s (e :: events) u) :
    ∃ t, step s e t ∧ Run step t events u := by
  cases run with
  | cons first rest => exact ⟨_, first, rest⟩

/-- A run that passes a labelled step splits there. -/
theorem split_at (run : Run step s (front ++ e :: back) u) :
    ∃ before after, Run step s front before ∧ step before e after ∧ Run step after back u := by
  obtain ⟨before, left, rest⟩ := run.append_inv
  obtain ⟨after, once, right⟩ := rest.cons_inv
  exact ⟨before, after, left, once, right⟩

/-- Induction rule: what every step keeps, every run keeps. -/
theorem preserves (run : Run step s events t) (invariant : σ → Prop)
    (keeps : ∀ s e t, step s e t → invariant s → invariant t) (start : invariant s) :
    invariant t := by
  induction run with
  | nil _ => exact start
  | cons first _ ih => exact ih (keeps _ _ _ first start)

/-- What held at the start of a run and does not hold at its end was lost in one of its steps. -/
theorem loses (run : Run step s events t) (held : σ → Prop) (start : held s) (gone : ¬held t) :
    ∃ front e back u v, events = front ++ e :: back ∧ Run step s front u ∧ step u e v ∧
      held u ∧ ¬held v ∧ Run step v back t := by
  induction run with
  | nil _ => exact absurd start gone
  | @cons s next t e events first rest ih =>
    by_cases still : held next
    · obtain ⟨front, e', back, u, v, rfl, before, once, here, lost, after⟩ := ih still gone
      exact ⟨e :: front, e', back, u, v, rfl, .cons first before, once, here, lost, after⟩
    · exact ⟨[], e, events, s, next, rfl, .nil s, first, start, still, rest⟩

/-- Induction rule for what a run records: a relation between the labels so far and the
state they led to. -/
theorem records (run : Run step s events t) (known : List ε → σ → Prop)
    (keeps : ∀ past u e v, Run step s past u → step u e v → known past u → known (past ++ [e]) v)
    (start : known [] s) : known events t := by
  induction events using List.reverseRecOn generalizing t with
  | nil =>
    cases run
    exact start
  | append_singleton past e ih =>
    obtain ⟨u, left, right⟩ := run.append_inv
    obtain ⟨v, last, done⟩ := right.cons_inv
    cases done
    exact keeps past u e _ left last (ih left)

/-- Induction rule for steps whose labels meet a condition. -/
theorem preserves_of (run : Run step s events t) (invariant : σ → Prop) (allowed : ε → Prop)
    (keeps : ∀ s e t, allowed e → step s e t → invariant s → invariant t)
    (all : ∀ e ∈ events, allowed e) (start : invariant s) : invariant t := by
  induction run with
  | nil _ => exact start
  | cons first _ ih =>
    refine ih (fun e member => all e (List.mem_cons_of_mem _ member)) ?_
    exact keeps _ _ _ (all _ (List.mem_cons_self ..)) first start

/-- A run from where an invariant holds is a run of steps from where it holds. -/
theorem guarded (run : Run step s events t) (invariant : σ → Prop)
    (keeps : ∀ s e t, step s e t → invariant s → invariant t) (start : invariant s) :
    Run (fun s e t => invariant s ∧ step s e t) s events t := by
  induction run with
  | nil s => exact .nil s
  | cons first _ ih => exact .cons ⟨start, first⟩ (ih (keeps _ _ _ first start))

/-- Refinement rule: where a view of the state moves as another system does, or stays, at every
step, a run is seen as a run of that system. -/
theorem project {τ : Type*} {δ : Type*} {seen : τ → δ → τ → Prop} (run : Run step s events t)
    (view : σ → τ) (label : ε → Option δ)
    (stays : ∀ s e t, step s e t → label e = none → view t = view s)
    (moves : ∀ s e t d, step s e t → label e = some d → seen (view s) d (view t)) :
    Run seen (view s) (events.filterMap label) (view t) := by
  induction run with
  | nil s => exact .nil _
  | @cons _ _ _ e _ first _ ih =>
    cases labelled : label e with
    | none => rwa [List.filterMap_cons_none labelled, ← stays _ _ _ first labelled]
    | some d =>
      rw [List.filterMap_cons_some labelled]
      exact .cons (moves _ _ _ _ first labelled) ih

/-- A predicate on labels that holds of every step, where an invariant holds,
holds of every label of a run. -/
theorem labels (run : Run step s events t) (invariant : σ → Prop) (good : ε → Prop)
    (keeps : ∀ s e t, step s e t → invariant s → invariant t)
    (each : ∀ s e t, step s e t → invariant s → good e) (start : invariant s) :
    ∀ e ∈ events, good e := by
  induction run with
  | nil _ => intro e member; cases member
  | cons first _ ih =>
    intro e member
    cases member with
    | head => exact each _ _ _ first start
    | tail _ later => exact ih (keeps _ _ _ first start) e later

/-- Credit rule: if each step spends at most the credit it finds plus what it
earns, a run does not spend more than the credit it starts with plus its earnings. -/
theorem spends_le (run : Run step s events t) (credit : σ → Nat) (spends earns : ε → Bool)
    (pays : ∀ s e t, step s e t →
      (spends e).toNat + credit t ≤ credit s + (earns e).toNat) :
    events.countP spends + credit t ≤ credit s + events.countP earns := by
  induction run with
  | nil _ => simp
  | @cons s next t e events first _ ih =>
    have now := pays _ _ _ first
    simp only [List.countP_cons]
    cases hs : spends e <;> cases he : earns e <;>
      simp only [hs, he, Bool.toNat_true, Bool.toNat_false, if_true, if_false,
        Bool.false_eq_true] at now ⊢ <;> omega

end Run

end CodexRemote.Foundations

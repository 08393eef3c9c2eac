import Mathlib.Data.List.Basic

/-! # Transactions

The body of a transaction works on a copy of the state.  An error drops the
copy; an answer that the caller does not commit drops it as well.  What is not a transaction
is undone from a log.
-/

namespace CodexRemote.Foundations

universe u v w

variable {σ : Type u} {α : Type u} {ε : Type v}

/-- Run a body and commit its state when it succeeds with an answer to keep. -/
def commitWhen (keep : α → Bool) (body : σ → Except ε (α × σ)) (s : σ) : Except ε α × σ :=
  match body s with
  | .error e => (.error e, s)
  | .ok (a, t) => (.ok a, if keep a then t else s)

/-- Commit every successful answer. -/
def commit (body : σ → Except ε (α × σ)) (s : σ) : Except ε α × σ := commitWhen (fun _ => true) body s

theorem commitWhen_cases (keep : α → Bool) (body : σ → Except ε (α × σ)) (s : σ) :
    (commitWhen keep body s).2 = s ∨
      ∃ a t, body s = .ok (a, t) ∧ keep a ∧ commitWhen keep body s = (.ok a, t) := by
  unfold commitWhen
  cases result : body s with
  | error e => exact Or.inl rfl
  | ok answer =>
    obtain ⟨a, t⟩ := answer
    cases kept : keep a with
    | false => exact Or.inl (by simp [kept])
    | true => exact Or.inr ⟨a, t, rfl, kept, by simp [kept]⟩

variable {body : σ → Except ε (α × σ)} {s t : σ} {e : ε} {β : Type u}

/-- An answer comes from a successful body, whose state is the committed one when kept. -/
theorem commitWhen_ok {keep : α → Bool} {a : α} (result : commitWhen keep body s = (.ok a, t)) :
    ∃ next, body s = .ok (a, next) ∧ t = if keep a then next else s := by
  unfold commitWhen at result
  cases outcome : body s with
  | error e => simp [outcome] at result
  | ok answer =>
    obtain ⟨b, next⟩ := answer
    simp only [outcome, Prod.mk.injEq, Except.ok.injEq] at result
    obtain ⟨rfl, rfl⟩ := result
    exact ⟨next, rfl, rfl⟩

theorem commitWhen_error {keep : α → Bool}
    (result : commitWhen keep body s = (.error e, t)) : t = s := by
  unfold commitWhen at result
  cases outcome : body s with
  | error e' =>
    simp only [outcome, Prod.mk.injEq] at result
    exact result.2.symm
  | ok answer => simp [outcome] at result

theorem commit_ok {a : α} (result : commit body s = (.ok a, t)) : body s = .ok (a, t) := by
  obtain ⟨next, outcome, same⟩ := commitWhen_ok result
  simpa [same] using outcome

theorem commit_error (result : commit body s = (.error e, t)) : t = s := commitWhen_error result

theorem commit_refused (result : (commit body s).1 = .error e) : body s = .error e := by
  unfold commit commitWhen at result
  cases outcome : body s with
  | error e' =>
    rw [outcome] at result
    cases result
    rfl
  | ok done =>
    rw [outcome] at result
    cases result

/-! ## Inverting a body -/

theorem bind_ok {γ : Type u} {x : Except ε β} {f : β → Except ε γ} {c : γ} :
    (x >>= f) = .ok c ↔ ∃ b, x = .ok b ∧ f b = .ok c := by
  cases x with
  | error e => simp [bind, Except.bind]
  | ok b => simp [bind, Except.bind]

theorem bind_error {γ : Type u} {x : Except ε β} {f : β → Except ε γ} :
    (x >>= f) = .error e ↔ x = .error e ∨ ∃ b, x = .ok b ∧ f b = .error e := by
  cases x with
  | error e => simp [bind, Except.bind]
  | ok b => simp [bind, Except.bind]

theorem map_ok {γ : Type u} {x : Except ε β} {f : β → γ} {c : γ} :
    x.map f = .ok c ↔ ∃ b, x = .ok b ∧ f b = c := by
  cases x with
  | error e => simp [Except.map]
  | ok b => simp [Except.map]

theorem ite_ok {p : Prop} [Decidable p] {x y : Except ε β} {b : β} :
    (if p then x else y) = .ok b ↔ (p ∧ x = .ok b) ∨ (¬p ∧ y = .ok b) := by
  by_cases h : p <;> simp [h]

/-- Rule for a check that raises -/
theorem guard_ok {p : Prop} [Decidable p] {y : Except ε β} {b : β} :
    (if p then .error e else y) = .ok b ↔ ¬p ∧ y = .ok b := by
  by_cases h : p <;> simp [h]

/-- Rule for a check that raises and leaves a state -/
theorem guard_pair_ok {σ : Type v} {p : Prop} [Decidable p] {s t : σ} {y : Except ε β × σ} {b : β} :
    (if p then (.error e, s) else y) = (.ok b, t) ↔ ¬p ∧ y = (.ok b, t) := by
  by_cases h : p <;> simp [h]

/-- Rule for a loop of fallible steps: it keeps what each step keeps. -/
theorem foldlM_ok {β : Type w} {R : σ → σ → Prop} (refl : ∀ s, R s s)
    (trans : ∀ {a b c}, R a b → R b c → R a c) {step : σ → β → Except ε σ}
    (each : ∀ s b t, step s b = .ok t → R s t) {items : List β}
    (result : items.foldlM step s = .ok t) : R s t := by
  induction items generalizing s with
  | nil =>
    cases result
    exact refl _
  | cons item items ih =>
    rw [List.foldlM_cons] at result
    obtain ⟨middle, first, rest⟩ := bind_ok.1 result
    exact trans (each s item middle first) (ih rest)

/-- Rule for a loop with an invariant: what the step of an item establishes, and no later step
undoes, holds at the end. -/
theorem foldlM_each {β : Type w} {P : σ → Prop} {Q : β → σ → Prop} {step : σ → β → Except ε σ}
    {items : List β}
    (each : ∀ b ∈ items, ∀ s t, P s → step s b = .ok t → P t ∧ Q b t ∧ ∀ a, Q a s → Q a t)
    {s t : σ} (start : P s) (result : items.foldlM step s = .ok t) :
    P t ∧ (∀ b ∈ items, Q b t) ∧ ∀ a, Q a s → Q a t := by
  induction items generalizing s with
  | nil =>
    cases result
    exact ⟨start, by simp, fun _ before => before⟩
  | cons item items ih =>
    rw [List.foldlM_cons] at result
    obtain ⟨middle, first, rest⟩ := bind_ok.1 result
    obtain ⟨kept, done, before⟩ := each item (List.mem_cons_self ..) s middle start first
    obtain ⟨last, all, stable⟩ :=
      ih (fun b member => each b (List.mem_cons_of_mem _ member)) kept rest
    refine ⟨last, ?_, fun a earlier => stable a (before a earlier)⟩
    intro b member
    cases member with
    | head => exact stable item done
    | tail _ later => exact all b later

/-- Rule for a loop with an invariant alone -/
theorem foldlM_keeps {β : Type w} {P : σ → Prop} {step : σ → β → Except ε σ} {items : List β}
    (keeps : ∀ b ∈ items, ∀ s t, P s → step s b = .ok t → P t)
    {s t : σ} (start : P s) (result : items.foldlM step s = .ok t) : P t := by
  refine (foldlM_each (Q := fun _ _ => True) ?_ start result).1
  intro b member s t before ran
  exact ⟨keeps b member s t before ran, trivial, fun _ _ => trivial⟩

/-- A loop of checks succeeds when each of them does. -/
theorem forM_ok {β : Type w} {check : β → Except ε PUnit} {items : List β}
    (result : items.forM check = .ok ⟨⟩) : ∀ b ∈ items, check b = .ok ⟨⟩ := by
  induction items with
  | nil => simp
  | cons item items ih =>
    have steps : (check item >>= fun _ => items.forM check) = .ok ⟨⟩ := result
    obtain ⟨_, first, rest⟩ := bind_ok.1 steps
    intro b member
    cases member with
    | head => exact first
    | tail _ later => exact ih rest b later

/-- What a loop collects agrees with what each item stood for. -/
theorem mapM_map {β γ δ : Type w} {make : β → Except ε γ} (read : γ → δ) (meant : β → δ)
    {items : List β} {made : List γ} (each : ∀ b ∈ items, ∀ c, make b = .ok c → read c = meant b)
    (result : items.mapM make = .ok made) : made.map read = items.map meant := by
  induction items generalizing made with
  | nil =>
    cases result
    rfl
  | cons item items ih =>
    rw [List.mapM_cons] at result
    obtain ⟨first, ran, rest⟩ := bind_ok.1 result
    obtain ⟨others, ran_rest, last⟩ := bind_ok.1 rest
    cases last
    have head := each item (List.mem_cons_self ..) first ran
    have tail := ih (fun b member => each b (List.mem_cons_of_mem _ member)) ran_rest
    rw [List.map_cons, List.map_cons, head, tail]

/-- Whatever a loop collects was made of one of its items. -/
theorem mapM_made {β γ : Type w} {make : β → Except ε γ} {items : List β} {made : List γ}
    (result : items.mapM make = .ok made) : ∀ c ∈ made, ∃ b ∈ items, make b = .ok c := by
  induction items generalizing made with
  | nil =>
    cases result
    simp
  | cons item items ih =>
    rw [List.mapM_cons] at result
    obtain ⟨first, ran, rest⟩ := bind_ok.1 result
    obtain ⟨others, ran_rest, last⟩ := bind_ok.1 rest
    cases last
    intro c member
    obtain rfl | later := List.mem_cons.1 member
    · exact ⟨item, List.mem_cons_self .., ran⟩
    · obtain ⟨b, there, made_⟩ := ih ran_rest c later
      exact ⟨b, List.mem_cons_of_mem _ there, made_⟩

/-- A loop whose steps all succeed collects something. -/
theorem mapM_total {β γ : Type w} {make : β → Except ε γ} {items : List β}
    (each : ∀ b ∈ items, ∃ c, make b = .ok c) : ∃ made, items.mapM make = .ok made := by
  induction items with
  | nil => exact ⟨[], rfl⟩
  | cons item items ih =>
    obtain ⟨first, ran⟩ := each item (List.mem_cons_self ..)
    obtain ⟨rest, ran_rest⟩ := ih fun b member => each b (List.mem_cons_of_mem _ member)
    refine ⟨first :: rest, ?_⟩
    rw [List.mapM_cons]
    exact bind_ok.2 ⟨first, ran, bind_ok.2 ⟨rest, ran_rest, rfl⟩⟩

/-- A loop of checks succeeds if each of them does. -/
theorem forM_total {β : Type w} {check : β → Except ε PUnit} {items : List β}
    (each : ∀ b ∈ items, check b = .ok ⟨⟩) : items.forM check = .ok ⟨⟩ := by
  induction items with
  | nil => rfl
  | cons item items ih =>
    show (check item >>= fun _ => items.forM check) = .ok ⟨⟩
    exact bind_ok.2 ⟨_, each item (List.mem_cons_self ..),
      ih fun b member => each b (List.mem_cons_of_mem _ member)⟩

/-! ## Undo logs

A run changes the values of some keys and logs, under a name of the key, a digest of each
value that it gave.  Several names may stand for one key.  Restoring the start value of every
logged key undoes the run.
-/

abbrev UndoLog (ν δ : Type) := List (ν × δ)

section UndoLog

variable {ν κ α δ : Type} {key : ν → Option κ} {digest : α → δ} {start now cur : κ → α}
  {log : UndoLog ν δ}

/-- The log names the key. -/
def Touched (key : ν → Option κ) (log : UndoLog ν δ) (k : κ) : Prop :=
  ∃ entry ∈ log, key entry.1 = some k

/-- Only logged keys have changed since the start, and the log has the digest of what each of
them holds now. -/
structure Tracked (key : ν → Option κ) (digest : α → δ) (start now : κ → α)
    (log : UndoLog ν δ) : Prop where
  untouched : ∀ k, ¬ Touched key log k → now k = start k
  latest : ∀ k, Touched key log k → ∃ entry ∈ log, key entry.1 = some k ∧ entry.2 = digest (now k)

/-- Every key that the log names holds a value with the digest that was logged. -/
def Confirmed (key : ν → Option κ) (digest : α → δ) (cur : κ → α) (log : UndoLog ν δ) : Prop :=
  ∀ entry ∈ log, ∀ k, key entry.1 = some k → digest (cur k) = entry.2

theorem Tracked.nil (key : ν → Option κ) (digest : α → δ) (start : κ → α) :
    Tracked key digest start start [] where
  untouched := fun _ _ => rfl
  latest := fun _ touched => nomatch touched

theorem touched_append {k : κ} {entry : ν × δ} :
    Touched key (log ++ [entry]) k ↔ Touched key log k ∨ key entry.1 = some k := by
  simp only [Touched, List.mem_append, List.mem_singleton]
  constructor
  · rintro ⟨found, member | rfl, named⟩
    · exact .inl ⟨found, member, named⟩
    · exact .inr named
  · rintro (⟨found, member, named⟩ | named)
    · exact ⟨found, .inl member, named⟩
    · exact ⟨entry, .inr rfl, named⟩

/-- Giving a key a value and logging it keeps track. -/
theorem Tracked.set [DecidableEq κ] {name : ν} {k : κ} (tracked : Tracked key digest start now log)
    (named : key name = some k) (x : α) :
    Tracked key digest start (Function.update now k x) (log ++ [(name, digest x)]) where
  untouched := by
    intro other touched
    rw [touched_append, not_or] at touched
    have different : other ≠ k := by
      intro same
      rw [same] at touched
      exact touched.2 named
    rw [Function.update_of_ne different]
    exact tracked.untouched other touched.1
  latest := by
    intro other touched
    by_cases same : other = k
    · rw [same]
      exact ⟨(name, digest x), by simp, named, by simp⟩
    · rw [touched_append] at touched
      obtain touched | touched := touched
      · obtain ⟨entry, member, named, value⟩ := tracked.latest other touched
        exact ⟨entry, List.mem_append_left _ member, named, by
          rw [Function.update_of_ne same]; exact value⟩
      · rw [named] at touched
        exact absurd (Option.some.inj touched).symm same

/-- What is confirmed later has the digest that it had when the run stopped. -/
theorem Tracked.confirmed {k : κ} (tracked : Tracked key digest start now log)
    (confirmed : Confirmed key digest cur log) (touched : Touched key log k) :
    digest (cur k) = digest (now k) := by
  obtain ⟨entry, member, named, value⟩ := tracked.latest k touched
  rw [confirmed entry member k named, value]

variable [DecidableEq κ]

/-- The keys get their start values back, one after the other. -/
def restoreAll (start : κ → α) (keys : List κ) (cur : κ → α) : κ → α :=
  keys.foldl (fun cur k => Function.update cur k (start k)) cur

theorem restoreAll_apply (start : κ → α) (keys : List κ) (cur : κ → α) (k : κ) :
    restoreAll start keys cur k = if k ∈ keys then start k else cur k := by
  induction keys generalizing cur with
  | nil => rfl
  | cons first rest ih =>
    have step : restoreAll start (first :: rest) cur =
        restoreAll start rest (Function.update cur first (start first)) := rfl
    rw [step, ih]
    by_cases later : k ∈ rest
    · simp [later]
    · by_cases same : k = first
      · simp [same]
      · simp [later, same]

/-- Restoring every logged key undoes the run, if nothing else has changed since. -/
theorem Tracked.restored {keys : List κ} (tracked : Tracked key digest start now log)
    (covers : ∀ k, Touched key log k → k ∈ keys)
    (same : ∀ k, ¬ Touched key log k → cur k = now k) : restoreAll start keys cur = start := by
  funext k
  rw [restoreAll_apply]
  by_cases restored : k ∈ keys
  · exact if_pos restored
  · have untouched : ¬ Touched key log k := fun touched => restored (covers k touched)
    rw [if_neg restored, same k untouched, tracked.untouched k untouched]

/-- A key that the log does not name keeps what it holds, and so a change of it stays. -/
theorem Tracked.kept {keys : List κ} {k : κ} (tracked : Tracked key digest start now log)
    (only : ∀ k ∈ keys, Touched key log k) (untouched : ¬ Touched key log k)
    (changed : cur k ≠ now k) : restoreAll start keys cur k ≠ start k := by
  rw [restoreAll_apply, if_neg fun member => untouched (only k member),
    ← tracked.untouched k untouched]
  exact changed

end UndoLog

end CodexRemote.Foundations

import CodexRemote.Foundations.Runs

/-! # Interleaved programs

A program is a tree of calls on a shared state.  Tasks run one call at a time in any
order; an environment may act between calls, and a crash drops every task.  The rules
here are those of rely-guarantee reasoning: a task is safe when each of its calls
keeps its guarantee however the rest of the system interferes, and a pool of safe
tasks keeps the guarantees at every step of every run.
-/

namespace CodexRemote.Foundations

/-- A program whose calls `op` are answered by values of type `Ans op`. -/
inductive Prog (Op : Type) (Ans : Op → Type) (α : Type) : Type where
  | ret (a : α)
  | call (op : Op) (next : Ans op → Prog Op Ans α)

namespace Prog

variable {Op : Type} {Ans : Op → Type} {α β : Type}

def bind : Prog Op Ans α → (α → Prog Op Ans β) → Prog Op Ans β
  | ret a, f => f a
  | call op next, f => call op fun answer => (next answer).bind f

instance : Monad (Prog Op Ans) where
  pure := ret
  bind := bind

end Prog

section Safety

variable {Tid σ Op : Type} {Ans : Op → Type} {α β : Type}

/-- What calls do, and what a task may assume of the rest of the system between its
own calls and promises about each of its calls. -/
structure Discipline (Tid σ Op : Type) (Ans : Op → Type) where
  does : Tid → σ → (op : Op) → Ans op → σ → Prop
  rely : Tid → σ → σ → Prop
  guarantee : Tid → σ → (op : Op) → Ans op → σ → Prop
  refl : ∀ tid s, rely tid s s
  trans : ∀ tid {a b c}, rely tid a b → rely tid b c → rely tid a c

variable (D : Discipline Tid σ Op Ans)

/-- Every call of the program keeps the guarantee, and it returns with `post`. -/
def Safe (tid : Tid) (post : α → σ → Prop) : Prog Op Ans α → σ → Prop
  | .ret a, s => ∀ t, D.rely tid s t → post a t
  | .call op next, s => ∀ t, D.rely tid s t → ∀ answer u, D.does tid t op answer u →
      D.guarantee tid t op answer u ∧ Safe tid post (next answer) u

variable {D}

variable {p : Prog Op Ans α} {s : σ} {tid : Tid}

/-- Safety is stable under interference. -/
theorem Safe.later {post : α → σ → Prop} {t : σ}
    (safe : Safe D tid post p s) (interfered : D.rely tid s t) : Safe D tid post p t := by
  cases p with
  | ret a => exact fun u further => safe u (D.trans tid interfered further)
  | call op next => exact fun u further => safe u (D.trans tid interfered further)

theorem Safe.weaken {post post' : α → σ → Prop}
    (safe : Safe D tid post p s) (implies : ∀ a t, post a t → post' a t) :
    Safe D tid post' p s := by
  induction p generalizing s with
  | ret a => exact fun t interfered => implies a t (safe t interfered)
  | call op next ih =>
    intro t interfered answer u did
    obtain ⟨kept, rest⟩ := safe t interfered answer u did
    exact ⟨kept, ih answer rest⟩

/-- What is stable under interference and under the task's own calls holds at the end. -/
theorem Safe.frame {post : α → σ → Prop} {s₀ : σ}
    (own : ∀ {s op answer t}, D.guarantee tid s op answer t → D.rely tid s t)
    (safe : Safe D tid post p s) (since : D.rely tid s₀ s) :
    Safe D tid (fun a t => post a t ∧ D.rely tid s₀ t) p s := by
  induction p generalizing s with
  | ret a => exact fun t interfered => ⟨safe t interfered, D.trans tid since interfered⟩
  | call op next ih =>
    intro t interfered answer u did
    obtain ⟨kept, rest⟩ := safe t interfered answer u did
    exact ⟨kept, ih answer rest (D.trans tid (D.trans tid since interfered) (own kept))⟩

/-- Sequencing rule. -/
theorem Safe.bind {post : β → σ → Prop} {f : α → Prog Op Ans β}
    (safe : Safe D tid (fun a t => Safe D tid post (f a) t) p s) :
    Safe D tid post (p >>= f) s := by
  induction p generalizing s with
  | ret a => exact safe s (D.refl tid s)
  | call op next ih =>
    intro t interfered answer u did
    obtain ⟨kept, rest⟩ := safe t interfered answer u did
    exact ⟨kept, ih answer rest⟩

end Safety

/-! ## Programs that may fail -/

section Failing

variable {Tid σ Op ε δ : Type} {Ans : Op → Type} {α β : Type}
variable {D : Discipline Tid σ Op Ans}

/-- A call whose answer may be an error. -/
def performOr (op : Op) (view : Ans op → Except δ α) (wrap : δ → ε) :
    ExceptT ε (Prog Op Ans) α :=
  ExceptT.mk (.call op fun answer => .ret ((view answer).mapError wrap))

/-- Safety with a postcondition for success only. -/
def SafeOk (D : Discipline Tid σ Op Ans) (tid : Tid) (post : α → σ → Prop)
    (p : ExceptT ε (Prog Op Ans) α) (s : σ) : Prop :=
  Safe D tid (fun outcome t => ∀ a, outcome = .ok a → post a t) p.run s

variable {post : α → σ → Prop} {s : σ} {tid : Tid} {p : ExceptT ε (Prog Op Ans) α}

theorem SafeOk.throw {e : ε} :
    SafeOk D tid post (MonadExcept.throw e : ExceptT ε (Prog Op Ans) α) s := by
  intro t _ a impossible
  cases impossible

theorem SafeOk.pure {a : α} (holds : ∀ t, D.rely tid s t → post a t) :
    SafeOk D tid post (Pure.pure a : ExceptT ε (Prog Op Ans) α) s := by
  intro t interfered b same
  cases same
  exact holds t interfered

theorem SafeOk.bind {post : β → σ → Prop} {f : α → ExceptT ε (Prog Op Ans) β}
    (safe : SafeOk D tid (fun a t => SafeOk D tid post (f a) t) p s) :
    SafeOk D tid post (p >>= f) s := by
  apply Safe.bind
  refine Safe.weaken safe ?_
  intro outcome t continues
  cases outcome with
  | ok a => exact continues a rfl
  | error e =>
    -- after a failure the rest of the program is skipped
    intro u _ b impossible
    cases impossible

theorem SafeOk.weaken {post' : α → σ → Prop}
    (safe : SafeOk D tid post p s) (implies : ∀ a t, post a t → post' a t) :
    SafeOk D tid post' p s :=
  Safe.weaken safe fun _ t holds a same => implies a t (holds a same)

theorem SafeOk.frame {s₀ : σ}
    (own : ∀ {s op answer t}, D.guarantee tid s op answer t → D.rely tid s t)
    (safe : SafeOk D tid post p s) (since : D.rely tid s₀ s) :
    SafeOk D tid (fun a t => post a t ∧ D.rely tid s₀ t) p s :=
  Safe.weaken (Safe.frame own safe since) fun _ _ holds a same => ⟨holds.1 a same, holds.2⟩

theorem SafeOk.performOr {op : Op} {view : Ans op → Except δ α} {wrap : δ → ε}
    (step : ∀ t, D.rely tid s t → ∀ answer u, D.does tid t op answer u →
      D.guarantee tid t op answer u ∧
        ∀ a, view answer = .ok a → ∀ v, D.rely tid u v → post a v) :
    SafeOk D tid post (performOr op view wrap) s := by
  intro t interfered answer u did
  obtain ⟨kept, after⟩ := step t interfered answer u did
  refine ⟨kept, ?_⟩
  intro v further a same
  cases outcome : view answer with
  | error e =>
    rw [outcome] at same
    cases same
  | ok b =>
    rw [outcome] at same
    cases same
    exact after a outcome v further

/-- A handler that never succeeds changes nothing about the successes. -/
theorem SafeOk.rethrow {handler : ε → ExceptT ε (Prog Op Ans) α} (safe : SafeOk D tid post p s)
    (fails : ∀ e, ∃ e', handler e = MonadExcept.throw e')
    (stable : ∀ {a t u}, post a t → D.rely tid t u → post a u) :
    SafeOk D tid post (tryCatch p handler) s := by
  apply Safe.bind
  refine Safe.weaken safe ?_
  intro outcome t holds
  cases outcome with
  | ok a =>
    show SafeOk D tid post (Pure.pure a) t
    exact SafeOk.pure fun u interfered => stable (holds a rfl) interfered
  | error e =>
    obtain ⟨e', same⟩ := fails e
    show SafeOk D tid post (handler e) t
    rw [same]
    exact SafeOk.throw

end Failing

/-! ## Pools of tasks -/

section Pools

variable {Tid σ Op : Type} {Ans : Op → Type} {α : Type}

structure Pool (Tid σ Op : Type) (Ans : Op → Type) (α : Type) where
  shared : σ
  tasks : Tid → Option (Prog Op Ans α)

inductive PoolEvent (Tid Op : Type) (Ans : Op → Type) where
  | started (tid : Tid)
  | called (tid : Tid) (op : Op) (answer : Ans op)
  | left (tid : Tid)
  | crashed
  | interfered

/-- How tasks come and go, and what happens beside them. -/
structure Surroundings (Tid σ Op : Type) (Ans : Op → Type) (α : Type) where
  starts : Tid → Prog Op Ans α → σ → Prop
  /-- a task has returned or was dropped -/
  leaves : Tid → σ → σ → Prop
  crashes : σ → σ → Prop
  interferes : σ → σ → Prop

variable [DecidableEq Tid]

inductive PoolStep (D : Discipline Tid σ Op Ans) (E : Surroundings Tid σ Op Ans α) :
    Pool Tid σ Op Ans α → PoolEvent Tid Op Ans → Pool Tid σ Op Ans α → Prop where
  | started {pool : Pool Tid σ Op Ans α} (tid : Tid) (p : Prog Op Ans α)
      (free : pool.tasks tid = none) (starts : E.starts tid p pool.shared) :
      PoolStep D E pool (.started tid)
        { pool with tasks := Function.update pool.tasks tid (some p) }
  | called {pool : Pool Tid σ Op Ans α} (tid : Tid) (op : Op) (next : Ans op → Prog Op Ans α)
      (answer : Ans op) (shared : σ) (running : pool.tasks tid = some (.call op next))
      (does : D.does tid pool.shared op answer shared) :
      PoolStep D E pool (.called tid op answer)
        ⟨shared, Function.update pool.tasks tid (some (next answer))⟩
  | left {pool : Pool Tid σ Op Ans α} (tid : Tid) (shared : σ)
      (leaves : E.leaves tid pool.shared shared) :
      PoolStep D E pool (.left tid) ⟨shared, Function.update pool.tasks tid none⟩
  | crashed {pool : Pool Tid σ Op Ans α} (shared : σ) (crashes : E.crashes pool.shared shared) :
      PoolStep D E pool .crashed ⟨shared, fun _ => none⟩
  | interfered {pool : Pool Tid σ Op Ans α} (shared : σ)
      (interferes : E.interferes pool.shared shared) :
      PoolStep D E pool .interfered { pool with shared := shared }

abbrev PoolRun (D : Discipline Tid σ Op Ans) (E : Surroundings Tid σ Op Ans α) :=
  Run (PoolStep D E)

/-- What one task guarantees, the others rely on; every step keeps the invariant; and a
task that starts where it holds is safe. -/
structure Compatible (D : Discipline Tid σ Op Ans) (E : Surroundings Tid σ Op Ans α)
    (valid : σ → Prop) : Prop where
  others : ∀ {tid other s op answer t}, other ≠ tid → D.guarantee tid s op answer t →
    D.rely other s t
  leaves : ∀ {tid other s t}, other ≠ tid → E.leaves tid s t → D.rely other s t
  interferes : ∀ {tid s t}, E.interferes s t → D.rely tid s t
  starts : ∀ {tid p s}, valid s → E.starts tid p s → Safe D tid (fun _ _ => True) p s
  kept : ∀ {tid s op answer t}, valid s → D.guarantee tid s op answer t → valid t
  kept_leaves : ∀ {tid s t}, valid s → E.leaves tid s t → valid t
  kept_crashes : ∀ {s t}, valid s → E.crashes s t → valid t
  kept_interferes : ∀ {s t}, valid s → E.interferes s t → valid t

/-- The invariant holds and every running task is safe. -/
structure AllSafe (D : Discipline Tid σ Op Ans) (valid : σ → Prop)
    (pool : Pool Tid σ Op Ans α) : Prop where
  valid : valid pool.shared
  safe : ∀ tid p, pool.tasks tid = some p → Safe D tid (fun _ _ => True) p pool.shared

variable {D : Discipline Tid σ Op Ans} {E : Surroundings Tid σ Op Ans α} {valid : σ → Prop}

omit [DecidableEq Tid] in
theorem AllSafe.idle {s : σ} (holds : valid s) :
    AllSafe D valid (⟨s, fun _ => none⟩ : Pool Tid σ Op Ans α) where
  valid := holds
  safe := by
    intro _ _ running
    cases running

omit [DecidableEq Tid] in
theorem AllSafe.called {pool : Pool Tid σ Op Ans α} {tid : Tid} {op : Op}
    {next : Ans op → Prog Op Ans α} {answer : Ans op} {shared : σ} (all : AllSafe D valid pool)
    (running : pool.tasks tid = some (.call op next))
    (does : D.does tid pool.shared op answer shared) :
    D.guarantee tid pool.shared op answer shared ∧
      Safe D tid (fun _ _ => True) (next answer) shared :=
  all.safe tid _ running pool.shared (D.refl tid _) answer shared does

variable {pool : Pool Tid σ Op Ans α}

/-- A change of one task and of the shared state keeps all tasks safe, when the changed
task is and the others may rely on the change. -/
theorem AllSafe.update {tid : Tid} {task : Option (Prog Op Ans α)}
    {shared : σ} (all : AllSafe D valid pool) (holds : valid shared)
    (changed : ∀ p, task = some p → Safe D tid (fun _ _ => True) p shared)
    (others : ∀ other, other ≠ tid → D.rely other pool.shared shared) :
    AllSafe D valid ⟨shared, Function.update pool.tasks tid task⟩ where
  valid := holds
  safe := by
    intro other p running
    simp only at running
    by_cases same : other = tid
    · subst same
      rw [Function.update_self] at running
      exact changed p running
    · rw [Function.update_of_ne same] at running
      exact (all.safe other p running).later (others other same)

theorem poolStep_safe (compatible : Compatible D E valid) {next : Pool Tid σ Op Ans α}
    {event : PoolEvent Tid Op Ans} (step : PoolStep D E pool event next)
    (all : AllSafe D valid pool) : AllSafe D valid next := by
  cases step with
  | started tid p free starts =>
    refine all.update all.valid ?_ (fun other _ => D.refl other _)
    rintro _ ⟨⟩
    exact compatible.starts all.valid starts
  | called tid op next answer shared running does =>
    obtain ⟨guaranteed, continues⟩ := all.called running does
    refine all.update (compatible.kept all.valid guaranteed) ?_
      (fun other different => compatible.others different guaranteed)
    rintro _ ⟨⟩
    exact continues
  | left tid shared leaves =>
    refine all.update (compatible.kept_leaves all.valid leaves) ?_
      (fun other different => compatible.leaves different leaves)
    intro _ absent
    cases absent
  | crashed shared crashes => exact AllSafe.idle (compatible.kept_crashes all.valid crashes)
  | interfered shared interferes =>
    refine ⟨compatible.kept_interferes all.valid interferes, ?_⟩
    intro tid p running
    exact (all.safe tid p running).later (compatible.interferes interferes)

theorem pool_safe (compatible : Compatible D E valid) {start : Pool Tid σ Op Ans α}
    {events : List (PoolEvent Tid Op Ans)} (run : PoolRun D E start events pool)
    (all : AllSafe D valid start) : AllSafe D valid pool :=
  run.preserves (AllSafe D valid) (fun _ _ _ step all => poolStep_safe compatible step all) all

/-- Every call of every run keeps its guarantee. -/
theorem pool_guarantees (compatible : Compatible D E valid) {start next : Pool Tid σ Op Ans α}
    {events : List (PoolEvent Tid Op Ans)} {tid : Tid} {op : Op} {answer : Ans op}
    (run : PoolRun D E start events pool) (all : AllSafe D valid start)
    (step : PoolStep D E pool (.called tid op answer) next) :
    D.guarantee tid pool.shared op answer next.shared := by
  have reached := pool_safe compatible run all
  cases step with
  | called _ _ _ _ _ running does => exact (reached.called running does).1

end Pools

end CodexRemote.Foundations

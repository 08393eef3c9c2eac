import Mathlib.Data.List.Perm.Subperm
import Mathlib.Data.Option.Basic

/-! # Chains

Following a partial successor from a start.  A chain that comes back to where it was goes on for
ever, and one that does not is no longer than the list of those that have a successor.
-/

namespace CodexRemote.Foundations

universe u

variable {α : Type u}

/-- What is reached after so many steps, if the chain has not ended before -/
def chainAt (next : α → Option α) (start : α) : Nat → Option α
  | 0 => some start
  | n + 1 => (chainAt next start n).bind next

variable {next : α → Option α} {start a : α} {i j m n : Nat} {visited : List α}

theorem chainAt_add (there : chainAt next start i = some a) (n : Nat) :
    chainAt next start (i + n) = chainAt next a n := by
  induction n with
  | zero => exact there
  | succ n ih =>
    show (chainAt next start (i + n)).bind next = (chainAt next a n).bind next
    rw [ih]

theorem chainAt_isSome_of_le (le : m ≤ n) (there : (chainAt next start n).isSome) :
    (chainAt next start m).isSome := by
  induction le with
  | refl => exact there
  | @step n _ ih =>
    cases reached : chainAt next start n with
    | none =>
      rw [chainAt, reached] at there
      cases there
    | some b => exact ih (by rw [reached]; rfl)

/-- A chain that comes back reaches nothing new. -/
theorem chainAt_cycle (before : i < j) (first : chainAt next start i = some a)
    (again : chainAt next start j = some a) (n : Nat) :
    ∃ m < j, chainAt next start n = chainAt next start m := by
  induction n using Nat.strongRecOn with
  | ind n ih =>
    by_cases low : n < j
    · exact ⟨n, low, rfl⟩
    · -- a whole round is taken off, which leads to the same place
      have back : chainAt next start n = chainAt next start (i + (n - j)) := by
        have forth := chainAt_add again (n - j)
        rw [Nat.add_sub_cancel' (Nat.not_lt.1 low)] at forth
        exact forth.trans (chainAt_add first (n - j)).symm
      obtain ⟨m, below, same⟩ := ih (i + (n - j)) (by omega)
      exact ⟨m, below, back.trans same⟩

/-- The list holds what the chain has passed so far, which was new each time. -/
structure Passed (next : α → Option α) (start : α) (visited : List α) : Prop where
  nodup : visited.Nodup
  chain : ∀ a, a ∈ visited ↔ ∃ m < visited.length, chainAt next start m = some a

theorem Passed.nil (next : α → Option α) (start : α) : Passed next start [] :=
  ⟨List.nodup_nil, by simp⟩

theorem Passed.cons (passed : Passed next start visited)
    (here : chainAt next start visited.length = some a) (new : a ∉ visited) :
    Passed next start (a :: visited) := by
  refine ⟨List.nodup_cons.2 ⟨new, passed.nodup⟩, fun b => ?_⟩
  rw [List.mem_cons, passed.chain, List.length_cons]
  constructor
  · rintro (rfl | ⟨m, below, there⟩)
    · exact ⟨visited.length, Nat.lt_succ_self _, here⟩
    · exact ⟨m, Nat.lt_succ_of_lt below, there⟩
  · rintro ⟨m, below, there⟩
    obtain earlier | rfl := Nat.lt_succ_iff_lt_or_eq.1 below
    · exact .inr ⟨m, earlier, there⟩
    · exact .inl (Option.some.inj (there.symm.trans here))

/-- Whatever was passed has a successor. -/
theorem Passed.length_le (passed : Passed next start visited)
    (here : (chainAt next start visited.length).isSome) {known : List α}
    (all : ∀ a, (next a).isSome → a ∈ known) : visited.length ≤ known.length := by
  refine (List.subperm_of_subset passed.nodup fun b there => all b ?_).length_le
  obtain ⟨m, below, reached⟩ := (passed.chain b).1 there
  have after := chainAt_isSome_of_le (Nat.succ_le_of_lt below) here
  rw [chainAt, reached] at after
  exact after

end CodexRemote.Foundations

import Mathlib.Tactic.Ring

/-! # Bounded counters -/

namespace CodexRemote.Foundations

def u64Max : Nat := 2 ^ 64 - 1

def i64Max : Nat := 2 ^ 63 - 1

/-- `saturating_add(1)` below a bound. -/
def saturatingSucc (bound n : Nat) : Nat := min (n + 1) bound

/-- `checked_add(1)` below a bound. -/
def checkedSucc (bound n : Nat) : Option Nat := if n + 1 ≤ bound then some (n + 1) else none

theorem saturatingSucc_of_lt {bound n : Nat} (room : n < bound) : saturatingSucc bound n = n + 1 := by
  unfold saturatingSucc
  omega

theorem saturatingSucc_le (bound n : Nat) : saturatingSucc bound n ≤ bound := Nat.min_le_right _ _

theorem le_saturatingSucc {bound n : Nat} (within : n ≤ bound) : n ≤ saturatingSucc bound n := by
  unfold saturatingSucc
  omega

theorem checkedSucc_some {bound n m : Nat} (next : checkedSucc bound n = some m) :
    m = n + 1 ∧ m ≤ bound := by
  unfold checkedSucc at next
  split at next
  · cases next
    exact ⟨rfl, ‹_›⟩
  · cases next

end CodexRemote.Foundations

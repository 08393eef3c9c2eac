import Mathlib.Data.List.Dedup
import Mathlib.Data.List.DropRight
import Mathlib.Data.List.Perm.Subperm

/-! # The most recently used keys

From a history of uses, the last few distinct keys, the most recently used one last.  One more use
moves its key to the end and drops the oldest one, so a bounded list that is kept this way holds
the most recently used keys of the whole history.
-/

namespace CodexRemote.Foundations

universe u

variable {κ : Type u} [DecidableEq κ]

def recent (n : Nat) (used : List κ) : List κ := used.dedup.rtake n

theorem rtake_length_le {α : Type u} (xs : List α) (n : Nat) : (xs.rtake n).length ≤ n := by
  rw [List.rtake, List.length_drop]
  omega

variable {n : Nat}

theorem rtake_of_length_le {α : Type u} {xs : List α} (short : xs.length ≤ n) :
    xs.rtake n = xs := by
  rw [List.rtake, Nat.sub_eq_zero_of_le short, List.drop_zero]

theorem rtake_append_of_le {α : Type u} {front xs : List α} (long : n ≤ xs.length) :
    (front ++ xs).rtake n = xs.rtake n := by
  rw [List.rtake, List.length_append, List.drop_append,
    List.drop_eq_nil_of_le (by omega), List.nil_append, List.rtake]
  congr 1
  omega

theorem recent_nodup (n : Nat) (used : List κ) : (recent n used).Nodup :=
  (List.nodup_dedup used).sublist (List.drop_sublist _ _)

theorem recent_length_le (n : Nat) (used : List κ) : (recent n used).length ≤ n :=
  rtake_length_le _ n

theorem dedup_snoc (used : List κ) (key : κ) :
    (used ++ [key]).dedup = used.dedup.filter (· ≠ key) ++ [key] := by
  induction used with
  | nil => simp
  | cons x used ih =>
    rw [List.cons_append, List.dedup_cons, List.dedup_cons, ih]
    by_cases same : x = key
    · subst same
      by_cases known : x ∈ used <;> simp [known]
    · by_cases known : x ∈ used <;> simp [known, same]

/-- Removing one key shortens a list without repetitions by at most one. -/
theorem length_filter_ne {keys : List κ} (distinct : keys.Nodup) (key : κ) :
    keys.length ≤ (keys.filter (· ≠ key)).length + 1 := by
  have sub : keys ⊆ key :: keys.filter (· ≠ key) := by
    intro x member
    by_cases same : x = key
    · exact same ▸ List.mem_cons_self ..
    · exact List.mem_cons_of_mem _ (List.mem_filter.2 ⟨member, by simpa using same⟩)
  have most := (List.subperm_of_subset distinct sub).length_le
  simpa using most

/-- One more use moves its key to the end. -/
theorem recent_snoc (n : Nat) (used : List κ) (key : κ) :
    recent n (used ++ [key]) = ((recent n used).filter (· ≠ key) ++ [key]).rtake n := by
  obtain short | long := Nat.le_or_ge used.dedup.length n
  · rw [recent, recent, dedup_snoc, rtake_of_length_le short]
  · have whole := List.take_append_drop (used.dedup.length - n) used.dedup
    have kept := length_filter_ne (recent_nodup n used) key
    have full : (recent n used).length = n := by
      rw [recent, List.rtake, List.length_drop]
      omega
    rw [recent, dedup_snoc, ← whole, List.filter_append, List.append_assoc, rtake_append_of_le]
    · rfl
    · show n ≤ ((recent n used).filter (· ≠ key) ++ [key]).length
      rw [List.length_append, List.length_singleton]
      omega

/-- A key stays as long as fewer than `n` other keys were used after it. -/
theorem mem_recent {used later : List κ} {key : κ}
    (few : (later.filter (· ≠ key)).dedup.length < n) :
    key ∈ recent n (used ++ key :: later) := by
  have sub : (key :: later).dedup ⊆ key :: (later.filter (· ≠ key)).dedup := by
    intro x member
    obtain rfl | there := List.mem_cons.1 (List.mem_dedup.1 member)
    · exact List.mem_cons_self ..
    · by_cases same : x = key
      · exact same ▸ List.mem_cons_self ..
      · exact List.mem_cons_of_mem _ (List.mem_dedup.2
          (List.mem_filter.2 ⟨there, by simpa using same⟩))
  have most := (List.subperm_of_subset (List.nodup_dedup _) sub).length_le
  rw [List.length_cons] at most
  have here : key ∈ (key :: later).dedup := List.mem_dedup.2 (List.mem_cons_self ..)
  obtain ⟨front, whole⟩ := List.suffix_union_right used (key :: later).dedup
  rw [recent, List.dedup_append, ← whole, List.rtake, List.length_append, List.drop_append]
  exact List.mem_append_right _ (by
    rw [Nat.sub_eq_zero_of_le (by omega), List.drop_zero]
    exact here)

/-- What one more use drops was the least recently used key. -/
theorem recent_dropped {used : List κ} {key gone : κ} (there : gone ∈ recent n used)
    (left : gone ∉ recent n (used ++ [key])) :
    ∃ rest, recent n used = gone :: rest ∧ recent n (used ++ [key]) = rest ++ [key] := by
  rw [recent_snoc] at left ⊢
  have most := recent_length_le n used
  generalize recent n used = keys at there left most ⊢
  have sub : (keys.filter (· ≠ key)).Sublist keys := List.filter_sublist
  have full : n ≤ (keys.filter (· ≠ key)).length := by
    by_contra room
    rw [rtake_of_length_le (by rw [List.length_append, List.length_singleton]; omega)] at left
    by_cases same : gone = key
    · exact left (List.mem_append_right _ (by rw [same]; exact List.mem_singleton_self _))
    · exact left (List.mem_append_left _ (List.mem_filter.2 ⟨there, by simpa using same⟩))
  -- a full list without the key loses its head, and nothing else
  have all := sub.eq_of_length_le (most.trans full)
  rw [all] at left full ⊢
  cases keys with
  | nil => cases there
  | cons head rest =>
    rw [List.length_cons] at most full
    have drops : (head :: rest ++ [key]).rtake n = rest ++ [key] := by
      rw [List.rtake, List.cons_append, List.length_cons, List.length_append,
        List.length_singleton, show rest.length + 1 + 1 - n = 1 by omega]
      rfl
    rw [drops] at left ⊢
    obtain rfl | later := List.mem_cons.1 there
    · exact ⟨rest, rfl, rfl⟩
    · exact absurd (List.mem_append_left _ later) left

end CodexRemote.Foundations

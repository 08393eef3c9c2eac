import Mathlib.Data.List.Induction
import Mathlib.Data.List.Nodup

/-! # Tables with a primary key

A table is a finite list of rows, in insertion order, no two of which have the
same primary key.  The invariant is a field, so every operation proves that it
keeps the key, and no later proof needs to.
-/

namespace CodexRemote.Foundations

universe u v

/-- Rows of type `ρ` whose primary key is `key`. -/
structure Table {κ : Type u} {ρ : Type v} (key : ρ → κ) where
  rows : List ρ
  unique : (rows.map key).Nodup

namespace Table

variable {κ : Type u} {ρ : Type v} {key : ρ → κ}

def empty : Table key := ⟨[], List.nodup_nil⟩

@[ext] theorem ext {s t : Table key} (same : s.rows = t.rows) : s = t := by
  cases s
  cases t
  cases same
  rfl

instance [DecidableEq ρ] : DecidableEq (Table key) := fun s t =>
  decidable_of_iff (s.rows = t.rows) ⟨Table.ext, fun h => h ▸ rfl⟩

/-- Rows that satisfy a condition. -/
def select (t : Table key) (condition : ρ → Bool) : List ρ := t.rows.filter condition

/-- `SELECT EXISTS(… WHERE condition)` -/
def contains (t : Table key) (condition : ρ → Bool) : Bool := t.rows.any condition

/-- `SELECT COUNT(*) … WHERE condition`, which is also the number of rows that an
update or a delete with this condition changes. -/
def count (t : Table key) (condition : ρ → Bool) : Nat := t.rows.countP condition

/-- `UPDATE … SET … WHERE condition` for assignments that leave the key alone. -/
def update (t : Table key) (condition : ρ → Bool) (assign : ρ → ρ)
    (keeps : ∀ r, key (assign r) = key r) : Table key where
  rows := t.rows.map (fun r => if condition r then assign r else r)
  unique := by
    have same : (t.rows.map (fun r => if condition r then assign r else r)).map key =
        t.rows.map key := by
      rw [List.map_map]
      apply List.map_congr_left
      intro r _
      by_cases h : condition r <;> simp [h, keeps]
    rw [same]
    exact t.unique

/-- `DELETE … WHERE condition` -/
def delete (t : Table key) (condition : ρ → Bool) : Table key where
  rows := t.rows.filter (fun r => !condition r)
  unique := (List.filter_sublist.map key).nodup t.unique

variable [DecidableEq κ]

/-- The row with a given key. -/
def find (t : Table key) (k : κ) : Option ρ := t.rows.find? (fun r => key r = k)

/-- `INSERT OR IGNORE`: a row whose key is taken is not inserted. -/
def insertOrIgnore (t : Table key) (row : ρ) : Table key :=
  if taken : key row ∈ t.rows.map key then t
  else
    { rows := t.rows ++ [row]
      unique := by
        rw [List.map_append, List.map_singleton]
        exact List.nodup_append.2 ⟨t.unique, List.nodup_singleton _, by
          intro a hin b hb equal
          rw [List.mem_singleton] at hb
          exact taken (hb ▸ equal ▸ hin)⟩ }

/-- `INSERT`: none stands for the constraint violation. -/
def insert (t : Table key) (row : ρ) : Option (Table key) :=
  if key row ∈ t.rows.map key then none else some (t.insertOrIgnore row)

/-- `HashMap::remove` -/
def remove (t : Table key) (k : κ) : Table key := t.delete fun r => key r = k

/-- `HashMap::insert`: a row of the same key is replaced. -/
def put (t : Table key) (row : ρ) : Table key := (t.remove (key row)).insertOrIgnore row

/-! ## Reading a table by its key -/

theorem find_some_iff {t : Table key} {k : κ} {row : ρ} :
    t.find k = some row ↔ row ∈ t.rows ∧ key row = k := by
  have all := t.unique
  unfold find
  generalize t.rows = rows at all
  induction rows with
  | nil => simp
  | cons head tail ih =>
    rw [List.map_cons, List.nodup_cons] at all
    rw [List.find?_cons]
    by_cases here : key head = k
    · simp only [here, decide_true, Option.some.injEq, List.mem_cons]
      constructor
      · rintro rfl
        exact ⟨Or.inl rfl, here⟩
      · rintro ⟨rfl | later, same⟩
        · rfl
        · exact absurd (List.mem_map.2 ⟨row, later, same.trans here.symm⟩) all.1
    · simp only [here, decide_false, List.mem_cons, ih all.2]
      constructor
      · rintro ⟨member, same⟩
        exact ⟨Or.inr member, same⟩
      · rintro ⟨rfl | member, same⟩
        · exact absurd same here
        · exact ⟨member, same⟩

theorem find_none_iff {t : Table key} {k : κ} : t.find k = none ↔ ∀ row ∈ t.rows, key row ≠ k := by
  simp [find, List.find?_eq_none]

theorem find_key {t : Table key} {k : κ} {row : ρ} (found : t.find k = some row) : key row = k :=
  (find_some_iff.1 found).2

theorem mem_of_find {t : Table key} {k : κ} {row : ρ} (found : t.find k = some row) :
    row ∈ t.rows :=
  (find_some_iff.1 found).1

theorem find_of_mem {t : Table key} {row : ρ} (member : row ∈ t.rows) :
    t.find (key row) = some row :=
  find_some_iff.2 ⟨member, rfl⟩

theorem eq_of_key {t : Table key} {row other : ρ} (there : row ∈ t.rows) (here : other ∈ t.rows)
    (same : key row = key other) : row = other :=
  Option.some.inj ((find_of_mem there).symm.trans (same ▸ find_of_mem here))

theorem find_update {t : Table key} {condition : ρ → Bool} {assign : ρ → ρ}
    {keeps : ∀ r, key (assign r) = key r} (k : κ) :
    (t.update condition assign keeps).find k =
      (t.find k).map (fun r => if condition r then assign r else r) := by
  have keep : ∀ r, key (if condition r then assign r else r) = key r := by
    intro r
    by_cases h : condition r <;> simp [h, keeps]
  simp only [find, update, List.find?_map, Function.comp_def, keep]

/-- The rows of a table, changed in place -/
theorem find_map {t u : Table key} {change : ρ → ρ} (rows : u.rows = t.rows.map change)
    (keeps : ∀ r, key (change r) = key r) (k : κ) : u.find k = (t.find k).map change := by
  simp only [find, rows, List.find?_map, Function.comp_def, keeps]

/-- An update keeps every key. -/
theorem isSome_find_update {t : Table key} {condition : ρ → Bool} {assign : ρ → ρ}
    {keeps : ∀ r, key (assign r) = key r} {k : κ} (there : (t.find k).isSome) :
    ((t.update condition assign keeps).find k).isSome := by
  rw [find_update, Option.isSome_map]
  exact there

/-- An update whose condition names one key leaves every other row as it was. -/
theorem find_update_ne {t : Table key} {condition : ρ → Bool} {assign : ρ → ρ}
    (keeps : ∀ r, key (assign r) = key r) {k : κ} (other : ∀ r, key r = k → condition r = false) :
    (t.update condition assign keeps).find k = t.find k := by
  rw [find_update]
  cases found : t.find k with
  | none => rfl
  | some row => simp [other row (find_key found)]

theorem find_delete {t : Table key} {condition : ρ → Bool} (k : κ) :
    (t.delete condition).find k = (t.find k).filter (fun r => !condition r) := by
  ext row
  simp only [Option.filter_eq_some_iff, find_some_iff, delete, List.mem_filter]
  tauto

theorem find_insertOrIgnore {t : Table key} {row : ρ} (k : κ) :
    (t.insertOrIgnore row).find k =
      if key row = k then some ((t.find k).getD row) else t.find k := by
  unfold insertOrIgnore
  split
  · next taken =>
    obtain ⟨present, member, same⟩ := List.mem_map.1 taken
    split
    · next here =>
      have found : t.find k = some present := find_some_iff.2 ⟨member, same.trans here⟩
      simp [found]
    · rfl
  · next free =>
    simp only [find, List.find?_append]
    split
    · next here =>
      have absent : t.rows.find? (fun r => key r = k) = none := by
        rw [List.find?_eq_none]
        intro r member
        simp only [decide_eq_true_eq]
        intro same
        exact free (List.mem_map.2 ⟨r, member, same.trans here.symm⟩)
      simp [absent, here]
    · next elsewhere => simp [elsewhere]

/-- A free key: the row is inserted. -/
theorem insertOrIgnore_free {t : Table key} {row : ρ} (free : t.find (key row) = none) :
    (t.insertOrIgnore row).rows = t.rows ++ [row] := by
  unfold insertOrIgnore
  split
  · next taken =>
    obtain ⟨other, there, same⟩ := List.mem_map.1 taken
    exact absurd same (find_none_iff.1 free other there)
  · rfl

/-- The rows of a table and one more. -/
theorem find_append {t u : Table key} {row : ρ} (rows : u.rows = t.rows ++ [row]) (k : κ) :
    u.find k = if key row = k then some row else t.find k := by
  split
  · next here => exact find_some_iff.2 ⟨by rw [rows]; simp, here⟩
  · next elsewhere => simp [find, rows, List.find?_append, elsewhere]

/-- An insert that succeeds appends a row whose key was free. -/
theorem insert_some {t u : Table key} {row : ρ} (inserted : t.insert row = some u) :
    u.rows = t.rows ++ [row] ∧ key row ∉ t.rows.map key := by
  simp only [insert] at inserted
  split at inserted
  · cases inserted
  · next free =>
    cases inserted
    exact ⟨by rw [insertOrIgnore, dif_neg free], free⟩

theorem mem_remove {t : Table key} {k : κ} {row : ρ} :
    row ∈ (t.remove k).rows ↔ row ∈ t.rows ∧ key row ≠ k := by
  simp [remove, delete]

/-- A put appends its row to those of other keys. -/
theorem put_rows (t : Table key) (row : ρ) :
    (t.put row).rows = (t.remove (key row)).rows ++ [row] := by
  have free : key row ∉ (t.remove (key row)).rows.map key := by
    intro taken
    obtain ⟨present, member, same⟩ := List.mem_map.1 taken
    exact (mem_remove.1 member).2 same
  rw [put, insertOrIgnore, dif_neg free]

theorem put_free {t : Table key} {row : ρ} (free : t.find (key row) = none) :
    (t.put row).rows = t.rows ++ [row] := by
  have rest : (t.remove (key row)).rows = t.rows :=
    List.filter_eq_self.2 fun other there => by simp [find_none_iff.1 free other there]
  rw [put_rows, rest]

/-- A row and what is left without it. -/
theorem perm_remove {t : Table key} {row : ρ} (there : row ∈ t.rows) :
    t.rows.Perm (row :: (t.remove (key row)).rows) := by
  rw [List.perm_ext_iff_of_nodup t.unique.of_map
    (List.nodup_cons.2 ⟨fun left => (mem_remove.1 left).2 rfl, (t.remove _).unique.of_map⟩)]
  intro other
  rw [List.mem_cons, mem_remove]
  constructor
  · intro here
    by_cases same : key other = key row
    · exact Or.inl (eq_of_key here there same)
    · exact Or.inr ⟨here, same⟩
  · rintro (rfl | ⟨here, _⟩)
    · exact there
    · exact here

theorem mem_put {t : Table key} {row other : ρ} :
    other ∈ (t.put row).rows ↔ (other ∈ t.rows ∧ key other ≠ key row) ∨ other = row := by
  rw [put_rows, List.mem_append, mem_remove, List.mem_singleton]

theorem find_put (t : Table key) (row : ρ) (k : κ) :
    (t.put row).find k = if key row = k then some row else t.find k := by
  split
  · next here => exact find_some_iff.2 ⟨mem_put.2 (Or.inr rfl), here⟩
  · next elsewhere =>
    ext other
    simp only [find_some_iff, mem_put]
    constructor
    · rintro ⟨⟨member, _⟩ | rfl, same⟩
      · exact ⟨member, same⟩
      · exact absurd same elsewhere
    · rintro ⟨member, same⟩
      exact ⟨Or.inl ⟨member, fun equal => elsewhere (equal.symm.trans same)⟩, same⟩

/-- Of several rows put with one key, the last one stays. -/
theorem find_foldl_put (rows : List ρ) (t : Table key) (k : κ) :
    (rows.foldl Table.put t).find k = ((rows.filter fun row => key row = k).getLast?).or (t.find k) := by
  induction rows using List.reverseRecOn with
  | nil => rfl
  | append_singleton rows row ih =>
    rw [List.foldl_append, List.foldl_cons, List.foldl_nil, find_put, List.filter_append]
    split
    · next here => simp [here]
    · next elsewhere => simp [elsewhere, ih]

/-! ## Counting around a key -/

/-- Taking a row out takes it out of every count that has it. -/
theorem count_remove {t : Table key} {row : ρ} (present : row ∈ t.rows) (condition : ρ → Bool) :
    (t.remove (key row)).count condition + (condition row).toNat = t.count condition := by
  have all := t.unique
  simp only [remove, delete, count]
  generalize t.rows = rows at all present
  induction rows with
  | nil => cases present
  | cons head tail ih =>
    rw [List.map_cons, List.nodup_cons] at all
    by_cases here : key head = key row
    · have same : head = row := by
        obtain rfl | later := List.mem_cons.1 present
        · rfl
        · exact absurd (List.mem_map.2 ⟨row, later, here.symm⟩) all.1
      subst same
      have rest : tail.filter (fun r => !decide (key r = key head)) = tail := by
        rw [List.filter_eq_self]
        intro r member
        have apart : key r ≠ key head := fun equal =>
          all.1 (List.mem_map.2 ⟨r, member, equal⟩)
        simp [apart]
      rw [List.filter_cons_of_neg (by simp), rest, List.countP_cons]
      cases condition head <;> rfl
    · have later : row ∈ tail := by
        obtain rfl | later := List.mem_cons.1 present
        · exact absurd rfl here
        · exact later
      rw [List.filter_cons_of_pos (by simp [here]), List.countP_cons, List.countP_cons]
      have count := ih all.2 later
      omega

omit [DecidableEq κ] in
theorem count_delete_le (t : Table key) (gone condition : ρ → Bool) :
    (t.delete gone).count condition ≤ t.count condition :=
  List.filter_sublist.countP_le

theorem count_put_le (t : Table key) (row : ρ) (condition : ρ → Bool) :
    (t.put row).count condition ≤ t.count condition + (condition row).toNat := by
  have fewer := t.count_delete_le (fun r => key r = key row) condition
  simp only [count, put_rows, List.countP_append, List.countP_singleton] at fewer ⊢
  have rest : (t.remove (key row)).rows = (t.delete fun r => key r = key row).rows := rfl
  rw [rest]
  cases condition row <;> simp <;> omega

/-- A condition that names one key selects at most one row. -/
theorem count_keyed {t : Table key} {condition : ρ → Bool} {k : κ}
    (named : ∀ r, condition r → key r = k) :
    t.count condition = if (t.find k).any condition then 1 else 0 := by
  have all := t.unique
  unfold count find
  generalize t.rows = rows at all ⊢
  induction rows with
  | nil => rfl
  | cons head tail ih =>
    rw [List.map_cons, List.nodup_cons] at all
    rw [List.countP_cons, List.find?_cons]
    by_cases here : key head = k
    · have rest : tail.countP condition = 0 := by
        rw [List.countP_eq_zero]
        intro r member holds
        exact all.1 (List.mem_map.2 ⟨r, member, (named r holds).trans here.symm⟩)
      simp [here, rest]
    · have skip : condition head = false := by
        by_contra holds
        exact here (named head (by simpa using holds))
      simp [here, skip, ih all.2]

omit [DecidableEq κ] in
/-- A statement whose condition selects no row leaves the table as it is. -/
theorem update_unselected {t : Table key} {condition : ρ → Bool} {assign : ρ → ρ}
    {keeps : ∀ r, key (assign r) = key r} (unselected : t.count condition = 0) :
    t.update condition assign keeps = t := by
  have rows : ∀ r ∈ t.rows, ¬condition r = true := List.countP_eq_zero.1 unselected
  apply Table.ext
  simp only [update]
  refine (List.map_congr_left ?_).trans (List.map_id _)
  intro r member
  simp [rows r member]

omit [DecidableEq κ] in
theorem delete_unselected {t : Table key} {condition : ρ → Bool}
    (unselected : t.count condition = 0) : t.delete condition = t := by
  have rows : ∀ r ∈ t.rows, ¬condition r = true := List.countP_eq_zero.1 unselected
  apply Table.ext
  simp only [delete]
  rw [List.filter_eq_self]
  intro r member
  simp [rows r member]

/-- A keyed condition selects nothing, or the row of that key. -/
theorem count_keyed_cases {t : Table key} {condition : ρ → Bool} {k : κ}
    (named : ∀ r, condition r → key r = k) :
    t.count condition = 0 ∨
      (t.count condition = 1 ∧ ∃ row, t.find k = some row ∧ condition row = true) := by
  have count := @count_keyed _ _ _ _ t _ _ named
  cases found : t.find k with
  | none =>
    left
    simpa [found] using count
  | some row =>
    cases selected : condition row with
    | true =>
      right
      exact ⟨by simpa [found, selected] using count, row, rfl, selected⟩
    | false =>
      left
      simpa [found, selected] using count

/-- An update whose condition names one key changes nothing, or the row of that key only. -/
theorem update_keyed {t : Table key} {condition : ρ → Bool} {assign : ρ → ρ}
    {keeps : ∀ r, key (assign r) = key r} {k : κ} (named : ∀ r, condition r → key r = k) :
    (t.count condition = 0 ∧ t.update condition assign keeps = t) ∨
      (t.count condition = 1 ∧ ∃ row, t.find k = some row ∧ condition row = true ∧
        (t.update condition assign keeps).find k = some (assign row) ∧
        ∀ other, other ≠ k → (t.update condition assign keeps).find other = t.find other) := by
  rcases @count_keyed_cases _ _ _ _ t _ _ named with zero | ⟨one, row, found, selected⟩
  · exact Or.inl ⟨zero, update_unselected zero⟩
  · refine Or.inr ⟨one, row, found, selected, ?_, ?_⟩
    · rw [find_update, found]
      simp [selected]
    · intro other different
      refine find_update_ne keeps ?_
      intro r same
      by_contra holds
      exact different (same.symm.trans (named r (by simpa using holds)))

/-- A keyed update that selects the row of its key changes this row only. -/
theorem update_rows_keyed {t : Table key} {condition : ρ → Bool} {assign : ρ → ρ}
    {keeps : ∀ r, key (assign r) = key r} {k : κ} {row : ρ} (named : ∀ r, condition r → key r = k)
    (found : t.find k = some row) (chosen : condition row = true) :
    t.count condition = 1 ∧ (t.update condition assign keeps).rows =
      t.rows.map fun r => if key r = k then assign r else r := by
  refine ⟨by rw [count_keyed named, found, Option.any_some, chosen, if_pos rfl], ?_⟩
  refine List.map_congr_left fun r member => ?_
  by_cases here : key r = k
  · have same : r = row := eq_of_key member (mem_of_find found) (here.trans (find_key found).symm)
    rw [if_pos here, same, if_pos chosen]
  · rw [if_neg here, if_neg fun selected => here (named r selected)]

/-- A delete whose condition names one key removes nothing, or the row of that key only. -/
theorem delete_keyed {t : Table key} {condition : ρ → Bool} {k : κ}
    (named : ∀ r, condition r → key r = k) :
    (t.count condition = 0 ∧ t.delete condition = t) ∨
      (t.count condition = 1 ∧ ∃ row, t.find k = some row ∧ condition row = true ∧
        (t.delete condition).find k = none ∧
        ∀ other, other ≠ k → (t.delete condition).find other = t.find other) := by
  rcases @count_keyed_cases _ _ _ _ t _ _ named with zero | ⟨one, row, found, selected⟩
  · exact Or.inl ⟨zero, delete_unselected zero⟩
  · refine Or.inr ⟨one, row, found, selected, ?_, ?_⟩
    · rw [find_delete, found]
      simp [selected]
    · intro other different
      rw [find_delete]
      cases present : t.find other with
      | none => rfl
      | some r =>
        have unselected : condition r = false := by
          by_contra holds
          have same := named r (by simpa using holds)
          exact different ((find_key present).symm.trans same)
        simp [unselected]

end Table

end CodexRemote.Foundations

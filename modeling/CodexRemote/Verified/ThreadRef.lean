import CodexRemote.CodexState.ThreadRef

/-! # References that are displayed

The reference of a thread is its workspace's name, with a number where the name alone would not do,
or its id.  Every way to read it back is looked at, of which one can mean another thread.
-/

namespace CodexRemote.Verified.ThreadRef

open Foundations CodexState
open Discord (Unicode asciiUnicode trim trimStart trimEnd isWhitespace trim_visible)

variable {unicode : Unicode} {paths : Paths} {threads : List ThreadInfo}

/-! ## Texts of ASCII -/

variable {c : Char} {text : List Char}

theorem hexdigit_small (digit : isAsciiHexdigit c = true) : c.toNat < 128 := by
  simp only [isAsciiHexdigit, Char.isDigit, Bool.or_eq_true, Bool.and_eq_true, decide_eq_true_eq,
    Char.le_def, UInt32.le_iff_toNat_le, ge_iff_le] at digit
  have nine : '9'.val.toNat < 128 := by decide
  have small : 'f'.val.toNat < 128 := by decide
  have capital : 'F'.val.toNat < 128 := by decide
  show c.val.toNat < 128
  omega

theorem hexdigits : ∀ n < 128, isAsciiHexdigit (Char.ofNat n) = true →
    isAsciiHexdigit (Char.ofNat n).toLower = true ∧ Char.ofNat n ≠ ':' ∧
      ((Char.ofNat n).isDigit = true → (Char.ofNat n).toLower = Char.ofNat n) := by decide

theorem hexdigit_cases (digit : isAsciiHexdigit c = true) :
    c.val < 128 ∧ isAsciiHexdigit c.toLower = true ∧ c ≠ ':' ∧
      (c.isDigit = true → c.toLower = c) := by
  have small := hexdigit_small digit
  have known := hexdigits c.toNat small
  rw [Char.ofNat_toNat] at known
  exact ⟨UInt32.lt_iff_toNat_lt.2 small, known digit⟩

theorem hexdigit_of_digit (digit : c.isDigit = true) : isAsciiHexdigit c = true := by
  rw [isAsciiHexdigit, digit]
  rfl

/-- The characters of ids -/
def Plain (text : List Char) : Prop := ∀ c ∈ text, isAsciiHexdigit c = true ∨ c = '-'

theorem Plain.lowercase (plain : Plain text) :
    unicode.lowercase text = text.map Char.toLower := by
  refine unicode.lowercase_ascii text fun c member => ?_
  obtain digit | rfl := plain c member
  · exact (hexdigit_cases digit).1
  · decide

theorem Plain.uncolonned (plain : Plain text) : ':' ∉ text := by
  intro member
  obtain digit | same := plain _ member
  · exact (hexdigit_cases digit).2.2.1 rfl
  · cases same

theorem plain_of_uuid (uuid : isFullUuid text = true) : Plain text := by
  simp only [isFullUuid, Bool.and_eq_true, List.all_eq_true] at uuid
  intro c member
  obtain ⟨index, found⟩ := List.mem_iff_getElem?.1 member
  have here := uuid.2 (c, index) (List.mk_mem_zipIdx_iff_getElem?.2 found)
  dsimp only at here
  split at here
  · exact .inr (of_decide_eq_true here)
  · exact .inl here

theorem plain_of_digits (digits : text.all Char.isDigit = true) : Plain text :=
  fun c member => .inl (hexdigit_of_digit (List.all_eq_true.1 digits c member))

theorem plain_of_short (short : isShortId text = true) : Plain text := by
  simp only [isShortId, Bool.and_eq_true, List.all_eq_true, Bool.or_eq_true,
    decide_eq_true_eq] at short
  exact short.2

theorem lower_plain (plain : isAsciiHexdigit c = true ∨ c = '-') :
    isAsciiHexdigit c.toLower = true ∨ c.toLower = '-' := by
  obtain digit | rfl := plain
  · exact .inl (hexdigit_cases digit).2.1
  · exact .inr rfl

theorem uuid_lower (uuid : isFullUuid text = true) :
    isFullUuid (text.map Char.toLower) = true := by
  simp only [isFullUuid, Bool.and_eq_true, List.all_eq_true, List.length_map] at uuid ⊢
  refine ⟨uuid.1, ?_⟩
  rintro ⟨c, index⟩ member
  rw [List.mk_mem_zipIdx_iff_getElem?, List.getElem?_map, Option.map_eq_some_iff] at member
  obtain ⟨c, found, rfl⟩ := member
  have here := uuid.2 (c, index) (List.mk_mem_zipIdx_iff_getElem?.2 found)
  dsimp only at here ⊢
  by_cases dash : index ∈ [8, 13, 18, 23]
  · rw [if_pos dash] at here ⊢
    rw [of_decide_eq_true here]
    rfl
  · rw [if_neg dash] at here ⊢
    exact (hexdigit_cases here).2.1

/-- What is read as a kind of reference by its characters is so in lower case too. -/
theorem reserved_of_kind
    (kind : isFullUuid text = true ∨ text.all Char.isDigit = true ∨ isShortId text = true) :
    reserved (unicode.lowercase text) = true := by
  simp only [reserved, Bool.or_eq_true]
  obtain uuid | digits | short := kind
  · rw [(plain_of_uuid uuid).lowercase]
    exact .inl (.inr (uuid_lower uuid))
  · rw [(plain_of_digits digits).lowercase]
    refine .inl (.inl (.inr (List.all_eq_true.2 fun c member => ?_)))
    obtain ⟨c, there, rfl⟩ := List.mem_map.1 member
    have digit := List.all_eq_true.1 digits c there
    rw [(hexdigit_cases (hexdigit_of_digit digit)).2.2.2 digit]
    exact digit
  · rw [(plain_of_short short).lowercase]
    have plain := plain_of_short short
    simp only [isShortId, Bool.and_eq_true, decide_eq_true_eq, List.length_map, List.all_eq_true,
      Bool.or_eq_true] at short ⊢
    refine .inr ⟨short.1, fun c member => ?_⟩
    obtain ⟨c, there, rfl⟩ := List.mem_map.1 member
    exact lower_plain (plain c there)

/-! ## Numbers -/

theorem numbers_threads (seen : List Char → Nat) (threads : List ThreadInfo) :
    (numberWorkspaces unicode seen threads).map Prod.fst = threads := by
  induction threads generalizing seen with
  | nil => rfl
  | cons thread rest ih => rw [numberWorkspaces, List.map_cons, ih]

/-- The key of a thread's workspace -/
def key (unicode : Unicode) (thread : ThreadInfo) : List Char :=
  unicode.lowercase (workspaceName thread)

theorem numbers_later (seen : List Char → Nat) (threads : List ThreadInfo) :
    ∀ entry ∈ numberWorkspaces unicode seen threads, seen (key unicode entry.1) < entry.2 := by
  induction threads generalizing seen with
  | nil => exact List.forall_mem_nil _
  | cons thread rest ih =>
    rw [numberWorkspaces]
    refine List.forall_mem_cons.2 ⟨Nat.lt_succ_self _, fun entry member => ?_⟩
    have later := ih _ entry member
    by_cases same : key unicode entry.1 = unicode.lowercase (workspaceName thread)
    · rw [same, Function.update_self] at later
      rw [same]
      exact Nat.lt_of_succ_lt later
    · rwa [Function.update_of_ne same] at later

/-- The threads of a workspace have different numbers. -/
theorem numbers_increase (seen : List Char → Nat) (threads : List ThreadInfo) :
    (numberWorkspaces unicode seen threads).Pairwise fun a b =>
      key unicode a.1 = key unicode b.1 → a.2 < b.2 := by
  induction threads generalizing seen with
  | nil => exact .nil
  | cons thread rest ih =>
    rw [numberWorkspaces]
    refine .cons (fun entry member same => ?_) (ih _)
    have later := numbers_later _ rest entry member
    rw [← same] at later
    simpa [key] using later

/-- One number for a thread in a workspace -/
theorem numbers_differ {a b : ThreadInfo × Nat} {seen : List Char → Nat}
    (there : a ∈ numberWorkspaces unicode seen threads)
    (here : b ∈ numberWorkspaces unicode seen threads)
    (same : key unicode a.1 = key unicode b.1) (number : a.2 = b.2) : a = b := by
  have increase := List.pairwise_iff_getElem.1 (@numbers_increase unicode seen threads)
  obtain ⟨i, first, rfl⟩ := List.getElem_of_mem there
  obtain ⟨j, second, rfl⟩ := List.getElem_of_mem here
  obtain before | rfl | after := Nat.lt_trichotomy i j
  · exact absurd (increase i j first second before same) (by omega)
  · rfl
  · exact absurd (increase j i second first after same.symm) (by omega)

/-! ## The map of references -/

theorem mem_collected {entries : List WorkspaceRef} (table : Table WorkspaceRef.id)
    (distinct : (entries.map (·.id)).Nodup) (row : WorkspaceRef) :
    row ∈ (entries.foldl Table.put table).rows ↔
      row ∈ entries ∨ row ∈ table.rows ∧ row.id ∉ entries.map (·.id) := by
  induction entries generalizing table with
  | nil => simp
  | cons entry rest ih =>
    rw [List.map_cons, List.nodup_cons] at distinct
    rw [List.foldl_cons, ih _ distinct.2, Table.mem_put, List.mem_cons, List.map_cons,
      List.mem_cons]
    by_cases same : row = entry
    · subst same
      simp [distinct.1]
    · simp only [same, or_false, false_or, not_or, and_assoc]

/-- The entry of a thread, before it is compared with the other threads -/
theorem find_ref {thread : ThreadInfo} (distinct : (threads.map (·.id)).Nodup)
    (member : thread ∈ threads) :
    ∃ number, (thread, number) ∈ numberWorkspaces unicode (fun _ => 0) threads ∧
      (workspaceRefMap unicode threads).find thread.id =
        some (if collision unicode threads (workspaceRef unicode threads (thread, number)) then
          ⟨thread.id, thread.id⟩ else workspaceRef unicode threads (thread, number)) := by
  have numbered : thread ∈ (numberWorkspaces unicode (fun _ => 0) threads).map Prod.fst := by
    rwa [numbers_threads]
  obtain ⟨⟨other, number⟩, there, same⟩ := List.mem_map.1 numbered
  change other = thread at same
  rw [same] at there
  refine ⟨number, there, ?_⟩
  have ids : (((numberWorkspaces unicode (fun _ => 0) threads).map
      (workspaceRef unicode threads)).map (·.id)).Nodup := by
    rw [List.map_map, show WorkspaceRef.id ∘ workspaceRef unicode threads =
      ThreadInfo.id ∘ Prod.fst from rfl, ← List.map_map, numbers_threads]
    exact distinct
  have found := (mem_collected .empty ids (workspaceRef unicode threads (thread, number))).2
    (.inl (List.mem_map_of_mem there))
  have entry : Table.find _ thread.id = some _ := Table.find_some_iff.2 ⟨found, rfl⟩
  rw [workspaceRefMap, Table.find_update, entry]
  rfl

/-! ## An alias that is displayed -/

/-- The reference of an entry is the name of the workspace, numbered where it has to be. -/
theorem reference_cases (thread : ThreadInfo) (number : Nat) :
    (workspaceRef unicode threads (thread, number)).reference =
        workspaceName thread ++ ':' :: Nat.toDigits 10 number ∨
      (workspaceRef unicode threads (thread, number)).reference = workspaceName thread ∧
        reserved (key unicode thread) = false ∧
        workspaceTotal unicode threads (key unicode thread) ≤ 1 := by
  rw [workspaceRef]
  dsimp only
  split
  · exact .inl rfl
  · next free =>
    rw [Bool.not_eq_true, Bool.or_eq_false_iff, decide_eq_false_iff_not, Nat.not_lt] at free
    exact .inr ⟨rfl, free⟩

theorem digits_isDigit (number : Nat) : ∀ c ∈ Nat.toDigits 10 number, c.isDigit = true :=
  fun _ member => isDigit_toDigits member

theorem lowercase_numbered (text : List Char) (number : Nat) :
    unicode.lowercase (text ++ ':' :: Nat.toDigits 10 number) =
      unicode.lowercase text ++ ':' :: Nat.toDigits 10 number :=
  unicode.lowercase_numbered text _ (digits_isDigit number)

theorem colon_not_digit (number : Nat) : ':' ∉ Nat.toDigits 10 number := by
  intro member
  have digit := digits_isDigit number _ member
  revert digit
  decide

/-- A text and a number are read back from behind. -/
theorem numbered_injective {a b : List Char} {m n : Nat}
    (same : a ++ ':' :: Nat.toDigits 10 m = b ++ ':' :: Nat.toDigits 10 n) : a = b ∧ m = n := by
  have number : a = b → m = n := by
    rintro rfl
    have digits := (List.cons.inj (List.append_cancel_left same)).2
    exact Option.some.inj ((digitsValue_toDigits m).symm.trans
      ((congrArg digitsValue digits).trans (digitsValue_toDigits n)))
  have shape : a = b := by
    obtain ⟨c, longer, rest⟩ | ⟨c, longer, rest⟩ := List.append_eq_append_iff.1 same
    · cases c with
      | nil => rw [longer, List.append_nil]
      | cons x c =>
        have digits := (List.cons.inj rest).2
        exact absurd (digits ▸ List.mem_append_right c (List.mem_cons_self ..))
          (colon_not_digit m)
    · cases c with
      | nil => rw [longer, List.append_nil]
      | cons x c =>
        have digits := (List.cons.inj rest).2
        exact absurd (digits ▸ List.mem_append_right c (List.mem_cons_self ..))
          (colon_not_digit n)
  exact ⟨shape, number shape⟩

/-- An alias is not read as another kind of reference. -/
theorem reference_kind (thread : ThreadInfo) (number : Nat) :
    let reference := (workspaceRef unicode threads (thread, number)).reference
    isFullUuid reference = false ∧ isAlternate (unicode.lowercase reference) = false ∧
      reference.all Char.isDigit = false ∧ isShortId reference = false := by
  intro reference
  obtain numbered | ⟨named, free, -⟩ := reference_cases
    thread number
  · have colon : ':' ∈ reference := by
      rw [show reference = _ from numbered]
      exact List.mem_append_right _ (List.mem_cons_self ..)
    have lower : ':' ∈ unicode.lowercase reference := by
      rw [show reference = _ from numbered, lowercase_numbered]
      exact List.mem_append_right _ (List.mem_cons_self ..)
    refine ⟨?_, ?_, ?_, ?_⟩
    · exact eq_false_of_ne_true fun uuid => (plain_of_uuid uuid).uncolonned colon
    · refine eq_false_of_ne_true fun alternate => ?_
      simp only [isAlternate, Bool.or_eq_true, decide_eq_true_eq] at alternate
      obtain other | next_ := alternate
      · rw [other] at lower
        revert lower
        decide
      · rw [next_] at lower
        revert lower
        decide
    · exact eq_false_of_ne_true fun digits => (plain_of_digits digits).uncolonned colon
    · exact eq_false_of_ne_true fun short => (plain_of_short short).uncolonned colon
  · have unreserved : reserved (unicode.lowercase reference) = false := by
      rw [show reference = _ from named]
      exact free
    have kind := fun other => ne_true_of_eq_false unreserved (reserved_of_kind other)
    refine ⟨eq_false_of_ne_true fun uuid => kind (.inl uuid), ?_,
      eq_false_of_ne_true fun digits => kind (.inr (.inl digits)),
      eq_false_of_ne_true fun short => kind (.inr (.inr short))⟩
    simp only [reserved, Bool.or_eq_false_iff] at unreserved
    exact unreserved.1.1.1

/-- What an alias without a collision is -/
theorem free_alias {entry : WorkspaceRef} (free : collision unicode threads entry = false) :
    (∀ c ∈ entry.reference, isWhitespace c = false) ∧
      ∀ other ∈ threads, other.id ≠ entry.id →
        unicode.lowercase other.id ≠ unicode.lowercase entry.reference ∧
          key unicode other ≠ unicode.lowercase entry.reference := by
  rw [collision, Bool.or_eq_false_iff, Bool.not_eq_false'] at free
  obtain ⟨characters, apart⟩ := free
  refine ⟨fun c member => ?_, fun other member differs => ?_⟩
  · have allowed := List.all_eq_true.1 characters c member
    simp only [Bool.or_eq_true, decide_eq_true_eq] at allowed
    obtain (((alphanumeric | rfl) | rfl) | rfl) | rfl := allowed
    · exact unicode.alphanumeric_visible c alphanumeric
    · decide
    · decide
    · decide
    · decide
  · have here := List.any_eq_false.1 apart other member
    simp only [Bool.and_eq_true, Bool.or_eq_true, decide_eq_true_eq, not_and, not_or] at here
    exact here differs

theorem thread_of_number {seen : List Char → Nat} {entry : ThreadInfo × Nat}
    (there : entry ∈ numberWorkspaces unicode seen threads) : entry.1 ∈ threads := by
  have member := List.mem_map_of_mem (f := Prod.fst) there
  rwa [numbers_threads] at member

/-- Two aliases without a collision differ. -/
theorem aliases_differ {a b : ThreadInfo} {m n : Nat}
    (there : (a, m) ∈ numberWorkspaces unicode (fun _ => 0) threads)
    (here : (b, n) ∈ numberWorkspaces unicode (fun _ => 0) threads) (apart : a.id ≠ b.id)
    (freeA : collision unicode threads (workspaceRef unicode threads (a, m)) = false)
    (freeB : collision unicode threads (workspaceRef unicode threads (b, n)) = false) :
    unicode.lowercase (workspaceRef unicode threads (b, n)).reference ≠
      unicode.lowercase (workspaceRef unicode threads (a, m)).reference := by
  intro same
  have keyB := ((free_alias freeA).2 b (thread_of_number here) apart.symm).2
  have keyA := ((free_alias freeB).2 a (thread_of_number there) apart).2
  obtain numberedA | ⟨namedA, -⟩ := reference_cases a m
  · obtain numberedB | ⟨namedB, -⟩ := reference_cases b n
    · rw [numberedA, numberedB, lowercase_numbered, lowercase_numbered] at same
      obtain ⟨workspace, number⟩ := numbered_injective same
      exact apart (congrArg (·.1.id) (numbers_differ there here workspace.symm number.symm))
    · rw [namedB] at same
      exact keyB same
  · rw [namedA] at same
    exact keyA same.symm

/-- An alias matches its own thread, and those whose directory it names as a path. -/
theorem matches_alias {thread other : ThreadInfo} {number : Nat}
    (distinct : (threads.map (·.id)).Nodup)
    (there : (thread, number) ∈ numberWorkspaces unicode (fun _ => 0) threads)
    (free : collision unicode threads (workspaceRef unicode threads (thread, number)) = false)
    (member : other ∈ threads) :
    let reference := (workspaceRef unicode threads (thread, number)).reference
    matchesReference unicode paths threads reference other = true ↔
      other = thread ∨ normalizeWorkspacePath unicode paths other.cwd =
        normalizeWorkspacePath unicode paths reference := by
  intro reference
  have same_id : other.id = thread.id → other = thread := fun same =>
    List.inj_on_of_nodup_map distinct member (thread_of_number there) same
  have apart := (free_alias free).2 other member
  obtain ⟨n, here, found⟩ := @find_ref unicode threads other distinct member
  simp only [matchesReference, Bool.or_eq_true, Bool.and_eq_true, decide_eq_true_eq, found,
    Option.any_some]
  constructor
  · rintro (((⟨short, -⟩ | named) | path) | workspace)
    · exact absurd short (ne_true_of_eq_false (reference_kind thread number).2.2.2)
    · refine .inl (same_id (by_contra fun differs => ?_))
      by_cases taken : collision unicode threads (workspaceRef unicode threads (other, n)) = true
      · rw [if_pos taken] at named
        exact (apart differs).1 named
      · rw [if_neg taken] at named
        exact aliases_differ there here (Ne.symm differs) free (eq_false_of_ne_true taken) named
    · exact .inr path
    · exact .inl (same_id (by_contra fun differs => (apart differs).2 workspace))
  · rintro (rfl | path)
    · refine .inl (.inl (.inr ?_))
      have numbers : ((numberWorkspaces unicode (fun _ => 0) threads).map Prod.fst).Nodup := by
        rw [numbers_threads]
        exact distinct.of_map
      obtain rfl : n = number :=
        (Prod.mk.inj (List.inj_on_of_nodup_map numbers here there rfl)).2
      rw [if_neg (ne_true_of_eq_false free)]
    · exact .inl (.inr path)

/-! ## Resolving -/

/-- The thread is the only one of the list that the reference means. -/
def Only (threads : List ThreadInfo) (means : ThreadInfo → Bool) (thread : ThreadInfo) : Prop :=
  thread ∈ threads ∧ means thread = true ∧ ∀ other ∈ threads, means other = true → other = thread

theorem unique_iff {means : ThreadInfo → Bool} {reference : List Char} {thread : ThreadInfo}
    (distinct : threads.Nodup) :
    uniqueReference (threads.filter means) reference = .ok (some thread) ↔
      Only threads means thread := by
  have only : Only threads means thread ↔
      thread ∈ threads.filter means ∧ ∀ other ∈ threads.filter means, other = thread := by
    simp only [Only, List.mem_filter, and_imp, and_assoc]
  have nodup := distinct.filter means
  rw [only]
  generalize threads.filter means = matched at nodup ⊢
  cases matched with
  | nil => simp [uniqueReference]
  | cons first rest =>
    cases rest with
    | nil => simp [uniqueReference, eq_comm]
    | cons second rest =>
      have apart : first ≠ second := fun same =>
        (List.nodup_cons.1 nodup).1 (same ▸ List.mem_cons_self ..)
      refine iff_of_false (fun unique => by cases unique) ?_
      rintro ⟨-, same⟩
      exact apart ((same first (by simp)).trans (same second (by simp)).symm)

/-- The reference names a thread by its id or as a whole: it is an id, an index or the other one. -/
def Direct (unicode : Unicode) (threads : List ThreadInfo) (reference : List Char) : Prop :=
  (∃ thread ∈ threads, thread.id = reference) ∨ isFullUuid reference = true ∨
    isAlternate (unicode.lowercase reference) = true ∨ reference.all Char.isDigit = true

theorem resolve_matched {selected : Option (List Char)} {archived : Bool}
    {thread : ThreadInfo} (distinct : threads.Nodup) (indirect : ¬ Direct unicode threads (trim text)) :
    resolveThreadRef unicode paths threads text selected archived = .ok thread ↔
      Only threads (matchesReference unicode paths threads (trim text)) thread := by
  simp only [Direct, not_or, not_exists, not_and, Bool.not_eq_true] at indirect
  obtain ⟨ids, uuid, alternate, digits⟩ := indirect
  have unfound : threads.find? (fun thread => thread.id = trim text) = none :=
    List.find?_eq_none.2 fun x member => by simpa using ids x member
  rw [← @unique_iff threads _ (trim text) thread distinct, resolveThreadRef]
  by_cases none_ : threads = []
  · subst none_
    simp [uniqueReference]
  · rw [if_neg (by simpa using none_)]
    dsimp only
    rw [unfound, if_neg (ne_true_of_eq_false uuid), if_neg (ne_true_of_eq_false alternate),
      if_neg (ne_true_of_eq_false digits)]
    cases uniqueReference (threads.filter (matchesReference unicode paths threads (trim text)))
      (trim text) with
    | error refused => simp [bind, Except.bind]
    | ok found => cases found <;> simp [bind, Except.bind, okOr]

theorem resolve_id {selected : Option (List Char)} {archived : Bool}
    {thread : ThreadInfo} (distinct : (threads.map (·.id)).Nodup) (member : thread ∈ threads)
    (id : trim text = thread.id) :
    resolveThreadRef unicode paths threads text selected archived = .ok thread := by
  have filled : threads.isEmpty = false := by
    cases threads with
    | nil => cases member
    | cons => rfl
  have found : threads.find? (fun other => other.id = thread.id) = some thread := by
    cases found : threads.find? (fun other => other.id = thread.id) with
    | none => exact absurd (decide_eq_true rfl) (List.find?_eq_none.1 found thread member)
    | some other =>
      have same : other.id = thread.id := by simpa using List.find?_some found
      rw [List.inj_on_of_nodup_map distinct (List.mem_of_find?_eq_some found) member same]
  rw [resolveThreadRef, filled]
  dsimp only
  rw [id, found]
  rfl

/-- The reference that is displayed for a thread -/
def displayed (unicode : Unicode) (threads : List ThreadInfo) (thread : ThreadInfo) : List Char :=
  (((workspaceRefMap unicode threads).find thread.id).map (·.reference)).getD []

/-- No other thread's directory is the path that the reference of the thread names. -/
def Pathless (unicode : Unicode) (paths : Paths) (threads : List ThreadInfo)
    (thread : ThreadInfo) : Prop :=
  displayed unicode threads thread = thread.id ∨ ∀ other ∈ threads, other ≠ thread →
    normalizeWorkspacePath unicode paths other.cwd ≠
      normalizeWorkspacePath unicode paths (displayed unicode threads thread)

theorem displayed_resolves_iff {selected : Option (List Char)} {archived : Bool}
    {thread : ThreadInfo} (distinct : (threads.map (·.id)).Nodup)
    (trimmed : trim thread.id = thread.id) (member : thread ∈ threads) :
    resolveThreadRef unicode paths threads (displayed unicode threads thread) selected archived =
        .ok thread ↔ Pathless unicode paths threads thread := by
  obtain ⟨number, there, found⟩ := find_ref distinct member
  by_cases taken : collision unicode threads (workspaceRef unicode threads (thread, number)) = true
  · have shown : displayed unicode threads thread = thread.id := by
      rw [displayed, found, if_pos taken]
      rfl
    rw [shown]
    exact iff_of_true (resolve_id distinct member trimmed) (.inl shown)
  · have free := eq_false_of_ne_true taken
    have shown : displayed unicode threads thread =
        (workspaceRef unicode threads (thread, number)).reference := by
      rw [displayed, found, if_neg taken]
      rfl
    have whole : trim (displayed unicode threads thread) = displayed unicode threads thread := by
      rw [shown]
      exact trim_visible (free_alias free).1
    by_cases own : displayed unicode threads thread = thread.id
    · exact iff_of_true (resolve_id distinct member (whole.trans own)) (.inl own)
    · obtain ⟨uuid, alternate, digits, -⟩ :=
        reference_kind thread number
      have indirect : ¬ Direct unicode threads (trim (displayed unicode threads thread)) := by
        rw [whole, Direct, shown, uuid, alternate, digits]
        simp only [Bool.false_eq_true, or_false, not_exists, not_and]
        intro other here same
        by_cases self : other.id = thread.id
        · exact own (shown.trans (same.symm.trans self))
        · exact ((free_alias free).2 other here self).1 (congrArg unicode.lowercase same)
      rw [resolve_matched distinct.of_map indirect, whole, Pathless, or_iff_right own, shown, Only]
      have matched := fun other here =>
        @matches_alias unicode paths threads thread other number distinct there free here
      constructor
      · rintro ⟨-, -, only⟩ other here apart path
        exact apart (only other here ((matched other here).2 (.inr path)))
      · intro apart
        refine ⟨member, (matched thread member).2 (.inl rfl), fun other here named => ?_⟩
        obtain same | path := (matched other here).1 named
        · exact same
        · exact by_contra fun differs => apart other here differs path

/-- Every displayed reference is resolved to its own thread, and every other reference only to the
one thread that it means, just when no displayed alias is the path of another thread's directory. -/
theorem references_resolve_iff (unicode : Unicode) (paths : Paths) (threads : List ThreadInfo)
    (selected : Option (List Char)) (archived : Bool) (distinct : (threads.map (·.id)).Nodup)
    (trimmed : ∀ thread ∈ threads, thread.id ≠ [] ∧ trim thread.id = thread.id) :
    ((∀ thread ∈ threads, ((workspaceRefMap unicode threads).find thread.id).isSome ∧
        resolveThreadRef unicode paths threads (displayed unicode threads thread) selected archived =
          .ok thread) ∧
      ∀ text thread, ¬ Direct unicode threads (trim text) →
        resolveThreadRef unicode paths threads text selected archived = .ok thread →
          Only threads (matchesReference unicode paths threads (trim text)) thread) ↔
      ∀ thread ∈ threads, Pathless unicode paths threads thread := by
  have resolves := fun thread member =>
    @displayed_resolves_iff unicode paths threads selected archived thread distinct
      (trimmed thread member).2 member
  constructor
  · rintro ⟨own, -⟩ thread member
    exact (resolves thread member).1 (own thread member).2
  · intro pathless
    refine ⟨fun thread member => ⟨?_, (resolves thread member).2 (pathless thread member)⟩,
      fun text thread indirect => (resolve_matched distinct.of_map indirect).1⟩
    obtain ⟨number, -, found⟩ := find_ref distinct member
    rw [found]
    rfl

/-! ## A workspace that is named by another thread's path -/

def repoThread : ThreadInfo := ⟨"id-a".toList, "/repos/project".toList⟩

/-- The second directory is relative, and names the first workspace as a path. -/
def pathThreads : List ThreadInfo := [repoThread, ⟨"id-b".toList, "project/.".toList⟩]

/-- The alias of the first thread is ambiguous. -/
theorem alias_is_a_path :
    (pathThreads.map (·.id)).Nodup ∧
      (∀ thread ∈ pathThreads, thread.id ≠ [] ∧ trim thread.id = thread.id) ∧
      displayed asciiUnicode pathThreads repoThread = "project".toList ∧
      resolveThreadRef asciiUnicode unixPaths pathThreads
        (displayed asciiUnicode pathThreads repoThread) none false =
          .error (.ambiguous "project".toList "id-a, id-b".toList) := by
  decide +kernel

/-- Two threads in directories of one name -/
def namesakes : List ThreadInfo := [repoThread, ⟨"id-b".toList, "/work/project".toList⟩]

theorem namesakes_resolve :
    (namesakes.map fun thread => displayed asciiUnicode namesakes thread) =
        ["project:1".toList, "project:2".toList] ∧
      (∀ thread ∈ namesakes, ((workspaceRefMap asciiUnicode namesakes).find thread.id).isSome ∧
        resolveThreadRef asciiUnicode unixPaths namesakes (displayed asciiUnicode namesakes thread)
          none false = .ok thread) ∧
      ∀ text thread, ¬ Direct asciiUnicode namesakes (trim text) →
        resolveThreadRef asciiUnicode unixPaths namesakes text none false = .ok thread →
          Only namesakes (matchesReference asciiUnicode unixPaths namesakes (trim text)) thread := by
  have pathless : ∀ thread ∈ namesakes, Pathless asciiUnicode unixPaths namesakes thread := by
    unfold Pathless
    decide +kernel
  exact ⟨by decide +kernel, (references_resolve_iff asciiUnicode unixPaths namesakes none false
    (by decide) (by decide)).2 pathless⟩

end CodexRemote.Verified.ThreadRef

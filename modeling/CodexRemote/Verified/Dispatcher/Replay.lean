import CodexRemote.Foundations.Recency
import CodexRemote.Foundations.Runs
import CodexRemote.RemoteAgent.Dispatcher

/-! # Replay of mutations

The cache of a project is determined by its history: it has the most recently used commands, each
with the result that was remembered for it last.
-/

namespace CodexRemote.Verified.Dispatcher

open Foundations RemoteAgent

/-! ## Results by command -/

abbrev Cached := List (CacheKey × CachedResult)

theorem lookup_filter (values : Cached) (gone key : CacheKey) :
    (values.filter fun entry => entry.1 ≠ gone).lookup key =
      if key = gone then none else values.lookup key := by
  induction values with
  | nil => simp
  | cons entry values ih =>
    obtain ⟨name, cached⟩ := entry
    rw [List.filter_cons]
    by_cases own : name = gone
    · subst own
      simp only [ne_eq, not_true_eq_false, decide_false, Bool.false_eq_true, if_false]
      rw [ih]
      by_cases same : key = name
      · simp [same]
      · simp [same, List.lookup_cons, beq_eq_false_iff_ne.2 same]
    · simp only [ne_eq, own, not_false_eq_true, decide_true, if_true, List.lookup_cons]
      by_cases same : key = name
      · subst same
        simp [own]
      · rw [beq_eq_false_iff_ne.2 same]
        exact ih

variable {key : CacheKey} {cache : MutationCache} {event : CacheEvent} {events : List CacheEvent}

theorem mem_keys_iff {values : Cached} :
    key ∈ values.map (·.1) ↔ (values.lookup key).isSome := by
  induction values with
  | nil => simp
  | cons entry values ih =>
    obtain ⟨name, cached⟩ := entry
    rw [List.map_cons, List.mem_cons, ih, List.lookup_cons]
    by_cases same : key = name
    · simp [same]
    · simp [same, beq_eq_false_iff_ne.2 same]

theorem evict_order (order : List CacheKey) (values : Cached) :
    (MutationCache.evict order values).order = order.rtake maxCachedResults := by
  induction order generalizing values with
  | nil => rfl
  | cons oldest order ih =>
    rw [MutationCache.evict]
    split
    · next long =>
      rw [List.length_cons] at long
      rw [ih, List.rtake, List.rtake, List.length_cons, Nat.succ_sub (by omega), List.drop_succ_cons]
    · next short => exact (rtake_of_length_le (Nat.le_of_not_lt short)).symm

theorem evict_lookup (order : List CacheKey) (values : Cached) (key : CacheKey) :
    (MutationCache.evict order values).values.lookup key =
      if key ∈ order.take (order.length - maxCachedResults) then none else values.lookup key := by
  induction order generalizing values with
  | nil => simp [MutationCache.evict]
  | cons oldest order ih =>
    rw [MutationCache.evict]
    split
    · next long =>
      rw [List.length_cons] at long
      rw [ih, lookup_filter, List.length_cons, Nat.succ_sub (by omega), List.take_succ_cons]
      by_cases same : key = oldest <;> simp [same]
    · next short =>
      rw [Nat.sub_eq_zero_of_le (Nat.le_of_not_lt short)]
      simp

theorem evict_keys {order : List CacheKey} {values : Cached} (distinct : (values.map (·.1)).Nodup) :
    ((MutationCache.evict order values).values.map (·.1)).Nodup := by
  induction order generalizing values with
  | nil => exact distinct
  | cons oldest order ih =>
    rw [MutationCache.evict]
    split
    · exact ih (distinct.sublist (List.filter_sublist.map _))
    · exact distinct

/-! ## Histories -/

inductive CacheEvent where
  | looked (command : GatewayCommand) (answer : Option BridgeResult)
  | remembered (command : GatewayCommand) (result : BridgeResult)

def isError : BridgeResult → Bool
  | .operationError .. => true
  | _ => false

/-- The command that an event makes the most recently used one -/
def CacheEvent.used : CacheEvent → Option CacheKey
  | .looked command answer => if answer.all isError then none else some (cacheKey command)
  | .remembered command result => if isError result then none else some (cacheKey command)

/-- What an event remembers for a command -/
def CacheEvent.stored (fingerprint : GatewayCommand → String) :
    CacheEvent → Option (CacheKey × CachedResult)
  | .looked .. => none
  | .remembered command result =>
    if isError result then none else some (cacheKey command, ⟨fingerprint command, result⟩)

section History

variable {fingerprint : GatewayCommand → String}

variable (fingerprint) in
inductive CacheStep : MutationCache → CacheEvent → MutationCache → Prop where
  | lookup (cache : MutationCache) (command : GatewayCommand) :
      CacheStep cache (.looked command (cache.lookup fingerprint command).1)
        (cache.lookup fingerprint command).2
  | remember (cache : MutationCache) (command : GatewayCommand) (result : BridgeResult) :
      CacheStep cache (.remembered command result) (cache.remember fingerprint command result)

/-- What was remembered for a command last -/
def lastStored (fingerprint : GatewayCommand → String) (events : List CacheEvent) (key : CacheKey) :
    Option CachedResult :=
  (events.filterMap (·.stored fingerprint)).reverse.lookup key

theorem lastStored_snoc (events : List CacheEvent) (event : CacheEvent) (key : CacheKey) :
    lastStored fingerprint (events ++ [event]) key =
      match event.stored fingerprint with
      | some (name, cached) => if key = name then some cached else lastStored fingerprint events key
      | none => lastStored fingerprint events key := by
  rw [lastStored, List.filterMap_append, List.reverse_append]
  cases stored : event.stored fingerprint with
  | none => simp [stored, lastStored]
  | some entry =>
    obtain ⟨name, cached⟩ := entry
    simp only [List.filterMap_cons, stored, List.filterMap_nil, List.reverse_singleton,
      List.singleton_append, List.lookup_cons, lastStored]
    by_cases same : key = name
    · simp [same]
    · simp [same, beq_eq_false_iff_ne.2 same]

/-- The cache is what its history makes it. -/
structure Remembers (fingerprint : GatewayCommand → String) (events : List CacheEvent)
    (cache : MutationCache) : Prop where
  order : cache.order = recent maxCachedResults (events.filterMap CacheEvent.used)
  values : ∀ key, cache.values.lookup key =
    if key ∈ cache.order then lastStored fingerprint events key else none
  results : ∀ key ∈ cache.order, ∃ cached, cache.values.lookup key = some cached ∧
    isError cached.result = false
  keys : (cache.values.map (·.1)).Nodup

theorem Remembers.empty : Remembers fingerprint [] MutationCache.empty where
  order := rfl
  values _ := rfl
  results _ member := nomatch member
  keys := List.nodup_nil

/-- An event that uses and stores nothing leaves the history as it is. -/
theorem Remembers.idle (known : Remembers fingerprint events cache) (used : event.used = none)
    (stored : event.stored fingerprint = none) : Remembers fingerprint (events ++ [event]) cache where
  order := by
    rw [List.filterMap_append, List.filterMap_cons_none used, List.filterMap_nil, List.append_nil]
    exact known.order
  values key := by
    rw [lastStored_snoc, stored]
    exact known.values key
  results := known.results
  keys := known.keys

theorem Remembers.here {cached : CachedResult} (known : Remembers fingerprint events cache)
    (found : cache.values.lookup key = some cached) :
    key ∈ cache.order ∧ isError cached.result = false := by
  have kept := known.values key
  rw [found] at kept
  split at kept
  · next member =>
    obtain ⟨other, same, good⟩ := known.results key member
    cases found.symm.trans same
    exact ⟨member, good⟩
  · cases kept

theorem mem_touch {order : List CacheKey} {key other : CacheKey} :
    other ∈ MutationCache.touch order key ↔ other ∈ order ∨ other = key := by
  rw [MutationCache.touch, List.mem_append, List.mem_filter, List.mem_singleton]
  by_cases same : other = key <;> simp [same]

theorem touch_nodup {order : List CacheKey} (distinct : order.Nodup) (key : CacheKey) :
    (MutationCache.touch order key).Nodup := by
  refine (distinct.sublist List.filter_sublist).append (List.nodup_singleton key) ?_
  intro other there same
  rw [List.mem_singleton] at same
  simpa [same] using (List.mem_filter.1 there).2

/-- A use is the last one of its history, and keeps the bound. -/
theorem touch_recent (known : Remembers fingerprint events cache) (used : event.used = some key) :
    (MutationCache.touch cache.order key).rtake maxCachedResults =
      recent maxCachedResults ((events ++ [event]).filterMap CacheEvent.used) := by
  rw [List.filterMap_append, List.filterMap_cons_some used, List.filterMap_nil, recent_snoc,
    ← known.order]
  rfl

/-- A lookup that hits makes its command the most recently used one. -/
theorem Remembers.hit (known : Remembers fingerprint events cache) (there : key ∈ cache.order)
    (used : event.used = some key) (stored : event.stored fingerprint = none) :
    Remembers fingerprint (events ++ [event])
      { cache with order := MutationCache.touch cache.order key } where
  order := by
    have shorter : (cache.order.filter (· ≠ key)).length < cache.order.length :=
      List.length_filter_lt_length_iff_exists.2 ⟨key, there, by simp⟩
    have most := recent_length_le maxCachedResults (events.filterMap CacheEvent.used)
    rw [← known.order] at most
    rw [← touch_recent known used, rtake_of_length_le]
    rw [MutationCache.touch, List.length_append, List.length_singleton]
    omega
  values other := by
    rw [lastStored_snoc, stored]
    refine (known.values other).trans (if_congr ?_ rfl rfl)
    rw [mem_touch]
    exact ⟨Or.inl, fun either => either.elim id fun same => same ▸ there⟩
  results other member := by
    obtain there | same := mem_touch.1 member
    · exact known.results other there
    · exact known.results other (same ▸ there)
  keys := known.keys

/-- What a remembered result does to the values -/
theorem remember_lookup {order : List CacheKey} {values : Cached} (distinct : order.Nodup)
    (key : CacheKey) (cached : CachedResult) (other : CacheKey)
    (known : ∀ key, key ∉ order → values.lookup key = none) :
    (MutationCache.evict (MutationCache.touch order key)
        ((key, cached) :: values.filter fun entry => entry.1 ≠ key)).values.lookup other =
      if other ∈ (MutationCache.touch order key).rtake maxCachedResults then
        if other = key then some cached else values.lookup other
      else none := by
  have apart := touch_nodup distinct key
  have member := @mem_touch order key other
  rw [evict_lookup, List.rtake]
  generalize MutationCache.touch order key = touched at apart member ⊢
  generalize touched.length - maxCachedResults = cut
  have halves : other ∈ touched ↔ other ∈ touched.take cut ∨ other ∈ touched.drop cut := by
    rw [← List.mem_append, List.take_append_drop]
  rw [List.lookup_cons, lookup_filter]
  by_cases dropped : other ∈ touched.take cut
  · have absent : other ∉ touched.drop cut :=
      fun kept => List.disjoint_take_drop apart (Nat.le_refl cut) dropped kept
    rw [if_pos dropped, if_neg absent]
  · rw [if_neg dropped]
    by_cases same : other = key
    · subst same
      have kept : other ∈ touched.drop cut := (halves.1 (member.2 (Or.inr rfl))).resolve_left dropped
      simp [kept]
    · rw [beq_eq_false_iff_ne.2 same, if_neg same]
      by_cases there : other ∈ order
      · have kept : other ∈ touched.drop cut :=
          (halves.1 (member.2 (Or.inl there))).resolve_left dropped
        rw [if_pos kept, if_neg same]
      · simp [known other there, same]

/-- A remembered result is the last one of its command. -/
theorem Remembers.remember {command : GatewayCommand} {result : BridgeResult}
    (known : Remembers fingerprint events cache) (good : isError result = false) :
    Remembers fingerprint (events ++ [.remembered command result])
      (cache.remember fingerprint command result) := by
  have distinct : cache.order.Nodup := by
    rw [known.order]
    exact recent_nodup _ _
  have absent : ∀ key, key ∉ cache.order → cache.values.lookup key = none := by
    intro key gone
    rw [known.values key, if_neg gone]
  have used : (CacheEvent.remembered command result).used = some (cacheKey command) := by
    simp [CacheEvent.used, good]
  have same : cache.remember fingerprint command result =
      MutationCache.evict (MutationCache.touch cache.order (cacheKey command))
        ((cacheKey command, ⟨fingerprint command, result⟩) ::
          cache.values.filter fun entry => entry.1 ≠ cacheKey command) := by
    cases result with
    | output | projectSessionResult => rfl
    | operationError => cases good
  have lookups := fun key => remember_lookup distinct (cacheKey command)
    ⟨fingerprint command, result⟩ key absent
  rw [same]
  have order := evict_order (MutationCache.touch cache.order (cacheKey command))
    ((cacheKey command, ⟨fingerprint command, result⟩) ::
      cache.values.filter fun entry => entry.1 ≠ cacheKey command)
  refine ⟨order.trans (touch_recent known used), fun key => ?_, fun key member => ?_, ?_⟩
  · rw [lookups key, order, lastStored_snoc]
    simp only [CacheEvent.stored, good, Bool.false_eq_true, if_false]
    split
    · next kept =>
      split
      · rfl
      · next other =>
        have there : key ∈ cache.order :=
          (mem_touch.1 (List.mem_of_mem_drop kept)).resolve_right other
        rw [known.values key, if_pos there]
    · rfl
  · rw [order] at member
    rw [lookups key, if_pos member]
    split
    · exact ⟨_, rfl, good⟩
    · next other =>
      exact known.results key ((mem_touch.1 (List.mem_of_mem_drop member)).resolve_right other)
  · refine evict_keys (List.nodup_cons.2 ⟨fun again => ?_,
      known.keys.sublist (List.filter_sublist.map _)⟩)
    obtain ⟨entry, there, own⟩ := List.mem_map.1 again
    simpa [own] using (List.mem_filter.1 there).2

theorem step_remembers {next : MutationCache}
    (step : CacheStep fingerprint cache event next) (known : Remembers fingerprint events cache) :
    Remembers fingerprint (events ++ [event]) next := by
  cases step with
  | lookup command =>
    unfold MutationCache.lookup
    split
    · exact known.idle rfl rfl
    · next cached found =>
      obtain ⟨there, good⟩ := known.here found
      split
      · refine known.hit there ?_ rfl
        simp [CacheEvent.used, good]
      · exact known.idle rfl rfl
  | remember command result =>
    cases good : isError result with
    | false => exact known.remember good
    | true =>
      cases result with
      | output | projectSessionResult => cases good
      | operationError => exact known.idle rfl rfl

theorem run_remembers (run : Run (CacheStep fingerprint) MutationCache.empty events cache) :
    Remembers fingerprint events cache :=
  run.records (Remembers fingerprint) (fun _ _ _ _ _ step => step_remembers step) .empty

/-! ## Replay -/

/-- The event remembers another result for the command. -/
def CacheEvent.replaces (key : CacheKey) (event : CacheEvent) : Bool :=
  match event with
  | .looked .. => false
  | .remembered command result => !isError result && cacheKey command == key

theorem lastStored_kept {later : List CacheEvent}
    (kept : ∀ event ∈ later, event.replaces key = false) :
    lastStored fingerprint (events ++ later) key = lastStored fingerprint events key := by
  induction later using List.reverseRecOn with
  | nil => rw [List.append_nil]
  | append_singleton later event ih =>
    rw [← List.append_assoc, lastStored_snoc]
    have rest := ih fun e member => kept e (List.mem_append_left _ member)
    have last := kept event (List.mem_append_right _ (List.mem_singleton_self _))
    cases event with
    | looked command answer => exact rest
    | remembered command result =>
      cases good : isError result with
      | true => simpa [CacheEvent.stored, good] using rest
      | false =>
        have other : key ≠ cacheKey command := by
          intro same
          simp [CacheEvent.replaces, good, same] at last
        simpa [CacheEvent.stored, good, other] using rest

/-- A remembered result stays while fewer than 256 other commands are used after it. -/
theorem Remembers.replayed {front back : List CacheEvent} {cache : MutationCache}
    {command : GatewayCommand} {result : BridgeResult}
    (known : Remembers fingerprint (front ++ .remembered command result :: back) cache)
    (good : isError result = false)
    (kept : ∀ event ∈ back, event.replaces (cacheKey command) = false)
    (few : ((back.filterMap CacheEvent.used).filter (· ≠ cacheKey command)).dedup.length <
      maxCachedResults) :
    cache.values.lookup (cacheKey command) = some ⟨fingerprint command, result⟩ := by
  have used : (CacheEvent.remembered command result).used = some (cacheKey command) := by
    simp [CacheEvent.used, good]
  have there : cacheKey command ∈ cache.order := by
    rw [known.order, List.filterMap_append, List.filterMap_cons_some used]
    exact mem_recent few
  rw [known.values, if_pos there, ← List.singleton_append, ← List.append_assoc,
    lastStored_kept kept, lastStored_snoc]
  simp [CacheEvent.stored, good]

/-- Only the least recently used command is evicted. -/
theorem step_evicts {next : MutationCache}
    (known : Remembers fingerprint events cache) (step : CacheStep fingerprint cache event next)
    {gone : CacheKey} (there : gone ∈ cache.order) (left : gone ∉ next.order) :
    ∃ rest key, cache.order = gone :: rest ∧ next.order = rest ++ [key] := by
  have later := step_remembers step known
  rw [later.order] at left ⊢
  rw [known.order] at there ⊢
  rw [List.filterMap_append] at left ⊢
  cases used : event.used with
  | none =>
    rw [List.filterMap_cons_none used, List.filterMap_nil, List.append_nil] at left
    exact absurd there left
  | some key =>
    rw [List.filterMap_cons_some used, List.filterMap_nil] at left ⊢
    obtain ⟨rest, before, after⟩ := recent_dropped there left
    exact ⟨rest, key, before, after⟩

/-- The cache has the 256 most recently used commands, each of them once, replays the last result
remembered for each of them, and evicts the least recently used one. -/
theorem mutations_replayed {events : List CacheEvent} {cache : MutationCache}
    (run : Run (CacheStep fingerprint) MutationCache.empty events cache) :
    (cache.order.Nodup ∧ (cache.values.map (·.1)).Nodup ∧
        (∀ key, key ∈ cache.order ↔ key ∈ cache.values.map (·.1)) ∧
        cache.order.length ≤ maxCachedResults) ∧
      cache.order = recent maxCachedResults (events.filterMap CacheEvent.used) ∧
      (∀ front command result back, events = front ++ .remembered command result :: back →
        isError result = false → (∀ event ∈ back, event.replaces (cacheKey command) = false) →
        ((back.filterMap CacheEvent.used).filter (· ≠ cacheKey command)).dedup.length <
          maxCachedResults →
        ∀ again, cacheKey again = cacheKey command →
          (fingerprint again = fingerprint command →
            (cache.lookup fingerprint again).1 = some result) ∧
          (fingerprint again ≠ fingerprint command →
            cache.lookup fingerprint again = (some (conflict again), cache))) ∧
      ∀ event next, CacheStep fingerprint cache event next → ∀ gone ∈ cache.order,
        gone ∉ next.order → ∃ rest key, cache.order = gone :: rest ∧ next.order = rest ++ [key] := by
  have known := run_remembers run
  refine ⟨⟨?_, known.keys, fun key => ?_, ?_⟩, known.order, ?_, ?_⟩
  · rw [known.order]
    exact recent_nodup _ _
  · rw [mem_keys_iff]
    constructor
    · intro member
      obtain ⟨cached, found, _⟩ := known.results key member
      rw [found]
      rfl
    · intro found
      obtain ⟨cached, found⟩ := Option.isSome_iff_exists.1 found
      exact (known.here found).1
  · rw [known.order]
    exact recent_length_le _ _
  · intro front command result back split good kept few again same
    subst split
    have found := known.replayed good kept few
    rw [← same] at found
    refine ⟨fun agrees => ?_, fun differs => ?_⟩
    · simp [MutationCache.lookup, found, agrees]
    · have conflicts : fingerprint command ≠ fingerprint again := fun agrees => differs agrees.symm
      simp [MutationCache.lookup, found, conflicts]
  · intro event next step gone there left
    exact step_evicts known step there left

end History

/-! Many files are written, the first of them again while it is remembered, once with another
text, and then one file more. -/

/-- A write whose request id has `n` characters -/
def numbered (text : String) (n : Nat) : GatewayCommand :=
  .writeFile ⟨String.ofList (List.replicate n 'x'), "thread", 0⟩ none "file" text none

def textOf : GatewayCommand → String
  | .writeFile _ _ _ text _ => text
  | _ => ""

def done : BridgeResult := .output "request" "done"

def writes (count : Nat) : List CacheEvent :=
  (List.range count).map fun n => .remembered (numbered "text" n) done

def written (count : Nat) : MutationCache :=
  (List.range count).foldl (fun cache n => cache.remember textOf (numbered "text" n) done) .empty

theorem numbered_key {text other : String} {a b : Nat} :
    cacheKey (numbered text a) = cacheKey (numbered other b) ↔ a = b := by
  refine ⟨fun same => ?_, fun same => by subst same; rfl⟩
  have ids := String.ofList_injective (congrArg (·.2.2) same)
  simpa using congrArg List.length ids

theorem written_step (count : Nat) :
    CacheStep textOf (written count) (.remembered (numbered "text" count) done)
      (written (count + 1)) := by
  rw [show written (count + 1) = (written count).remember textOf (numbered "text" count) done by
    rw [written, List.range_succ, List.foldl_append]
    rfl]
  exact .remember ..

theorem written_run (count : Nat) :
    Run (CacheStep textOf) MutationCache.empty (writes count) (written count) := by
  induction count with
  | zero => exact .nil _
  | succ count ih =>
    rw [writes, List.range_succ, List.map_append]
    exact ih.append (.single (written_step count))

theorem writes_succ (count : Nat) : writes (count + 1) = .remembered (numbered "text" 0) done ::
    (List.range count).map fun n => .remembered (numbered "text" (n + 1)) done := by
  rw [writes, List.range_succ_eq_map, List.map_cons, List.map_map]
  rfl

theorem writes_used (count : Nat) : (writes count).filterMap CacheEvent.used =
    (List.range count).map fun n => cacheKey (numbered "text" n) := by
  rw [writes, List.filterMap_map, ← List.filterMap_eq_map]
  rfl

theorem writes_distinct (count : Nat) :
    ((List.range count).map fun n => cacheKey (numbered "text" n)).Nodup :=
  List.nodup_range.map fun _ _ => numbered_key.1

theorem first_write_evicted :
    ((written 256).lookup textOf (numbered "text" 0)).1 = some done ∧
      (written 256).lookup textOf (numbered "other" 0) =
        (some (conflict (numbered "other" 0)), written 256) ∧
      ∃ rest key, (written 256).order = cacheKey (numbered "text" 0) :: rest ∧
        (written 257).order = rest ++ [key] := by
  obtain ⟨-, order, replays, evicts⟩ := mutations_replayed (written_run 256)
  obtain ⟨-, later, -, -⟩ := mutations_replayed (written_run 257)
  have replayed := replays [] _ _ _ (writes_succ 255) rfl (fun event there => ?_) ?_
  · refine ⟨(replayed _ rfl).1 rfl, (replayed (numbered "other" 0) rfl).2 (by decide), ?_⟩
    -- 256 keys are remembered, and the last write leaves the first of them out
    refine evicts _ _ (written_step 256) _ ?_ ?_
    · rw [order, writes_used, recent, (writes_distinct 256).dedup,
        rtake_of_length_le (by simp [maxCachedResults])]
      exact List.mem_map.2 ⟨0, by simp, rfl⟩
    · -- the keys of 257 writes cut to 256
      rw [later, writes_used, recent, (writes_distinct 257).dedup, List.range_succ_eq_map]
      simp [List.rtake, maxCachedResults, numbered_key]
  · obtain ⟨n, -, rfl⟩ := List.mem_map.1 there
    simp [CacheEvent.replaces, numbered_key]
  · refine (List.dedup_sublist _).length_le.trans_lt (List.filter_sublist.length_le.trans_lt
      ((List.length_filterMap_le ..).trans_lt ?_))
    rw [List.length_map, List.length_range]
    decide

end CodexRemote.Verified.Dispatcher

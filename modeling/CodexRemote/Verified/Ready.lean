import CodexRemote.Foundations.Runs
import CodexRemote.Runtime.Ready

/-! # Live events of the ready queue are neither lost nor reordered

For each target the live events returned so far, followed by those still queued,
are exactly those accepted.  Everything but `live` and a take leaves the queued
live events alone, because it only moves hints.
-/

namespace CodexRemote.Verified.Ready

open Foundations CodexRemote.Runtime

variable {ε σ τ : Type}

/-- The live event of `target` that a work item carries. -/
def liveOf (target : String) : StateWork ε → Option (Envelope ε)
  | .live e => if e.target = target then some e else none
  | _ => none

/-- The live events of `target` in the queue, in order. -/
def queued (target : String) (ready : Ready ε) : List (Envelope ε) :=
  ready.state.filterMap (liveOf target)

variable {work : StateWork ε} {ready next : Ready ε} {queue : List (StateWork ε)}

theorem liveOf_hint (hint : work.isLive = false) (target : String) :
    liveOf target work = none := by
  cases work with
  | live e => cases hint
  | durable e => rfl
  | writerRetry h => rfl

theorem liveOf_target {target : String} (other : work.target ≠ target) :
    liveOf target work = none := by
  cases work with
  | live e => exact if_neg other
  | durable e => rfl
  | writerRetry h => rfl

/-! ## Operations that only move hints -/

theorem queued_append_hint (hint : work.isLive = false) (target : String) :
    queued target { ready with state := ready.state ++ [work] } = queued target ready := by
  simp [queued, List.filterMap_append, liveOf_hint hint]

theorem evictHint_queued (evicted : ready.evictHint = some next)
    (target : String) : queued target next = queued target ready := by
  unfold Ready.evictHint at evicted
  obtain ⟨index, position, rfl⟩ := Option.map_eq_some_iff.1 evicted
  obtain ⟨within, hint, _⟩ := List.findIdx?_eq_some_iff_getElem.1 position
  refine filterMap_eraseIdx ?_
  intro work found
  rw [List.getElem?_eq_getElem within, Option.some.injEq] at found
  subst found
  exact liveOf_hint (by simpa using hint) target

theorem popHttp_queued (popped : ready.popHttp = some next)
    (target : String) : queued target next = queued target ready := by
  unfold Ready.popHttp at popped
  split at popped
  · cases popped
  · cases popped
    rfl

theorem durable_queued (ready : Ready ε) (entry : Entry) (active : String → Bool)
    (target : String) : queued target (ready.durable entry active) = queued target ready := by
  unfold Ready.durable
  split
  · rfl
  · split
    · split
      · rfl
      · exact queued_append_hint rfl target
    · split <;> rfl

theorem writerRetry_queued (ready : Ready ε) (hint : WriterRetryHint) (active : String → Bool)
    (target : String) : queued target (ready.writerRetry hint active) = queued target ready := by
  unfold Ready.writerRetry
  split
  · exact queued_append_hint rfl target
  · rfl

theorem prioritize_queued (ready : Ready ε) (entry : Entry) (target : String) :
    queued target (ready.prioritize entry) = queued target ready := by
  unfold Ready.prioritize
  simp only
  split
  · rfl
  · next room =>
    split at room
    · rcases Option.or_eq_some_iff.1 room with popped | ⟨_, evicted⟩
      · exact popHttp_queued popped target
      · exact evictHint_queued evicted target
    · cases room
      rfl

theorem takeHttp_queued (ready : Ready ε) (active : Int → Bool) (target : String) :
    queued target (ready.takeHttp active).2 = queued target ready := by
  unfold Ready.takeHttp
  split <;> rfl

/-! ## Accepting a live event -/

theorem retain_queued (ready : Ready ε) (event : Envelope ε) (target : String) :
    queued target { ready with
      state := ready.state.filter fun w => w.isLive || w.target != event.target } =
        queued target ready := by
  unfold queued
  rw [List.filterMap_filter]
  congr 1
  funext work
  cases kept : (work.isLive || work.target != event.target) with
  | true => rfl
  | false =>
    rw [Bool.or_eq_false_iff] at kept
    rw [liveOf_hint kept.1]
    rfl

theorem live_queued (ready : Ready ε) (event : Envelope ε) (target : String) :
    queued target (ready.live event).2 =
      queued target ready ++
        if (ready.live event).1 && event.target = target then [event] else [] := by
  have retained := retain_queued ready event target
  unfold Ready.live
  simp only
  generalize { ready with
    state := ready.state.filter fun w => w.isLive || w.target != event.target } = kept at retained ⊢
  split
  · simp [retained]
  · split
    · simp [retained]
    · next room =>
      rename_i roomy
      have made : queued target roomy = queued target kept := by
        split at room
        · rcases Option.or_eq_some_iff.1 room with evicted | ⟨_, popped⟩
          · exact evictHint_queued evicted target
          · exact popHttp_queued popped target
        · cases room
          rfl
      rw [← retained, ← made]
      by_cases same : event.target = target <;>
        simp [queued, List.filterMap_append, liveOf, same]

/-! ## The scan for an admitted head -/

/-- What the scan has seen before `index`: every target met, and only hints deferred. -/
structure Scanning (queue : List (StateWork ε)) (index : Nat) (heads : List String)
    (deferred : List Nat) : Prop where
  met : ∀ j work, j < index → queue[j]? = some work → work.target ∈ heads
  ascending : deferred.Pairwise (· < ·)
  before : ∀ j ∈ deferred, j < index
  hints : ∀ j ∈ deferred, ∀ work, queue[j]? = some work → work.isLive = false

/-- What a finished scan says: the selected work is the first of its target, which is
not active, and the deferred work consists of hints at ascending indices before it. -/
structure Scanned (queue : List (StateWork ε)) (active : String → Bool)
    (scan : Ready.Scan σ τ) : Prop where
  ascending : scan.deferred.Pairwise (· < ·)
  hints : ∀ j ∈ scan.deferred, ∀ work, queue[j]? = some work → work.isLive = false
  selected : ∀ index permit native, scan.selected = some (index, permit, native) →
    (∀ j ∈ scan.deferred, j < index) ∧ ∃ work, queue[index]? = some work ∧
      active work.target = false ∧
      ∀ j earlier, j < index → queue[j]? = some earlier → earlier.target ≠ work.target

theorem Scanning.skip {index : Nat} {heads heads' : List String}
    {deferred : List Nat} (scanning : Scanning queue index heads deferred)
    (here : queue[index]? = some work) (grown : ∀ target ∈ heads, target ∈ heads')
    (included : work.target ∈ heads') : Scanning queue (index + 1) heads' deferred where
  met j earlier before found := by
    rcases Nat.lt_succ_iff_lt_or_eq.1 before with less | rfl
    · exact grown _ (scanning.met j earlier less found)
    · rw [here, Option.some.injEq] at found
      exact found ▸ included
  ascending := scanning.ascending
  before j member := Nat.lt_succ_of_lt (scanning.before j member)
  hints := scanning.hints

theorem Scanning.defer {index : Nat} {heads heads' : List String}
    {deferred : List Nat} (scanning : Scanning queue index heads deferred)
    (here : queue[index]? = some work) (hint : work.isLive = false)
    (grown : ∀ target ∈ heads, target ∈ heads') (included : work.target ∈ heads') :
    Scanning queue (index + 1) heads' (deferred ++ [index]) where
  met := (scanning.skip here grown included).met
  ascending := by
    rw [List.pairwise_append]
    refine ⟨scanning.ascending, List.pairwise_singleton _ _, ?_⟩
    intro j member last same
    rw [List.mem_singleton.1 same]
    exact scanning.before j member
  before j member := by
    rcases List.mem_append.1 member with earlier | last
    · exact Nat.lt_succ_of_lt (scanning.before j earlier)
    · rw [List.mem_singleton.1 last]
      exact Nat.lt_succ_self index
  hints j member earlier found := by
    rcases List.mem_append.1 member with before | last
    · exact scanning.hints j before earlier found
    · rw [List.mem_singleton.1 last, here, Option.some.injEq] at found
      exact found ▸ hint

theorem scan_scanned {rest : List (StateWork ε)} {active : String → Bool} {native : Nat}
    {admits : StateWork ε → σ → Option (τ × Bool) × σ} {index : Nat} {heads : List String}
    {deferred : List Nat} {caller : σ} (scanning : Scanning queue index heads deferred)
    (remaining : queue.drop index = rest) :
    Scanned queue active (Ready.scan active native admits index heads deferred rest caller) := by
  induction rest generalizing index heads deferred caller with
  | nil =>
    refine ⟨scanning.ascending, scanning.hints, ?_⟩
    intro index permit native impossible
    cases impossible
  | cons work rest ih =>
    have here : queue[index]? = some work := by
      rw [← List.head?_drop, remaining]
      rfl
    have later : queue.drop (index + 1) = rest := by
      rw [← List.tail_drop, remaining]
      rfl
    have all : ∀ target ∈ heads, target ∈ work.target :: heads :=
      fun _ member => List.mem_cons_of_mem _ member
    unfold Ready.scan
    split
    · next seen =>
      exact ih (scanning.skip here (fun _ member => member)
        (List.contains_iff_mem.1 seen)) later
    · next unseen =>
      have skipped := scanning.skip here all (List.mem_cons_self ..)
      simp only
      split
      · exact ih skipped later
      · next idle =>
        split
        · -- a refused hint is dropped, a refused live event keeps its place
          split
          · exact ih skipped later
          · next hint =>
            refine ih (scanning.defer here ?_ all (List.mem_cons_self ..)) later
            simpa using hint
        · split
          · refine ⟨scanning.ascending, scanning.hints, ?_⟩
            rintro _ _ _ ⟨⟩
            refine ⟨scanning.before, work, here, by simpa using idle, ?_⟩
            intro j earlier before found same
            apply unseen
            rw [List.contains_iff_mem, ← same]
            exact scanning.met j earlier before found
          · exact ih skipped later

theorem scan_all (queue : List (StateWork ε)) (active : String → Bool) (native : Nat)
    (admits : StateWork ε → σ → Option (τ × Bool) × σ) (caller : σ) :
    Scanned queue active (Ready.scan active native admits 0 [] [] queue caller) := by
  refine scan_scanned ⟨?_, List.Pairwise.nil, ?_, ?_⟩ rfl
  · intro j _ impossible
    exact absurd impossible (Nat.not_lt_zero j)
  · intro _ member
    cases member
  · intro _ member
    cases member

/-! ## Takes -/

/-- Removing the deferred hints moves no live event. -/
theorem Scanned.erased {left : List (StateWork ε)} {active : String → Bool}
    {found : Ready.Scan σ τ} (scanned : Scanned queue active found)
    (same : ∀ j ∈ found.deferred, left[j]? = queue[j]?) (target : String) :
    (eraseEach found.deferred.reverse left).filterMap (liveOf target) =
      left.filterMap (liveOf target) := by
  refine filterMap_eraseEach (List.pairwise_reverse.2 scanned.ascending) ?_
  intro j member work here
  have deferred := List.mem_reverse.1 member
  rw [same j deferred] at here
  exact liveOf_hint (scanned.hints j deferred work here) target

theorem takeStateAdmitted_spec (ready : Ready ε) (active : String → Bool) (native : Nat)
    (admits : StateWork ε → σ → Option (τ × Bool) × σ) (caller : σ) (target : String) :
    queued target ready =
        ((ready.takeStateAdmitted active native admits caller).1.bind
          fun c => liveOf target c.1).toList ++
          queued target (ready.takeStateAdmitted active native admits caller).2.1 ∧
      ∀ c, (ready.takeStateAdmitted active native admits caller).1 = some c →
        active c.1.target = false := by
  generalize took : ready.takeStateAdmitted active native admits caller = result
  obtain ⟨chosen, next, caller'⟩ := result
  have scanned := scan_all ready.state active native admits caller
  unfold Ready.takeStateAdmitted at took
  generalize Ready.scan active native admits 0 [] [] ready.state caller = found at took scanned
  simp only [Prod.mk.injEq] at took
  obtain ⟨rfl, rfl, _⟩ := took
  cases selected : found.selected with
  | none =>
    refine ⟨?_, by intro c impossible; cases impossible⟩
    exact (scanned.erased (fun _ _ => rfl) target).symm
  | some choice =>
    obtain ⟨index, permit, needsNative⟩ := choice
    obtain ⟨before, work, here, idle, first⟩ := scanned.selected index permit needsNative selected
    simp only [Option.bind_some, here, Option.map_some, Option.some.injEq]
    refine ⟨?_, by rintro c rfl; exact idle⟩
    have kept : ∀ j ∈ found.deferred, (ready.state.eraseIdx index)[j]? = ready.state[j]? :=
      fun j member => List.getElem?_eraseIdx_of_lt (before j member)
    change ready.state.filterMap (liveOf target) = _ ++
      (eraseEach found.deferred.reverse (ready.state.eraseIdx index)).filterMap (liveOf target)
    rw [scanned.erased kept target]
    cases carried : liveOf target work with
    | none =>
      rw [filterMap_eraseIdx]
      · rfl
      · intro other found
        rw [here, Option.some.injEq] at found
        exact found ▸ carried
    | some event =>
      refine filterMap_eraseIdx_first here carried ?_
      intro j earlier less there
      refine liveOf_target ?_
      have own : work.target = target := by
        by_contra other
        rw [liveOf_target other] at carried
        cases carried
      exact own ▸ first j earlier less there

theorem takeHttp_idle {active : Int → Bool} {entry : Entry}
    (took : (ready.takeHttp active).1 = some entry) : active entry.channel = false := by
  unfold Ready.takeHttp at took
  split at took
  · cases took
  · next position =>
    obtain ⟨within, idle, _⟩ := List.findIdx?_eq_some_iff_getElem.1 position
    simp only [List.getElem?_eq_getElem within, Option.some.injEq] at took
    rw [took] at idle
    simpa using idle

/-! ## Runs of the queue -/

inductive ReadyEvent (ε : Type) where
  | offered (event : Envelope ε) (accepted : Bool)
  | arranged
  | tookState (active : String → Bool) (work : Option (StateWork ε))
  | tookHttp (active : Int → Bool) (entry : Option Entry)

inductive ReadyStep : Ready ε → ReadyEvent ε → Ready ε → Prop where
  | live (ready : Ready ε) (event : Envelope ε) :
      ReadyStep ready (.offered event (ready.live event).1) (ready.live event).2
  | durable (ready : Ready ε) (entry : Entry) (active : String → Bool) :
      ReadyStep ready .arranged (ready.durable entry active)
  | writerRetry (ready : Ready ε) (hint : WriterRetryHint) (active : String → Bool) :
      ReadyStep ready .arranged (ready.writerRetry hint active)
  | prioritize (ready : Ready ε) (entry : Entry) :
      ReadyStep ready .arranged (ready.prioritize entry)
  | takeState {σ τ : Type} (ready : Ready ε) (active : String → Bool) (native : Nat)
      (admits : StateWork ε → σ → Option (τ × Bool) × σ) (caller : σ) :
      ReadyStep ready
        (.tookState active ((ready.takeStateAdmitted active native admits caller).1.map (·.1)))
        (ready.takeStateAdmitted active native admits caller).2.1
  | takeHttp (ready : Ready ε) (active : Int → Bool) :
      ReadyStep ready (.tookHttp active (ready.takeHttp active).1) (ready.takeHttp active).2

/-- The live event of `target` that a step accepted. -/
def acceptedBy (target : String) : ReadyEvent ε → List (Envelope ε)
  | .offered event true => if event.target = target then [event] else []
  | _ => []

/-- The live event of `target` that a step returned. -/
def returnedBy (target : String) : ReadyEvent ε → List (Envelope ε)
  | .tookState _ (some work) => (liveOf target work).toList
  | _ => []

def accepted (target : String) (events : List (ReadyEvent ε)) : List (Envelope ε) :=
  events.flatMap (acceptedBy target)

def returned (target : String) (events : List (ReadyEvent ε)) : List (Envelope ε) :=
  events.flatMap (returnedBy target)

theorem readyStep_balance {event : ReadyEvent ε}
    (step : ReadyStep ready event next) (target : String) :
    queued target ready ++ acceptedBy target event =
      returnedBy target event ++ queued target next := by
  cases step with
  | live ready event =>
    rw [live_queued]
    cases ready.live event with
    | mk accepted left => cases accepted <;> simp [acceptedBy, returnedBy]
  | durable => simp [acceptedBy, returnedBy, durable_queued]
  | writerRetry => simp [acceptedBy, returnedBy, writerRetry_queued]
  | prioritize => simp [acceptedBy, returnedBy, prioritize_queued]
  | takeState ready active native admits caller =>
    rw [(takeStateAdmitted_spec ready active native admits caller target).1]
    cases (ready.takeStateAdmitted active native admits caller).1 <;>
      simp [acceptedBy, returnedBy]
  | takeHttp ready active => simp [acceptedBy, returnedBy, takeHttp_queued]

theorem ready_balance {events : List (ReadyEvent ε)}
    (run : Run ReadyStep ready events next) (target : String) :
    queued target ready ++ accepted target events =
      returned target events ++ queued target next := by
  induction run with
  | nil _ => simp [accepted, returned]
  | cons first _ ih =>
    simp only [accepted, returned, List.flatMap_cons] at ih ⊢
    rw [← List.append_assoc, readyStep_balance first target, List.append_assoc, ih,
      List.append_assoc]

/-- A step that returns work returns it for a target, or a channel, that is not active. -/
def ReadyEvent.idle : ReadyEvent ε → Prop
  | .tookState active (some work) => active work.target = false
  | .tookHttp active (some entry) => active entry.channel = false
  | _ => True

theorem readyStep_idle {event : ReadyEvent ε} (step : ReadyStep ready event next) : event.idle := by
  cases step with
  | live | durable | writerRetry | prioritize => trivial
  | takeState ready active native admits caller =>
    cases chosen : (ready.takeStateAdmitted active native admits caller).1 with
    | none => trivial
    | some c => exact (takeStateAdmitted_spec ready active native admits caller "").2 c chosen
  | takeHttp ready active =>
    cases entry : (ready.takeHttp active).1 with
    | none => trivial
    | some entry => exact takeHttp_idle entry

/-- No overtaking and no loss, for every run from the empty queue. -/
theorem ready_keeps_live_order {ready : Ready ε} {events : List (ReadyEvent ε)}
    (run : Run ReadyStep Ready.empty events ready) :
    (∀ target, returned target events <+: accepted target events ∧
      queued target ready = (accepted target events).drop (returned target events).length) ∧
    ∀ event ∈ events, event.idle := by
  refine ⟨?_, ?_⟩
  · intro target
    have balance : accepted target events = returned target events ++ queued target ready :=
      ready_balance run target
    rw [balance]
    exact ⟨List.prefix_append _ _, (List.drop_left ..).symm⟩
  · exact run.labels (fun _ => True) ReadyEvent.idle (fun _ _ _ _ _ => trivial)
      (fun _ _ _ step _ => readyStep_idle step) trivial

/-- A completion and a start of one target, the completion taken first. -/
theorem ready_start_waits :
    returned "a" [.offered ⟨"completed", "a"⟩ true, .offered ⟨"started", "a"⟩ true,
        .tookState (fun _ => false) (some (.live ⟨"completed", "a"⟩))] <+:
      accepted "a" [.offered ⟨"completed", "a"⟩ true, .offered ⟨"started", "a"⟩ true,
        .tookState (fun _ => false) (some (.live ⟨"completed", "a"⟩))] := by
  have run : ∃ ready, Run ReadyStep Ready.empty
      [.offered (⟨"completed", "a"⟩ : Envelope String) true, .offered ⟨"started", "a"⟩ true,
        .tookState (fun _ => false) (some (.live ⟨"completed", "a"⟩))] ready := by
    refine ⟨_, .cons (.live Ready.empty ⟨"completed", "a"⟩) (.cons (.live _ ⟨"started", "a"⟩)
      (.cons (.takeState _ (fun _ => false) 0 (fun _ (calls : Nat) => (some ((), true), calls + 1)) 0)
        (.nil _)))⟩
  obtain ⟨ready, run⟩ := run
  exact ((ready_keeps_live_order run).1 "a").1

end CodexRemote.Verified.Ready

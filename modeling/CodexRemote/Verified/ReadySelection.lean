import CodexRemote.Verified.Ready

/-! # The work that a take selects

A take asks about the heads of the idle targets, one after the other, until one of them can start.
What it returns and what it removes is said here by the position in the queue alone, without the
two steps by which the scan saves indices and removes them afterwards.
-/

namespace CodexRemote.Verified.Ready

open Foundations CodexRemote.Runtime

section Selection

variable {ε σ τ : Type} (queue : List (StateWork ε)) (active : String → Bool) (native : Nat)
  (admits : StateWork ε → σ → Option (τ × Bool) × σ) (caller : σ)

/-- The work at an index is the first of its target, which is not active. -/
def isHead (index : Nat) : Bool :=
  queue[index]?.any fun work => !active work.target &&
    (queue.take index).all fun earlier => earlier.target != work.target

/-- The caller's state when the scan reaches an index: it was asked about the heads before. -/
def callerAt : Nat → σ
  | 0 => caller
  | index + 1 =>
    match queue[index]? with
    | some work =>
      if isHead queue active index then (admits work (callerAt index)).2 else callerAt index
    | none => callerAt index

/-- What the caller says about the head at an index -/
def answerAt (index : Nat) : Option (τ × Bool) :=
  if isHead queue active index then
    queue[index]?.bind fun work => (admits work (callerAt queue active admits caller index)).1
  else none

/-- The head at an index is admitted, and there is a native slot for it when it needs one. -/
def startable (index : Nat) : Bool :=
  (answerAt queue active admits caller index).any fun answer =>
    !answer.2 || decide (native < nativeSlots)

/-- The head at an index is a hint that the caller refuses. -/
def refused (index : Nat) : Bool :=
  isHead queue active index && (answerAt queue active admits caller index).isNone &&
    queue[index]?.any fun work => !work.isLive

/-! ## The scan -/

/-- Where the scan is at an index, which no startable work precedes -/
structure Reached (index : Nat) (heads : List String) (deferred : List Nat) (now : σ) : Prop where
  within : index ≤ queue.length
  met : ∀ target, target ∈ heads ↔ ∃ work ∈ queue.take index, work.target = target
  passed : ∀ j < index, startable queue active native admits caller j = false
  deferred : deferred = (List.range index).filter (refused queue active admits caller)
  caller : now = callerAt queue active admits caller index

/-- What the scan finds -/
structure Found (scan : Ready.Scan σ τ) : Prop where
  selected : ∀ index permit needsNative, scan.selected = some (index, permit, needsNative) →
    answerAt queue active admits caller index = some (permit, needsNative) ∧
      startable queue active native admits caller index = true ∧
      (∀ j < index, startable queue active native admits caller j = false) ∧
      scan.deferred = (List.range index).filter (refused queue active admits caller) ∧
      scan.caller = callerAt queue active admits caller (index + 1)
  none : scan.selected = none →
    (∀ j, startable queue active native admits caller j = false) ∧
      scan.deferred = (List.range queue.length).filter (refused queue active admits caller) ∧
      scan.caller = callerAt queue active admits caller queue.length

end Selection

variable {index : Nat}

section Scan

variable {ε σ τ : Type} {queue : List (StateWork ε)} {active : String → Bool} {native : Nat}
  {admits : StateWork ε → σ → Option (τ × Bool) × σ} {caller : σ}

variable {work : StateWork ε}

theorem isHead_here (here : queue[index]? = some work) :
    isHead queue active index = true ↔ active work.target = false ∧
      ∀ earlier ∈ queue.take index, earlier.target ≠ work.target := by
  simp [isHead, here]

theorem answerAt_head {index : Nat} {work : StateWork ε} (here : queue[index]? = some work)
    (head : isHead queue active index = true) :
    answerAt queue active admits caller index =
      (admits work (callerAt queue active admits caller index)).1 := by
  simp [answerAt, head, here]

theorem callerAt_head {index : Nat} {work : StateWork ε} (here : queue[index]? = some work)
    (head : isHead queue active index = true) :
    callerAt queue active admits caller (index + 1) =
      (admits work (callerAt queue active admits caller index)).2 := by
  simp [callerAt, head, here]

/-- Work that is no head is passed without a question. -/
theorem not_head {index : Nat} (head : isHead queue active index = false) :
    startable queue active native admits caller index = false ∧
      refused queue active admits caller index = false ∧
      callerAt queue active admits caller (index + 1) =
        callerAt queue active admits caller index := by
  refine ⟨by simp [startable, answerAt, head], by simp [refused, head], ?_⟩
  rw [callerAt]
  split <;> simp [head]

theorem mem_take_succ {other : StateWork ε} (here : queue[index]? = some work) :
    other ∈ queue.take (index + 1) ↔ other ∈ queue.take index ∨ other = work := by
  rw [List.take_add_one, here, Option.toList_some, List.mem_append, List.mem_singleton]

/-- The scan goes on after work that cannot start. -/
theorem Reached.next {heads heads' : List String} {deferred deferred' : List Nat} {now now' : σ}
    (reached : Reached queue active native admits caller index heads deferred now)
    (here : queue[index]? = some work)
    (heads_eq : ∀ target, target ∈ heads' ↔ target ∈ heads ∨ target = work.target)
    (passed : startable queue active native admits caller index = false)
    (deferred_eq : deferred' = deferred ++
      if refused queue active admits caller index then [index] else [])
    (now_eq : now' = callerAt queue active admits caller (index + 1)) :
    Reached queue active native admits caller (index + 1) heads' deferred' now' where
  within := (List.getElem?_eq_some_iff.1 here).1
  met target := by
    rw [heads_eq, reached.met]
    simp only [mem_take_succ here]
    constructor
    · rintro (⟨earlier, before, same⟩ | same)
      · exact ⟨earlier, Or.inl before, same⟩
      · exact ⟨work, Or.inr rfl, same.symm⟩
    · rintro ⟨earlier, before | rfl, same⟩
      · exact Or.inl ⟨earlier, before, same⟩
      · exact Or.inr same.symm
  passed j before := by
    obtain less | rfl := Nat.lt_succ_iff_lt_or_eq.1 before
    · exact reached.passed j less
    · exact passed
  deferred := by
    rw [deferred_eq, reached.deferred, List.range_succ, List.filter_append]
    congr 1
    cases kept : refused queue active admits caller index <;> simp [kept]
  caller := now_eq

theorem scan_found {rest : List (StateWork ε)} {heads : List String} {deferred : List Nat} {now : σ}
    (reached : Reached queue active native admits caller index heads deferred now)
    (remaining : queue.drop index = rest) :
    Found queue active native admits caller
      (Ready.scan active native admits index heads deferred rest now) := by
  induction rest generalizing index heads deferred now with
  | nil =>
    have done : index = queue.length :=
      Nat.le_antisymm reached.within (List.drop_eq_nil_iff.1 remaining)
    subst done
    refine ⟨by rintro _ _ _ ⟨⟩, fun _ =>
      ⟨fun j => ?_, reached.deferred, reached.caller⟩⟩
    obtain within | beyond := Nat.lt_or_ge j queue.length
    · exact reached.passed j within
    · exact (not_head (by simp [isHead, List.getElem?_eq_none beyond])).1
  | cons work rest ih =>
    have here : queue[index]? = some work := by
      have first : (queue.drop index)[0]? = some work := by rw [remaining]; rfl
      simpa using first
    have later : queue.drop (index + 1) = rest := by
      rw [← List.drop_drop, remaining]
      rfl
    have seen := reached.met work.target
    rw [Ready.scan]
    split
    · next repeated =>
      -- an earlier item of the target is its head
      have member : work.target ∈ heads := List.contains_iff_mem.1 repeated
      have head : isHead queue active index = false := by
        obtain ⟨earlier, before, same⟩ := seen.1 member
        rw [Bool.eq_false_iff, ne_eq, isHead_here here]
        exact fun first => first.2 earlier before same
      obtain ⟨passed, kept, asked⟩ := @not_head _ _ τ _ _ native admits caller _ head
      refine ih (reached.next here (fun target => ?_) passed (by simp [kept])
        (asked ▸ reached.caller)) later
      exact ⟨Or.inl, fun known => known.elim id fun same => same ▸ member⟩
    · next fresh =>
      have grown : ∀ target, target ∈ work.target :: heads ↔
          target ∈ heads ∨ target = work.target := by
        intro target
        rw [List.mem_cons, or_comm]
      have first : ∀ earlier ∈ queue.take index, earlier.target ≠ work.target :=
        fun earlier before same =>
          fresh (List.contains_iff_mem.2 (seen.2 ⟨earlier, before, same⟩))
      dsimp only
      split
      · next busy =>
        have head : isHead queue active index = false := by
          rw [Bool.eq_false_iff, ne_eq, isHead_here here, busy]
          exact fun idle => absurd idle.1 (by decide)
        obtain ⟨passed, kept, asked⟩ := @not_head _ _ τ _ _ native admits caller _ head
        exact ih (reached.next here grown passed (by simp [kept]) (asked ▸ reached.caller))
          later
      · next idle =>
        have head : isHead queue active index = true :=
          (isHead_here here).2 ⟨by simpa using idle, first⟩
        have answer := @answerAt_head _ _ τ _ _ admits caller _ _ here head
        have asked := @callerAt_head _ _ τ _ _ admits caller _ _ here head
        rw [← reached.caller] at answer asked
        split
        · next refusal =>
          rw [refusal] at answer asked
          refine ih (reached.next here grown (by simp [startable, answer]) ?_ asked.symm) later
          cases live : work.isLive <;> simp [refused, head, answer, here, live]
        · next admission =>
          rw [admission] at answer asked
          have kept : refused queue active admits caller index = false := by
            simp [refused, answer]
          split
          · next starts =>
            refine ⟨?_, by rintro ⟨⟩⟩
            rintro _ _ _ ⟨⟩
            refine ⟨answer, ?_, reached.passed, reached.deferred, asked.symm⟩
            simpa [startable, answer] using starts
          · next full =>
            refine ih (reached.next here grown ?_ (by simp [kept]) asked.symm) later
            simpa [startable, answer] using full

theorem scan_finds (queue : List (StateWork ε)) (active : String → Bool) (native : Nat)
    (admits : StateWork ε → σ → Option (τ × Bool) × σ) (caller : σ) :
    Found queue active native admits caller
      (Ready.scan active native admits 0 [] [] queue caller) :=
  scan_found ⟨Nat.zero_le _, by simp, fun _ less => absurd less (Nat.not_lt_zero _), rfl, rfl⟩ rfl

theorem refused_hint (here : queue[index]? = some work)
    (gone : refused queue active admits caller index = true) : work.isLive = false := by
  simp only [refused, here, Option.any_some, Bool.and_eq_true, Bool.not_eq_true'] at gone
  exact gone.2

/-! ## What is left of the queue -/

theorem range_filter_ascending (p : Nat → Bool) (n : Nat) :
    ((List.range n).filter p).Pairwise (· < ·) :=
  List.pairwise_lt_range.sublist List.filter_sublist

/-- The deferred hints and the selected item are removed by their positions in the old queue. -/
theorem eraseEach_selected (p : Nat → Bool) (index : Nat) (queue : List (StateWork ε)) :
    eraseEach ((List.range index).filter p).reverse (queue.eraseIdx index) =
      keepAt (fun j => j != index && !(decide (j < index) && p j)) queue := by
  have ascending : ((List.range index).filter p ++ [index]).Pairwise (· < ·) := by
    refine List.pairwise_append.2 ⟨range_filter_ascending p index, List.pairwise_singleton _ _, ?_⟩
    intro j member last same
    rw [List.mem_singleton.1 same]
    exact List.mem_range.1 (List.mem_filter.1 member).1
  have erased := eraseEach_reverse ascending queue
  rw [List.reverse_append, List.reverse_singleton, List.singleton_append, eraseEach] at erased
  rw [erased]
  congr 1
  funext j
  by_cases same : j = index
  · simp [same]
  · by_cases less : j < index <;> cases kept : p j <;> simp [same, less, kept]

theorem eraseEach_refused (p : Nat → Bool) (queue : List (StateWork ε)) :
    eraseEach ((List.range queue.length).filter p).reverse queue =
      keepAt (fun j => !p j) queue := by
  rw [eraseEach_reverse (range_filter_ascending p queue.length)]
  refine keepAt_congr fun j less => ?_
  cases kept : p j <;> simp [kept, less]

end Scan

/-! ## A take -/

/-- What a take does to the queue, said of the queue it found -/
structure Selects {ε σ τ : Type} (queue : List (StateWork ε)) (active : String → Bool)
    (native : Nat) (admits : StateWork ε → σ → Option (τ × Bool) × σ) (caller : σ)
    (chosen : Option (StateWork ε × τ × Bool)) (left : List (StateWork ε)) (now : σ) : Prop where
  /-- the first startable head is returned, and the hints refused before it are dropped -/
  some : ∀ work permit needsNative, chosen = some (work, permit, needsNative) →
    ∃ index, queue[index]? = some work ∧
      startable queue active native admits caller index = true ∧
      (∀ j < index, startable queue active native admits caller j = false) ∧
      (admits work (callerAt queue active admits caller index)).1 = some (permit, needsNative) ∧
      left = keepAt (fun j => j != index &&
        !(decide (j < index) && refused queue active admits caller j)) queue ∧
      left.filter (·.isLive) = (queue.eraseIdx index).filter (·.isLive) ∧
      now = callerAt queue active admits caller (index + 1)
  /-- or nothing can start, and every refused hint is dropped -/
  none : chosen = none →
    (∀ j, startable queue active native admits caller j = false) ∧
      left = keepAt (fun j => !refused queue active admits caller j) queue ∧
      left.filter (·.isLive) = queue.filter (·.isLive) ∧
      now = callerAt queue active admits caller queue.length
  order : left.Sublist queue

theorem filter_live_keepAt {ε : Type} {keeps : Nat → Bool} {queue : List (StateWork ε)}
    (hints : ∀ j work, queue[j]? = some work → keeps j = false → work.isLive = false) :
    (keepAt keeps queue).filter (·.isLive) = queue.filter (·.isLive) := by
  rw [← List.filterMap_eq_filter, filterMap_keepAt]
  intro j work here dropped
  simp [Option.guard, hints j work here dropped]

/-- Dropping hints before the selected item moves no live event. -/
theorem filter_live_erased {ε : Type} {p : Nat → Bool} {queue : List (StateWork ε)}
    (hints : ∀ j work, queue[j]? = some work → p j = true → work.isLive = false) :
    (eraseEach ((List.range index).filter p).reverse (queue.eraseIdx index)).filter (·.isLive) =
      (queue.eraseIdx index).filter (·.isLive) := by
  rw [← List.filterMap_eq_filter,
    filterMap_eraseEach (List.pairwise_reverse.2 (range_filter_ascending p index))]
  intro j member work found
  obtain ⟨before, chosen⟩ := List.mem_filter.1 (List.mem_reverse.1 member)
  rw [List.getElem?_eraseIdx_of_lt (List.mem_range.1 before)] at found
  simp [Option.guard, hints j work found chosen]

section Take

variable {ε σ τ : Type} (ready : Ready ε) (active : String → Bool) (native : Nat)
  (admits : StateWork ε → σ → Option (τ × Bool) × σ) (caller : σ)

theorem take_nothing
    (selection : (Ready.scan active native admits 0 [] [] ready.state caller).selected = none) :
    ready.takeStateAdmitted active native admits caller =
      (none, { ready with
        state := eraseEach (Ready.scan active native admits 0 [] [] ready.state caller).deferred.reverse
          ready.state },
        (Ready.scan active native admits 0 [] [] ready.state caller).caller) := by
  simp [Ready.takeStateAdmitted, selection]

theorem take_something {permit : τ} {needsNative : Bool} {work : StateWork ε}
    (selection : (Ready.scan active native admits 0 [] [] ready.state caller).selected =
      some (index, permit, needsNative)) (here : ready.state[index]? = some work) :
    ready.takeStateAdmitted active native admits caller =
      (some (work, permit, needsNative), { ready with
        state := eraseEach (Ready.scan active native admits 0 [] [] ready.state caller).deferred.reverse
          (ready.state.eraseIdx index) },
        (Ready.scan active native admits 0 [] [] ready.state caller).caller) := by
  simp [Ready.takeStateAdmitted, selection, here]

/-- A take returns the first startable head, and drops exactly the hints that were refused. -/
theorem take_selects :
    Selects ready.state active native admits caller
        (ready.takeStateAdmitted active native admits caller).1
        (ready.takeStateAdmitted active native admits caller).2.1.state
        (ready.takeStateAdmitted active native admits caller).2.2 ∧
      (ready.takeStateAdmitted active native admits caller).2.1.http = ready.http := by
  have found := scan_finds ready.state active native admits caller
  cases selection : (Ready.scan active native admits 0 [] [] ready.state caller).selected with
  | none =>
    obtain ⟨passed, deferred, asked⟩ := found.none selection
    rw [take_nothing ready active native admits caller selection, deferred, eraseEach_refused]
    dsimp only
    refine ⟨⟨fun work permit needsNative impossible => ?_, fun _ => ⟨passed, rfl, ?_, asked⟩,
      keepAt_sublist _ _⟩, rfl⟩
    · cases impossible
    · refine filter_live_keepAt fun j work here dropped => ?_
      exact refused_hint here (by simpa using dropped)
  | some choice =>
    obtain ⟨index, permit, needsNative⟩ := choice
    obtain ⟨answer, starts, passed, deferred, asked⟩ := found.selected _ _ _ selection
    have head : isHead ready.state active index = true := by
      cases head : isHead ready.state active index with
      | true => rfl
      | false => simp [answerAt, head] at answer
    obtain ⟨work, here⟩ : ∃ work, ready.state[index]? = some work := by
      cases here : ready.state[index]? with
      | some work => exact ⟨work, rfl⟩
      | none => simp [isHead, here] at head
    rw [take_something ready active native admits caller selection here, deferred,
      eraseEach_selected]
    dsimp only
    refine ⟨⟨fun _ _ _ returned => ?_, fun impossible => ?_, keepAt_sublist _ _⟩, rfl⟩
    · cases returned
      refine ⟨index, here, starts, passed, ?_, rfl, ?_, asked⟩
      · rw [← answer, answerAt_head here head]
      · rw [← eraseEach_selected]
        exact filter_live_erased fun j work there gone => refused_hint there gone
    · cases impossible

end Take

-- a completion waits for a native slot, and the start behind it waits for the completion
example :
    ((⟨[.live ⟨true, "a"⟩, .live ⟨false, "a"⟩, .live ⟨false, "b"⟩], []⟩ : Ready Bool).takeStateAdmitted
      (fun _ => false) nativeSlots
      (fun work (asked : Nat) => (match work with
        | .live e => some ((), e.event)
        | _ => none, asked + 1)) 0).1.map (·.1.target) = some "b" := by
  decide +kernel

end CodexRemote.Verified.Ready

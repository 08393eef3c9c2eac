import CodexRemote.Verified.Ready

/-! # The shape of the ready queues

Both queues share one capacity, no target floods the state queue, a recovery hint
is alone on its target, and no HTTP delivery is queued twice.  Every operation
removes some work and then adds at most one piece; removal keeps the shape, so only
the check made before an insertion matters.
-/

namespace CodexRemote.Verified.Ready

open Foundations CodexRemote.Runtime

variable {ε σ τ : Type}

structure WellFormed (ready : Ready ε) : Prop where
  capacity : ready.len ≤ readyCap
  lanes : ∀ target, ready.state.countP (fun w => w.target == target) ≤ targetCap
  exclusive : ready.state.Pairwise fun a b => a.target = b.target → a.isLive ∧ b.isLive
  identities : ready.http.Pairwise fun a b => a.sameIdentity b = false

theorem WellFormed.empty : WellFormed (Ready.empty : Ready ε) where
  capacity := Nat.zero_le _
  lanes _ := Nat.zero_le _
  exclusive := List.Pairwise.nil
  identities := List.Pairwise.nil

theorem sameIdentity_comm (a b : Entry) : a.sameIdentity b = b.sameIdentity a := by
  simp only [Entry.sameIdentity, Bool.beq_comm]

/-! ## Removal -/

/-- `next` keeps some of the work of `ready`, in its order. -/
structure Shrunk (ready next : Ready ε) : Prop where
  state : next.state.Sublist ready.state
  http : next.http.Sublist ready.http

theorem Shrunk.refl (ready : Ready ε) : Shrunk ready ready :=
  ⟨List.Sublist.refl _, List.Sublist.refl _⟩

variable {next ready : Ready ε}

theorem Shrunk.len (shrunk : Shrunk ready next) : next.len ≤ ready.len :=
  Nat.add_le_add shrunk.state.length_le shrunk.http.length_le

theorem WellFormed.shrunk (shape : WellFormed ready)
    (shrunk : Shrunk ready next) : WellFormed next where
  capacity := Nat.le_trans shrunk.len shape.capacity
  lanes target := Nat.le_trans shrunk.state.countP_le (shape.lanes target)
  exclusive := shape.exclusive.sublist shrunk.state
  identities := shape.identities.sublist shrunk.http

theorem evictHint_shrunk (evicted : ready.evictHint = some next) :
    Shrunk ready next ∧ next.len < ready.len := by
  unfold Ready.evictHint at evicted
  obtain ⟨index, position, rfl⟩ := Option.map_eq_some_iff.1 evicted
  obtain ⟨within, _⟩ := List.findIdx?_eq_some_iff_getElem.1 position
  refine ⟨⟨List.eraseIdx_sublist .., List.Sublist.refl _⟩, ?_⟩
  simp only [Ready.len, List.length_eraseIdx_of_lt within]
  omega

theorem popHttp_shrunk (popped : ready.popHttp = some next) :
    Shrunk ready next ∧ next.len < ready.len := by
  unfold Ready.popHttp at popped
  split at popped
  · cases popped
  · next some =>
    cases popped
    refine ⟨⟨List.Sublist.refl _, List.dropLast_sublist _⟩, ?_⟩
    have waiting : 0 < ready.http.length := by
      rw [List.length_pos_iff]
      simpa using some
    simp only [Ready.len, List.length_dropLast]
    omega

/-- Making room for one more piece of work, by either queue. -/
theorem room_shrunk {roomy : Ready ε} {first second : Option (Ready ε)} (shape : WellFormed ready)
    (evicts : ∀ next, first = some next → Shrunk ready next ∧ next.len < ready.len)
    (pops : ∀ next, second = some next → Shrunk ready next ∧ next.len < ready.len)
    (room : (if readyCap ≤ ready.len then first.or second else some ready) = some roomy) :
    Shrunk ready roomy ∧ roomy.len < readyCap := by
  split at room
  · have made : Shrunk ready roomy ∧ roomy.len < ready.len := by
      cases Option.or_eq_some_iff.1 room with
      | inl evicted => exact evicts roomy evicted
      | inr popped => exact pops roomy popped.2
    exact ⟨made.1, Nat.lt_of_lt_of_le made.2 shape.capacity⟩
  · next below =>
    cases room
    exact ⟨Shrunk.refl _, Nat.lt_of_not_le below⟩

/-! ## Insertion -/

theorem WellFormed.pushState {work : StateWork ε} (shape : WellFormed ready)
    (room : ready.len < readyCap)
    (lane : ready.state.countP (fun w => w.target == work.target) < targetCap)
    (apart : ∀ w ∈ ready.state, w.target = work.target → w.isLive ∧ work.isLive) :
    WellFormed { ready with state := ready.state ++ [work] } where
  capacity := by
    simp only [Ready.len, List.length_append, List.length_singleton] at room ⊢
    omega
  lanes target := by
    rw [List.countP_append, List.countP_singleton]
    by_cases own : work.target = target
    · subst own
      simp only [beq_self_eq_true, if_true]
      exact lane
    · have other : (work.target == target) = false := by simpa using own
      simp only [other, Bool.false_eq_true, if_false, Nat.add_zero]
      exact shape.lanes target
  exclusive := by
    rw [List.pairwise_append]
    refine ⟨shape.exclusive, List.pairwise_singleton _ _, ?_⟩
    intro w member last same
    rw [List.mem_singleton] at same
    subst same
    exact apart w member
  identities := shape.identities

/-- A hint enters only when its target has no other state work. -/
theorem WellFormed.pushHint {work : StateWork ε} (shape : WellFormed ready)
    (room : ready.len < readyCap)
    (free : ready.state.any (fun w => w.target == work.target) = false) :
    WellFormed { ready with state := ready.state ++ [work] } := by
  have none : ∀ w ∈ ready.state, ¬(w.target == work.target) = true := by
    intro w member same
    have found : ready.state.any (fun w => w.target == work.target) = true :=
      List.any_eq_true.2 ⟨w, member, same⟩
    rw [free] at found
    cases found
  refine shape.pushState room ?_ ?_
  · rw [List.countP_eq_zero.2 none]
    decide
  · intro w member same
    exact absurd (beq_iff_eq.2 same) (none w member)

theorem WellFormed.pushHttp {entry : Entry} (shape : WellFormed ready)
    (room : ready.len < readyCap) (fresh : ∀ e ∈ ready.http, e.sameIdentity entry = false) :
    WellFormed { ready with http := ready.http ++ [entry] } where
  capacity := by
    simp only [Ready.len, List.length_append, List.length_singleton] at room ⊢
    omega
  lanes := shape.lanes
  exclusive := shape.exclusive
  identities := by
    rw [List.pairwise_append]
    refine ⟨shape.identities, List.pairwise_singleton _ _, ?_⟩
    intro e member last same
    rw [List.mem_singleton.1 same]
    exact fresh e member

theorem WellFormed.frontHttp {entry : Entry} (shape : WellFormed ready)
    (room : ready.len < readyCap) (fresh : ∀ e ∈ ready.http, e.sameIdentity entry = false) :
    WellFormed { ready with http := entry :: ready.http } where
  capacity := by
    simp only [Ready.len, List.length_cons] at room ⊢
    omega
  lanes := shape.lanes
  exclusive := shape.exclusive
  identities := by
    rw [List.pairwise_cons]
    refine ⟨?_, shape.identities⟩
    intro e member
    rw [sameIdentity_comm]
    exact fresh e member

/-! ## The operations -/

theorem live_wellFormed (shape : WellFormed ready) (event : Envelope ε) :
    WellFormed (ready.live event).2 := by
  have purged : Shrunk ready { ready with
      state := ready.state.filter fun w => w.isLive || w.target != event.target } :=
    ⟨List.filter_sublist, List.Sublist.refl _⟩
  have accepted : ∀ w ∈ ready.state.filter (fun w => w.isLive || w.target != event.target),
      w.target = event.target → w.isLive := by
    intro w member same
    have kept := (List.mem_filter.1 member).2
    simpa [same] using kept
  unfold Ready.live
  simp only
  have shape := shape.shrunk purged
  split
  · exact shape
  · next lane =>
    split
    · exact shape
    · next room =>
      rename_i roomy
      obtain ⟨shrunk, below⟩ := room_shrunk shape (fun _ => evictHint_shrunk)
        (fun _ => popHttp_shrunk) room
      refine (shape.shrunk shrunk).pushState below ?_ ?_
      · exact Nat.lt_of_le_of_lt shrunk.state.countP_le (Nat.lt_of_not_le lane)
      · intro w member same
        exact ⟨accepted w (shrunk.state.subset member) same, rfl⟩

theorem durable_wellFormed (shape : WellFormed ready) (entry : Entry)
    (active : String → Bool) : WellFormed (ready.durable entry active) := by
  unfold Ready.durable
  split
  · exact shape
  · next full =>
    have below : ready.len < readyCap := Nat.lt_of_not_le full
    split
    · split
      · exact shape
      · next refused =>
        rw [Bool.or_eq_true, not_or] at refused
        exact shape.pushHint below (Bool.eq_false_iff.2 refused.2)
    · split
      · next fresh =>
        refine shape.pushHttp below ?_
        intro e member
        rw [Bool.not_eq_true', List.any_eq_false] at fresh
        exact Bool.eq_false_iff.2 (fresh e member)
      · exact shape

theorem writerRetry_wellFormed (shape : WellFormed ready)
    (hint : WriterRetryHint) (active : String → Bool) :
    WellFormed (ready.writerRetry hint active) := by
  unfold Ready.writerRetry
  split
  · next granted =>
    simp only [Bool.and_eq_true, decide_eq_true_eq, Bool.not_eq_true'] at granted
    exact shape.pushHint granted.1.1 granted.2
  · exact shape

theorem prioritize_wellFormed (shape : WellFormed ready) (entry : Entry) :
    WellFormed (ready.prioritize entry) := by
  have dropped : Shrunk ready { ready with
      http := ready.http.filter fun prior => !prior.sameIdentity entry } :=
    ⟨List.Sublist.refl _, List.filter_sublist⟩
  have others : ∀ e ∈ ready.http.filter (fun prior => !prior.sameIdentity entry),
      e.sameIdentity entry = false := by
    intro e member
    simpa using (List.mem_filter.1 member).2
  unfold Ready.prioritize
  simp only
  have shape := shape.shrunk dropped
  split
  · exact shape
  · next room =>
    rename_i roomy
    obtain ⟨shrunk, below⟩ := room_shrunk shape (fun _ => popHttp_shrunk)
      (fun _ => evictHint_shrunk) room
    refine (shape.shrunk shrunk).frontHttp below ?_
    intro e member
    exact others e (shrunk.http.subset member)

theorem takeStateAdmitted_shrunk (ready : Ready ε) (active : String → Bool) (native : Nat)
    (admits : StateWork ε → σ → Option (τ × Bool) × σ) (caller : σ) :
    Shrunk ready (ready.takeStateAdmitted active native admits caller).2.1 := by
  unfold Ready.takeStateAdmitted
  refine ⟨?_, List.Sublist.refl _⟩
  refine (eraseEach_sublist _ _).trans ?_
  split
  · exact List.eraseIdx_sublist ..
  · exact List.Sublist.refl _

theorem takeHttp_shrunk (ready : Ready ε) (active : Int → Bool) :
    Shrunk ready (ready.takeHttp active).2 := by
  unfold Ready.takeHttp
  split
  · exact Shrunk.refl _
  · exact ⟨List.Sublist.refl _, List.eraseIdx_sublist ..⟩

/-! ## Runs -/

theorem readyStep_wellFormed {event : ReadyEvent ε}
    (step : ReadyStep ready event next) (shape : WellFormed ready) : WellFormed next := by
  cases step with
  | live ready event => exact live_wellFormed shape event
  | durable ready entry active => exact durable_wellFormed shape entry active
  | writerRetry ready hint active => exact writerRetry_wellFormed shape hint active
  | prioritize ready entry => exact prioritize_wellFormed shape entry
  | takeState ready active native admits caller =>
    exact shape.shrunk (takeStateAdmitted_shrunk ready active native admits caller)
  | takeHttp ready active => exact shape.shrunk (takeHttp_shrunk ready active)

theorem WellFormed.hint_alone (shape : WellFormed ready) {work : StateWork ε}
    (member : work ∈ ready.state) (hint : work.isLive = false) :
    ready.state.filter (fun w => w.target == work.target) = [work] := by
  refine filter_alone member (beq_self_eq_true _) (shape.exclusive.imp ?_)
  intro a b both own same
  obtain ⟨first, second⟩ := both ((beq_iff_eq.1 own).trans (beq_iff_eq.1 same).symm)
  constructor
  · intro it
    rw [it, hint] at first
    cases first
  · intro it
    rw [it, hint] at second
    cases second

/-- Every run from the empty queue stays within the capacity of the queue and of each
target, never queues a hint beside other work of its target, and never queues the same
HTTP delivery twice. -/
theorem ready_shape {ready : Ready ε} {events : List (ReadyEvent ε)}
    (run : Run ReadyStep Ready.empty events ready) :
    ready.state.length + ready.http.length ≤ readyCap ∧
      (∀ target, ready.state.countP (fun w => w.target == target) ≤ targetCap) ∧
      (∀ work ∈ ready.state, work.isLive = false →
        ready.state.filter (fun w => w.target == work.target) = [work]) ∧
      ready.http.Pairwise fun a b => a.sameIdentity b = false := by
  have shape : WellFormed ready := 
    run.preserves WellFormed (fun _ _ _ => readyStep_wellFormed) WellFormed.empty
  exact ⟨shape.capacity, shape.lanes, fun _ => shape.hint_alone, shape.identities⟩

/-- A live event that displaces the recovery hint of its target. -/
theorem ready_live_displaces_hint :
    ([.live ⟨"completed", "a"⟩] : List (StateWork String)).countP (fun w => w.target == "a") ≤
      targetCap := by
  have run : Run ReadyStep Ready.empty [.arranged, .offered ⟨"completed", "a"⟩ true]
      (⟨[.live ⟨"completed", "a"⟩], []⟩ : Ready String) :=
    .cons (.writerRetry Ready.empty ⟨"a"⟩ fun _ => false)
      (.cons (.live _ ⟨"completed", "a"⟩) (.nil _))
  exact (ready_shape run).2.1 "a"

end CodexRemote.Verified.Ready

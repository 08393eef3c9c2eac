import CodexRemote.Foundations.Runs
import CodexRemote.Foundations.Transactions
import CodexRemote.Runtime.HistoryPoll

/-! # History poll tokens commit at most once, and watermarks only advance

A token is spent once every state its channel can still reach has a later revision.
The shared counter makes this true after a commit and after a drop alike, and it
stays true: that is the one fact all three statements about tokens rest on.
-/

namespace CodexRemote.Verified.HistoryPoll

open Foundations Runtime.HistoryPoll

inductive PollEvent where
  | began (channelId : Nat) (answer : Except HistoryPollError HistoryPollCycleToken)
  | proposed (cycle : HistoryPollCycleToken) (token : Except HistoryPollError HistoryPollCommitToken)
  | committed (channelId : Nat) (token : HistoryPollCommitToken)
      (answer : Except HistoryPollError Unit)
  | retained (keeps : Nat → Bool)

/-- The state with the tokens made from it so far. -/
structure PollRun where
  state : HistoryPollState
  cycles : List HistoryPollCycleToken
  tokens : List HistoryPollCommitToken

def PollRun.start : PollRun := ⟨.initial, [], []⟩

def issued {ε α : Type} : Except ε α → List α
  | .ok token => [token]
  | .error _ => []

/-- Tokens are opaque: a cycle token comes from `begin`, a commit token from `propose`. -/
inductive PollStep : PollRun → PollEvent → PollRun → Prop where
  | begin (s : PollRun) (channelId : Nat) (startedAt : Int) :
      PollStep s (.began channelId (s.state.begin channelId startedAt).1)
        { s with
          state := (s.state.begin channelId startedAt).2
          cycles := s.cycles ++ issued (s.state.begin channelId startedAt).1 }
  | propose {τ : Type} (s : PollRun) (cycle : HistoryPollCycleToken)
      (newestFirst : List (HistoryBatchItem τ)) (made : cycle ∈ s.cycles) :
      PollStep s (.proposed cycle ((s.state.propose cycle newestFirst).map (·.commitToken)))
        { s with
          tokens := s.tokens ++
            issued ((s.state.propose cycle newestFirst).map (·.commitToken)) }
  | commit (s : PollRun) (channelId : Nat) (token : HistoryPollCommitToken)
      (made : token ∈ s.tokens) :
      PollStep s (.committed channelId token (s.state.commit channelId token).1)
        { s with state := (s.state.commit channelId token).2 }
  | retain (s : PollRun) (keeps : Nat → Bool) :
      PollStep s (.retained keeps) { s with state := s.state.retainChannels keeps }

/-- The least watermark that may follow a channel state. -/
def floorOf : ChannelState → Option HistoryWatermark
  | .priming _ boundary _ => some boundary
  | .active watermark _ => watermark

/-! ## Operations -/

theorem prime_cases (s : HistoryPollState) (channelId : Nat) (phase : HistoryPollPhase)
    (startedAt : Int) :
    (s.prime channelId phase startedAt = (.error (.revisionExhausted channelId), s)) ∨
      ∃ state, state = .priming phase (pollBoundary startedAt) (s.lastRevision + 1) ∧
        s.lastRevision + 1 ≤ u64Max ∧
        s.prime channelId phase startedAt = (.ok ⟨channelId, state⟩,
          ⟨Function.update s.channels channelId (some state), s.lastRevision + 1⟩) := by
  unfold HistoryPollState.prime
  cases next : checkedSucc u64Max s.lastRevision with
  | none => exact Or.inl rfl
  | some revision =>
    obtain ⟨rfl, bound⟩ := checkedSucc_some next
    exact Or.inr ⟨_, rfl, bound, rfl⟩

theorem begin_cases (s : HistoryPollState) (channelId : Nat) (startedAt : Int) :
    (s.begin channelId startedAt = (.error (.revisionExhausted channelId), s)) ∨
      (∃ state, s.channels channelId = some state ∧ (∀ r, state ≠ .active none r) ∧
        s.begin channelId startedAt = (.ok ⟨channelId, state⟩, s)) ∨
      ∃ phase state, state = .priming phase (pollBoundary startedAt) (s.lastRevision + 1) ∧
        s.lastRevision + 1 ≤ u64Max ∧
        (s.channels channelId = none ∨ ∃ r, s.channels channelId = some (.active none r)) ∧
        s.begin channelId startedAt = (.ok ⟨channelId, state⟩,
          ⟨Function.update s.channels channelId (some state), s.lastRevision + 1⟩) := by
  unfold HistoryPollState.begin
  split
  · next absent =>
    rcases prime_cases s channelId .prime startedAt with full | ⟨state, made, room, primed⟩
    · exact Or.inl full
    · exact Or.inr (Or.inr ⟨.prime, state, made, room, Or.inl absent, primed⟩)
  · next r missing =>
    rcases prime_cases s channelId .reprime startedAt with full | ⟨state, made, room, primed⟩
    · exact Or.inl full
    · exact Or.inr (Or.inr ⟨.reprime, state, made, room, Or.inr ⟨r, missing⟩, primed⟩)
  · next state watermarked present =>
    exact Or.inr (Or.inl ⟨state, present, fun r same => watermarked r same, rfl⟩)

theorem commit_cases (s : HistoryPollState) (channelId : Nat) (token : HistoryPollCommitToken) :
    ((s.commit channelId token).2 = s ∧ ∃ e, (s.commit channelId token).1 = .error e) ∨
      (channelId = token.channelId ∧ s.channels token.channelId = some token.expected ∧
        s.commit channelId token = (.ok (),
          ⟨Function.update s.channels token.channelId
            (some (.active (some token.nextWatermark) (s.lastRevision + 1))),
            s.lastRevision + 1⟩)) := by
  unfold HistoryPollState.commit
  split
  · exact Or.inl ⟨rfl, _, rfl⟩
  · next same =>
    rw [ne_eq, not_not] at same
    subst same
    split
    · exact Or.inl ⟨rfl, _, rfl⟩
    · next current =>
      rw [ne_eq, not_not] at current
      cases next : checkedSucc u64Max s.lastRevision with
      | none => exact Or.inl ⟨rfl, _, rfl⟩
      | some revision =>
        obtain ⟨rfl, _⟩ := checkedSucc_some next
        exact Or.inr ⟨rfl, current, rfl⟩

/-- A proposal is made from the present state of its channel, and does not go below it. -/
theorem propose_ok {τ : Type} {s : HistoryPollState} {cycle : HistoryPollCycleToken}
    {newestFirst : List (HistoryBatchItem τ)} {proposal : HistoryPollProposal τ}
    (proposed : s.propose cycle newestFirst = .ok proposal) :
    s.channels cycle.channelId = some cycle.expected ∧
      proposal.commitToken.channelId = cycle.channelId ∧
      proposal.commitToken.expected = cycle.expected ∧
      ∃ floor, floorOf cycle.expected = some floor ∧ floor ≤ proposal.commitToken.nextWatermark := by
  unfold HistoryPollState.propose at proposed
  obtain ⟨_, proposed⟩ := guard_ok.1 proposed
  obtain ⟨current, proposed⟩ := guard_ok.1 proposed
  rw [ne_eq, not_not] at current
  simp only at proposed
  split at proposed
  · cases proposed
  · next phase next mode parameters =>
    cases proposed
    refine ⟨current, rfl, rfl, ?_⟩
    generalize (newestFirst.filterMap (·.watermark)).max? = latest at parameters
    cases expected : cycle.expected with
    | priming phase' boundary revision =>
      simp only [expected, proposalParameters, Option.some.injEq, Prod.mk.injEq] at parameters
      obtain ⟨_, rfl, _⟩ := parameters
      refine ⟨boundary, rfl, ?_⟩
      cases latest with
      | none => exact le_refl boundary
      | some value => exact le_max_right value boundary
    | active watermark revision =>
      cases watermark with
      | none => simp [expected, proposalParameters] at parameters
      | some previous =>
        simp only [expected, proposalParameters, Option.some.injEq, Prod.mk.injEq] at parameters
        obtain ⟨_, rfl, _⟩ := parameters
        refine ⟨previous, rfl, ?_⟩
        cases latest with
        | none => exact le_refl previous
        | some value => exact le_max_right value previous

/-! ## What a step does to the state -/

inductive StateMove (s : HistoryPollState) (event : PollEvent) : HistoryPollState → Prop where
  | same (unaccepted : ∀ channelId token, event ≠ .committed channelId token (.ok ()))
      (unretained : ∀ keeps, event ≠ .retained keeps) : StateMove s event s
  | primed (channelId : Nat) (phase : HistoryPollPhase) (startedAt : Int)
      (answer : Except HistoryPollError HistoryPollCycleToken)
      (called : event = .began channelId answer)
      (unset : s.channels channelId = none ∨ ∃ r, s.channels channelId = some (.active none r)) :
      StateMove s event ⟨Function.update s.channels channelId
        (some (.priming phase (pollBoundary startedAt) (s.lastRevision + 1))), s.lastRevision + 1⟩
  | accepted (token : HistoryPollCommitToken)
      (called : event = .committed token.channelId token (.ok ()))
      (current : s.channels token.channelId = some token.expected) :
      StateMove s event ⟨Function.update s.channels token.channelId
        (some (.active (some token.nextWatermark) (s.lastRevision + 1))), s.lastRevision + 1⟩
  | retained (keeps : Nat → Bool) (called : event = .retained keeps) :
      StateMove s event (s.retainChannels keeps)

variable {event : PollEvent} {next s : PollRun} {channelId : Nat} {token : HistoryPollCommitToken}

theorem pollStep_move (step : PollStep s event next) :
    StateMove s.state event next.state := by
  cases step with
  | begin _ channelId startedAt =>
    simp only
    rcases begin_cases s.state channelId startedAt with
      full | ⟨state, _, _, kept⟩ | ⟨phase, state, rfl, _, unset, primed⟩
    · rw [full]
      exact .same (fun _ _ => by simp) (fun _ => by simp)
    · rw [kept]
      exact .same (fun _ _ => by simp) (fun _ => by simp)
    · rw [primed]
      exact .primed channelId phase startedAt _ rfl unset
  | propose _ cycle newestFirst made =>
    exact .same (fun _ _ => by simp) (fun _ => by simp)
  | commit _ channelId token made =>
    simp only
    rcases commit_cases s.state channelId token with ⟨kept, e, failed⟩ | ⟨rfl, current, accepted⟩
    · rw [kept, failed]
      exact .same (fun _ _ => by simp) (fun _ => by simp)
    · rw [accepted]
      exact .accepted token rfl current
  | retain _ keeps => exact .retained keeps rfl

/-! ## Spent channel states -/

/-- No state of the channel can be `expected` again. -/
def Spent (s : HistoryPollState) (channelId : Nat) (expected : ChannelState) : Prop :=
  expected.revision ≤ s.lastRevision ∧
    ∀ state, s.channels channelId = some state → expected.revision < state.revision

theorem StateMove.keeps_spent {s next : HistoryPollState}
    (move : StateMove s event next) {expected : ChannelState}
    (spent : Spent s channelId expected) : Spent next channelId expected := by
  obtain ⟨used, later⟩ := spent
  have fresh : ∀ (changed : Nat) (state : ChannelState), state.revision = s.lastRevision + 1 →
      Spent ⟨Function.update s.channels changed (some state), s.lastRevision + 1⟩ channelId
        expected := by
    intro changed state revision
    refine ⟨Nat.le_succ_of_le used, fun found here => ?_⟩
    by_cases same : channelId = changed
    · subst same
      simp only [Function.update_self, Option.some.injEq] at here
      rw [← here, revision]
      omega
    · simp only [Function.update_of_ne same] at here
      exact later found here
  cases move with
  | same _ _ => exact ⟨used, later⟩
  | primed changed _ _ _ _ _ => exact fresh changed _ rfl
  | accepted token _ _ => exact fresh token.channelId _ rfl
  | retained keeps _ =>
    refine ⟨used, fun found here => ?_⟩
    simp only [HistoryPollState.retainChannels] at here
    split at here
    · exact later found here
    · cases here

theorem run_keeps_spent {events : List PollEvent}
    (run : Run PollStep s events next) {expected : ChannelState}
    (spent : Spent s.state channelId expected) : Spent next.state channelId expected :=
  run.preserves (fun s => Spent s.state channelId expected)
    (fun _ _ _ step spent => (pollStep_move step).keeps_spent spent) spent

/-- An accepted commit needs its expected state, so a spent token is refused. -/
theorem accepted_current (step : PollStep s (.committed channelId token (.ok ())) next) :
    channelId = token.channelId ∧ s.state.channels token.channelId = some token.expected ∧
      next.state = ⟨Function.update s.state.channels token.channelId
        (some (.active (some token.nextWatermark) (s.state.lastRevision + 1))),
        s.state.lastRevision + 1⟩ := by
  have move := pollStep_move step
  generalize next.state = after at move
  cases move with
  | same unaccepted _ => exact absurd rfl (unaccepted channelId token)
  | primed _ _ _ _ called _ => cases called
  | accepted other called current =>
    cases called
    exact ⟨rfl, current, rfl⟩
  | retained _ called => cases called

theorem accepted_not_spent (step : PollStep s (.committed channelId token (.ok ())) next) :
    ¬Spent s.state token.channelId token.expected := by
  obtain ⟨_, current, _⟩ := accepted_current step
  exact fun spent => Nat.lt_irrefl _ (spent.2 token.expected current)

/-! ## The invariant of a run -/

structure PollInvariant (s : PollRun) : Prop where
  revisions : ∀ c state, s.state.channels c = some state → state.revision ≤ s.state.lastRevision
  watermarked : ∀ c r, s.state.channels c ≠ some (.active none r)
  tokens : ∀ token ∈ s.tokens, token.expected.revision ≤ s.state.lastRevision ∧
    ∃ floor, floorOf token.expected = some floor ∧ floor ≤ token.nextWatermark

theorem StateMove.counter {s next : HistoryPollState}
    (move : StateMove s event next) : s.lastRevision ≤ next.lastRevision := by
  cases move with
  | same _ _ | retained _ _ => exact Nat.le_refl _
  | primed | accepted => exact Nat.le_succ _

theorem StateMove.revisions {s next : HistoryPollState} (move : StateMove s event next)
    (bounded : ∀ c state, s.channels c = some state → state.revision ≤ s.lastRevision) :
    ∀ c state, next.channels c = some state → state.revision ≤ next.lastRevision := by
  have fresh : ∀ (changed : Nat) (new : ChannelState), new.revision = s.lastRevision + 1 →
      ∀ c state, Function.update s.channels changed (some new) c = some state →
        state.revision ≤ s.lastRevision + 1 := by
    intro changed new revision c state here
    by_cases same : c = changed
    · subst same
      rw [Function.update_self, Option.some.injEq] at here
      rw [← here, revision]
    · rw [Function.update_of_ne same] at here
      exact Nat.le_succ_of_le (bounded c state here)
  cases move with
  | same _ _ => exact bounded
  | primed changed _ _ _ _ _ => exact fresh changed _ rfl
  | accepted token _ _ => exact fresh token.channelId _ rfl
  | retained keeps _ =>
    intro c state here
    simp only [HistoryPollState.retainChannels] at here
    split at here
    · exact bounded c state here
    · cases here

theorem StateMove.watermarked {s next : HistoryPollState}
    (move : StateMove s event next) (set : ∀ c r, s.channels c ≠ some (.active none r)) :
    ∀ c r, next.channels c ≠ some (.active none r) := by
  intro c r
  have fresh : ∀ (changed : Nat) (new : ChannelState), new ≠ .active none r →
      Function.update s.channels changed (some new) c ≠ some (.active none r) := by
    intro changed new different
    by_cases same : c = changed
    · subst same
      rw [Function.update_self]
      exact fun equal => different (Option.some.inj equal)
    · rw [Function.update_of_ne same]
      exact set c r
  cases move with
  | same _ _ => exact set c r
  | primed changed _ _ _ _ _ => exact fresh changed _ (by simp)
  | accepted token _ _ => exact fresh token.channelId _ (by simp)
  | retained keeps _ =>
    simp only [HistoryPollState.retainChannels]
    split
    · exact set c r
    · simp

theorem pollStep_tokens (step : PollStep s event next) (member : token ∈ next.tokens) :
    token ∈ s.tokens ∨ ∃ floor, s.state.channels token.channelId = some token.expected ∧
      floorOf token.expected = some floor ∧ floor ≤ token.nextWatermark := by
  cases step with
  | begin | commit | retain => exact Or.inl member
  | propose _ cycle newestFirst made =>
    rcases List.mem_append.1 member with old | new
    · exact Or.inl old
    · cases proposed : s.state.propose cycle newestFirst with
      | error e => simp [proposed, Except.map, issued] at new
      | ok proposal =>
        simp only [proposed, Except.map, issued, List.mem_singleton] at new
        subst new
        obtain ⟨current, channel, expected, floor, lower, above⟩ := propose_ok proposed
        rw [channel, expected]
        exact Or.inr ⟨floor, current, lower, above⟩

theorem pollStep_invariant (step : PollStep s event next)
    (holds : PollInvariant s) : PollInvariant next where
  revisions := (pollStep_move step).revisions holds.revisions
  watermarked := (pollStep_move step).watermarked holds.watermarked
  tokens := by
    intro token member
    have counter := (pollStep_move step).counter
    rcases pollStep_tokens step member with old | ⟨floor, current, lower, above⟩
    · obtain ⟨used, rest⟩ := holds.tokens token old
      exact ⟨Nat.le_trans used counter, rest⟩
    · exact ⟨Nat.le_trans (holds.revisions _ _ current) counter, floor, lower, above⟩

theorem start_invariant : PollInvariant .start where
  revisions _ _ here := by cases here
  watermarked _ _ := by simp [PollRun.start, HistoryPollState.initial]
  tokens _ member := by cases member

theorem run_invariant {events : List PollEvent}
    (run : Run PollStep .start events s) : PollInvariant s :=
  run.preserves PollInvariant (fun _ _ _ step holds => pollStep_invariant step holds)
    start_invariant

/-! ## Commits, drops and watermarks -/

theorem accepted_spends
    (holds : PollInvariant s) (step : PollStep s (.committed channelId token (.ok ())) next) :
    Spent next.state token.channelId token.expected := by
  obtain ⟨_, current, after⟩ := accepted_current step
  have used := holds.revisions _ _ current
  rw [after]
  refine ⟨Nat.le_succ_of_le used, fun state here => ?_⟩
  simp only [Function.update_self, Option.some.injEq] at here
  rw [← here]
  exact Nat.lt_succ_of_le used

theorem dropped_spends {keeps : Nat → Bool} (made : token.expected.revision ≤ s.state.lastRevision)
    (step : PollStep s (.retained keeps) next) (dropped : keeps token.channelId = false) :
    Spent next.state token.channelId token.expected := by
  cases step with
  | retain _ _ =>
    refine ⟨made, fun state here => ?_⟩
    simp [HistoryPollState.retainChannels, dropped] at here

theorem proposed_made {cycle : HistoryPollCycleToken}
    (step : PollStep s (.proposed cycle (.ok token)) next) :
    token ∈ next.tokens := by
  generalize called : PollEvent.proposed cycle (.ok token) = event at step
  cases step with
  | propose _ cycle' newestFirst made =>
    obtain ⟨rfl, same⟩ := PollEvent.proposed.inj called
    refine List.mem_append_right _ ?_
    rw [← same]
    exact List.mem_singleton_self token
  | begin | commit | retain => cases called

theorem committed_made {answer : Except HistoryPollError Unit}
    (step : PollStep s (.committed channelId token answer) next) : token ∈ s.tokens := by
  generalize called : PollEvent.committed channelId token answer = event at step
  cases step with
  | commit _ _ token' made =>
    obtain ⟨_, rfl, _⟩ := PollEvent.committed.inj called
    exact made
  | begin | propose | retain => cases called

theorem watermark_some {s : HistoryPollState} {w : HistoryWatermark} :
    s.watermark channelId = some w ↔ ∃ r, s.channels channelId = some (.active (some w) r) := by
  unfold HistoryPollState.watermark
  constructor
  · intro found
    split at found
    · next watermark r here => exact ⟨r, found ▸ here⟩
    · cases found
  · rintro ⟨r, here⟩
    rw [here]

/-- A step that does not drop the channel keeps its watermark or advances it. -/
theorem pollStep_watermark (holds : PollInvariant s) (step : PollStep s event next)
    (kept : ∀ keeps, event = .retained keeps → keeps channelId = true) {w : HistoryWatermark}
    (before : s.state.watermark channelId = some w) :
    ∃ w', next.state.watermark channelId = some w' ∧ w ≤ w' := by
  obtain ⟨r, here⟩ := watermark_some.1 before
  have move := pollStep_move step
  -- an accepted token was made from the present state, so it starts at the present watermark
  have floor : ∀ token, event = .committed token.channelId token (.ok ()) →
      token.channelId = channelId → w ≤ token.nextWatermark := by
    rintro token rfl rfl
    obtain ⟨_, current, _⟩ := accepted_current step
    obtain ⟨_, floor, lower, above⟩ := holds.tokens token (committed_made step)
    rw [here, Option.some.injEq] at current
    rw [← current] at lower
    cases lower
    exact above
  generalize next.state = after at move
  cases move with
  | same _ _ => exact ⟨w, before, le_refl w⟩
  | primed changed phase startedAt answer called unset =>
    refine ⟨w, watermark_some.2 ⟨r, ?_⟩, le_refl w⟩
    have other : channelId ≠ changed := by
      rintro rfl
      rw [here] at unset
      rcases unset with absent | ⟨_, missing⟩
      · cases absent
      · cases missing
    simp only [Function.update_of_ne other]
    exact here
  | accepted token called current =>
    by_cases same : channelId = token.channelId
    · subst same
      exact ⟨token.nextWatermark, watermark_some.2 ⟨_, Function.update_self ..⟩,
        floor token called rfl⟩
    · refine ⟨w, watermark_some.2 ⟨r, ?_⟩, le_refl w⟩
      simp only [Function.update_of_ne same]
      exact here
  | retained keeps called =>
    refine ⟨w, watermark_some.2 ⟨r, ?_⟩, le_refl w⟩
    simp only [HistoryPollState.retainChannels, kept keeps called, if_true]
    exact here

theorem run_watermark {events : List PollEvent}
    (holds : PollInvariant s) (run : Run PollStep s events next)
    (kept : ∀ keeps, .retained keeps ∈ events → keeps channelId = true) {w : HistoryWatermark}
    (before : s.state.watermark channelId = some w) :
    ∃ w', next.state.watermark channelId = some w' ∧ w ≤ w' := by
  induction run generalizing w with
  | nil _ => exact ⟨w, before, le_refl w⟩
  | cons first _ ih =>
    obtain ⟨w', now, above⟩ := pollStep_watermark holds first
      (fun keeps called => kept keeps (called ▸ List.mem_cons_self ..)) before
    obtain ⟨w'', later, higher⟩ := ih (pollStep_invariant first holds)
      (fun keeps member => kept keeps (List.mem_cons_of_mem _ member)) now
    exact ⟨w'', later, le_trans above higher⟩

/-! ## Main result -/

/-- What holds of a state reached by `events` from the default state. -/
structure TokensCommitOnce (events : List PollEvent) (s : PollRun) : Prop where
  /-- two accepted commits, of one token or of two, differ in the channel state they expected -/
  once : ∀ {front middle back c c' token token'},
    events = front ++ .committed c token (.ok ()) ::
      (middle ++ .committed c' token' (.ok ()) :: back) →
    ¬(token.channelId = token'.channelId ∧ token.expected = token'.expected)
  /-- a token made before its channel was dropped is not accepted after it -/
  dropped : ∀ {front between middle back cycle keeps c token},
    events = front ++ .proposed cycle (.ok token) ::
      (between ++ .retained keeps :: (middle ++ .committed c token (.ok ()) :: back)) →
    keeps token.channelId = true
  /-- a watermark does not decrease before its channel is dropped -/
  watermark : ∀ {later next c w}, Run PollStep s later next →
    (∀ keeps, .retained keeps ∈ later → keeps c = true) → s.state.watermark c = some w →
    ∃ w', next.state.watermark c = some w' ∧ w ≤ w'
  beginExhausted : ∀ {c d next}, PollStep s (.began c (.error (.revisionExhausted d))) next →
    next.state = s.state
  commitExhausted : ∀ {c d token next},
    PollStep s (.committed c token (.error (.revisionExhausted d))) next → next.state = s.state

theorem history_poll_tokens {s : PollRun} {events : List PollEvent}
    (run : Run PollStep .start events s) : TokensCommitOnce events s where
  once := by
    rintro front middle back c c' token token' rfl ⟨channel, expected⟩
    obtain ⟨before, after, left, first, rest⟩ := run.split_at
    obtain ⟨_, _, between, second, _⟩ := rest.split_at
    have spent := run_keeps_spent between (accepted_spends (run_invariant left) first)
    rw [channel, expected] at spent
    exact accepted_not_spent second spent
  dropped := by
    rintro front between middle back cycle keeps c token rfl
    obtain ⟨_, made, left, proposed, rest⟩ := run.split_at
    obtain ⟨_, after, waiting, drop, rest⟩ := rest.split_at
    obtain ⟨_, _, between, commit, _⟩ := rest.split_at
    by_contra dropped
    rw [Bool.not_eq_true] at dropped
    have known := (run_invariant (left.append (Run.single proposed))).tokens token
      (proposed_made proposed)
    have counted : made.state.lastRevision ≤ _ :=
      waiting.preserves (fun s => made.state.lastRevision ≤ s.state.lastRevision)
        (fun _ _ _ step le => Nat.le_trans le (pollStep_move step).counter) (Nat.le_refl _)
    have spent := dropped_spends (Nat.le_trans known.1 counted) drop dropped
    exact accepted_not_spent commit (run_keeps_spent between spent)
  watermark := fun later kept before => run_watermark (run_invariant run) later kept before
  beginExhausted := by
    intro c d next step
    have move := pollStep_move step
    generalize called : PollEvent.began c (.error (.revisionExhausted d)) = event at step move
    cases step with
    | begin _ channelId startedAt =>
      obtain ⟨rfl, failed⟩ := PollEvent.began.inj called
      rcases begin_cases s.state c startedAt with
        full | ⟨_, _, _, kept⟩ | ⟨_, _, _, _, _, primed⟩
      · exact congrArg Prod.snd full
      · rw [kept] at failed
        cases failed
      · rw [primed] at failed
        cases failed
    | propose | commit | retain => cases called
  commitExhausted := by
    intro c d token next step
    generalize called : PollEvent.committed c token (.error (.revisionExhausted d)) = event at step
    cases step with
    | commit _ channelId token' made =>
      obtain ⟨rfl, rfl, failed⟩ := PollEvent.committed.inj called
      rcases commit_cases s.state c token with ⟨kept, _⟩ | ⟨_, _, accepted⟩
      · exact kept
      · rw [accepted] at failed
        cases failed
    | begin | propose | retain => cases called

/-- A channel primed, polled once with nothing new, and committed. -/
theorem history_poll_first_cycle : ∃ s, TokensCommitOnce
    [.began 7 (.ok ⟨7, .priming .prime ⟨100, 0⟩ 1⟩),
      .proposed ⟨7, .priming .prime ⟨100, 0⟩ 1⟩
        (.ok ⟨7, .priming .prime ⟨100, 0⟩ 1, ⟨100, 0⟩⟩),
      .committed 7 ⟨7, .priming .prime ⟨100, 0⟩ 1, ⟨100, 0⟩⟩ (.ok ())] s :=
  ⟨_, history_poll_tokens (.cons (.begin .start 7 100)
    (.cons (@PollStep.propose Unit _ _ [] (List.mem_singleton_self _))
      (.cons (.commit _ 7 _ (List.mem_singleton_self _)) (.nil _))))⟩

end CodexRemote.Verified.HistoryPoll

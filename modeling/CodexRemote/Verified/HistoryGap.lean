import CodexRemote.Runtime.HistoryGap
import CodexRemote.Verified.MessageGaps

/-! # Gap recovery sees every message of the gap

The runner only reports that the floor was reached when the page it read goes back to the
floor.  The history is ordered, so what is not on the page is older than the gap, and
the notice of the gap is given back on this report alone.
-/

namespace CodexRemote.Verified.HistoryGap

open Foundations Discord CodexRemote.Runtime Runtime.HistoryPoll

variable {E : HistoryErrors} {π τ α β σ : Type}

/-! ## What is offered for claiming -/

/-- The same calls, with a record of the values offered to `claim`. -/
def recording (io : HistoryIo E π τ α σ) : HistoryIo E π τ α (σ × List τ) where
  fetch channelId limit s :=
    ((io.fetch channelId limit s.1).1, (io.fetch channelId limit s.1).2, s.2)
  adapt payload s := ((io.adapt payload s.1).1, (io.adapt payload s.1).2, s.2)
  claim value s := ((io.claim value s.1).1, (io.claim value s.1).2, s.2 ++ [value])
  process admitted s := ((io.process admitted s.1).1, (io.process admitted s.1).2, s.2)

/-- The values that a run offers for claiming, in order. -/
def offered (io : HistoryIo E π τ α σ) (channelId : Nat) (floor : HistoryWatermark) (s : σ) :
    List τ :=
  (runHistoryGapRecovery (recording io) channelId floor (s, [])).2.2

/-- A recorded run does what the plain one does.  The values it adds to the record are the
first of those expected, and all of them unless it fails. -/
structure Recorded {γ : Type} (log expected : List τ)
    (recorded : Except (HistoryGapRecoveryError E) γ × σ × List τ)
    (plain : Except (HistoryGapRecoveryError E) γ × σ) : Prop where
  answer : recorded.1 = plain.1
  state : recorded.2.1 = plain.2
  values : ∃ values, recorded.2.2 = log ++ values ∧ values <+: expected ∧
    ∀ result, plain.1 = .ok result → values = expected

theorem Recorded.cons {γ : Type} {log expected : List τ} {value : τ}
    {recorded : Except (HistoryGapRecoveryError E) γ × σ × List τ}
    {plain : Except (HistoryGapRecoveryError E) γ × σ}
    (rest : Recorded (log ++ [value]) expected recorded plain) :
    Recorded log (value :: expected) recorded plain := by
  obtain ⟨answer, state, values, kept, front, whole⟩ := rest
  refine ⟨answer, state, value :: values, by rw [kept, List.append_assoc]; rfl,
    List.cons_prefix_cons.2 ⟨rfl, front⟩, fun result ended => ?_⟩
  rw [whole result ended]

theorem Recorded.failed {γ : Type} (log expected : List τ) (error : HistoryGapRecoveryError E)
    (s : σ) : Recorded log expected ((.error error : Except _ γ), s, log) (.error error, s) :=
  ⟨rfl, rfl, [], (List.append_nil _).symm, List.nil_prefix, fun _ ended => nomatch ended⟩

theorem claimItems_recorded (io : HistoryIo E π τ α σ) (floor : HistoryWatermark)
    (items : List (HistoryBatchItem τ)) (outcome : HistoryGapRecoveryOutcome) (s : σ)
    (log : List τ) : Recorded log (items.filterMap (claimable floor))
      (claimItems (recording io) floor items outcome (s, log))
      (claimItems io floor items outcome s) := by
  induction items generalizing outcome s log with
  | nil => exact ⟨rfl, rfl, [], (List.append_nil _).symm, List.nil_prefix, fun _ _ => rfl⟩
  | cons item items ih =>
    simp only [claimItems]
    cases kind : claimable floor item with
    | none =>
      rw [List.filterMap_cons_none kind]
      exact ih _ s log
    | some value =>
      rw [List.filterMap_cons_some kind]
      apply Recorded.cons
      simp only [recording] at ih ⊢
      cases claimed : io.claim value s with
      | mk answer after =>
        cases answer with
        | error error => exact .failed ..
        | ok result =>
          cases result with
          | lost => exact ih ..
          | won admitted =>
            simp only
            cases processed : io.process admitted after with
            | mk answer last =>
              cases answer with
              | error error => exact .failed ..
              | ok _ => exact ih ..

variable {io : HistoryIo E π τ α σ} {floor : HistoryWatermark} {s : σ} {channelId : Nat}
  {world : GapWorld σ} {earliest : MessageGapPosition}

/-- An adapter that only reads its payload adapts the page one by one. -/
theorem adaptAll_reading {item : π → HistoryBatchItem τ}
    (reads : ∀ payload s, io.adapt payload s = (.ok (item payload), s)) (payloads : List π)
    (s : σ) : adaptAll io payloads s = (.ok (payloads.map item), s) := by
  induction payloads with
  | nil => rfl
  | cons payload payloads ih =>
    simp only [adaptAll, reads, ih]
    rfl

theorem claimItems_coverage
    {items : List (HistoryBatchItem τ)} {outcome last : HistoryGapRecoveryOutcome} {next : σ}
    (run : claimItems io floor items outcome s = (.ok last, next)) :
    last.coverage = outcome.coverage := by
  induction items generalizing outcome s with
  | nil => cases run; rfl
  | cons item items ih =>
    rw [claimItems] at run
    split at run
    · exact (ih run).trans rfl
    · simp only at run
      split at run
      · cases run
      · exact (ih run).trans rfl
      · split at run
        · cases run
        · exact (ih run).trans rfl

/-- What a run over a page offers: the first claimable items, the last of the page before the
others, and all of them unless the run fails. -/
theorem offered_of_page {item : π → HistoryBatchItem τ}
    (reads : ∀ payload s, io.adapt payload s = (.ok (item payload), s))
    {fetched : σ} {page : List π}
    (answered : io.fetch channelId pageLimit s = (.ok page, fetched)) :
    offered io channelId floor s <+: ((page.map item).filterMap (claimable floor)).reverse ∧
      ∀ outcome next, runHistoryGapRecovery io channelId floor s = (.ok outcome, next) →
        offered io channelId floor s = ((page.map item).filterMap (claimable floor)).reverse ∧
          outcome.coverage = gapCoverage floor (page.map item) := by
  have reading : ∀ payload s, (recording io).adapt payload s = (.ok (item payload), s) := by
    intro payload s
    simp only [recording, reads]
  have fetches : (recording io).fetch channelId pageLimit (s, []) = (.ok page, fetched, []) := by
    simp only [recording, answered]
  rw [offered, runHistoryGapRecovery, runHistoryGapRecovery, fetches, answered]
  simp only [adaptAll_reading reads, adaptAll_reading reading]
  split
  · exact ⟨List.nil_prefix, fun _ _ run => nomatch run⟩
  · obtain ⟨values, kept, front, whole⟩ :=
      (claimItems_recorded io floor (page.map item).reverse
        ⟨gapCoverage floor (page.map item), page.length, 0, 0, 0, 0⟩ fetched []).values
    rw [List.nil_append] at kept
    rw [List.filterMap_reverse] at front whole
    rw [kept]
    refine ⟨front, fun outcome next loop => ?_⟩
    rw [loop] at whole
    exact ⟨whole _ rfl, claimItems_coverage loop⟩

/-! ## A run over an ordered history -/

def position (message : HistoryMessage β) : HistoryWatermark :=
  ⟨message.timestampMicros, message.id⟩

/-- A message that may be claimed at all, and that the gap may have dropped. -/
def wanted (floor : HistoryWatermark) (message : HistoryMessage β) : Bool :=
  message.id != 0 && !message.authorIsBot && decide (floor ≤ position message)

/-- Discord lists a channel from its newest message on. -/
def NewestFirst (history : List (HistoryMessage β)) : Prop :=
  history.Pairwise fun newer older => position older < position newer

theorem claimable_adapt (floor : HistoryWatermark) (message : HistoryMessage β) :
    claimable floor (adaptMessage message) =
      if wanted floor message then some message else none := by
  obtain ⟨micros, id, bot, content⟩ := message
  by_cases valid : id = 0 <;> cases bot <;>
    simp [claimable, adaptMessage, fromMessage, wanted, position, valid, ← not_lt]

theorem claimable_page (floor : HistoryWatermark) (page : List (HistoryMessage β)) :
    (page.map adaptMessage).filterMap (claimable floor) = page.filter (wanted floor) := by
  induction page with
  | nil => rfl
  | cons message page ih =>
    rw [List.map_cons, List.filterMap_cons, List.filter_cons, claimable_adapt, ih]
    cases wanted floor message <;> rfl

/-- The page reached the floor when it is the whole history or has a message at the floor. -/
theorem coverage_reached {page : List (HistoryMessage β)}
    (reached : gapCoverage floor (page.map adaptMessage) = .reached) :
    page.length < pageLimit ∨ ∃ message ∈ page, position message ≤ floor := by
  rw [gapCoverage] at reached
  split at reached
  · next covered =>
    rw [List.length_map] at covered
    obtain short | old := covered
    · exact .inl short
    · obtain ⟨oldest, least, below⟩ := (Option.any_eq_true _ _).1 old
      obtain ⟨item, member, some_⟩ := List.mem_filterMap.1 (List.min?_mem least)
      obtain ⟨message, here, rfl⟩ := List.mem_map.1 member
      simp only [adaptMessage, fromMessage] at some_
      split at some_
      · cases some_
      · cases some_
        exact .inr ⟨message, here, by simpa [position] using below⟩
  · cases reached

/-- What follows a page that reached the floor is older than the gap. -/
theorem later_unwanted {history : List (HistoryMessage β)} (ordered : NewestFirst history)
    (reached : gapCoverage floor ((history.take pageLimit).map adaptMessage) = .reached) :
    history.filter (wanted floor) = (history.take pageLimit).filter (wanted floor) := by
  have none_ : (history.drop pageLimit).filter (wanted floor) = [] := by
    rw [List.filter_eq_nil_iff]
    intro message member
    obtain short | ⟨old, here, below⟩ := coverage_reached reached
    · rw [List.drop_eq_nil_of_le (by rw [List.length_take] at short; omega)] at member
      cases member
    · rw [NewestFirst, ← List.take_append_drop pageLimit history, List.pairwise_append] at ordered
      have older := ordered.2.2 old here message member
      have apart : ¬floor ≤ position message := not_le.2 (lt_of_lt_of_le older below)
      simp [wanted, apart]
  calc history.filter (wanted floor)
      = (history.take pageLimit ++ history.drop pageLimit).filter (wanted floor) := by
        rw [List.take_append_drop]
    _ = (history.take pageLimit).filter (wanted floor) := by
        rw [List.filter_append, none_, List.append_nil]

theorem reads_message (calls : GapCalls E β α σ) : ∀ message world,
    calls.io.adapt message world = (.ok (adaptMessage message), world) := fun _ _ => rfl

/-- A run that reached the floor offered every message of the gap, each once and the oldest
first. -/
theorem reached_covers {calls : GapCalls E β α σ}
    {next : GapWorld σ} {history : List (HistoryMessage β)}
    {outcome : HistoryGapRecoveryOutcome} (ordered : NewestFirst history)
    (newest : (calls.fetch channelId pageLimit world.rest).answer = .ok (history.take pageLimit))
    (run : runHistoryGapRecovery calls.io channelId floor world = (.ok outcome, next))
    (reached : outcome.coverage = .reached) :
    offered calls.io channelId floor world = (history.filter (wanted floor)).reverse := by
  have answered : calls.io.fetch channelId pageLimit world = (.ok (history.take pageLimit), _) :=
    Prod.ext newest rfl
  obtain ⟨values, coverage⟩ :=
    (offered_of_page (reads_message calls) answered).2 outcome next run
  rw [values, claimable_page, later_unwanted ordered (coverage.symm.trans reached)]

theorem wanted_ascending {history : List (HistoryMessage β)} (ordered : NewestFirst history)
    (floor : HistoryWatermark) : (history.filter (wanted floor)).reverse.Pairwise
      fun older newer => position older < position newer := by
  rw [List.pairwise_reverse]
  exact ordered.filter _

/-! ## The gap stays until a run reached it -/

/-- The channel has an active gap that starts no later than this. -/
def Pending (tracker : MessageGapTracker) (channelId : Nat) (earliest : MessageGapPosition) :
    Prop :=
  ∃ entry gap, tracker.entries.find channelId = some entry ∧ entry.active = some gap ∧
    gap.earliest ≤ earliest

theorem task_keeps_pending {tracker : MessageGapTracker}
    (pending : Pending tracker channelId earliest)
    (task : GapTask) : Pending (task.run tracker) channelId earliest := by
  cases task with
  | panicked state gate => exact pending
  | dropped dropped position reason =>
    simp only [GapTask.run, MessageGapTracker.record]
    split
    · exact pending
    · split
      · exact pending
      · obtain ⟨entry, gap, found, active, before⟩ := pending
        simp only [Pending, MessageGaps.observed_find]
        by_cases same : channelId = dropped
        · subst same
          have observed : (MessageGapTracker.observe position reason entry).active = some
              ⟨min gap.earliest position, gap.reasons ||| reason.bit,
                saturatingSucc u64Max gap.observationCount⟩ := by
            simp only [MessageGapTracker.observe, active]
          rw [if_pos rfl, found]
          exact ⟨_, _, rfl, observed, le_trans (min_le_left _ _) before⟩
        · rw [if_neg same]
          exact ⟨entry, gap, found, active, before⟩

theorem after_keeps_pending
    (pending : Pending world.tracker channelId earliest) (tasks : List GapTask) (rest : σ) :
    Pending (world.after tasks rest).tracker channelId earliest := by
  simp only [GapWorld.after]
  generalize world.tracker = tracker at pending
  induction tasks generalizing tracker with
  | nil => exact pending
  | cons task tasks ih => exact ih _ (task_keeps_pending pending task)

theorem landing_keeps_pending {γ : Type} (pending : Pending world.tracker channelId earliest)
    (reply : GapReply σ γ) : Pending (reply.landing world).2.tracker channelId earliest :=
  after_keeps_pending pending _ _

/-- No call of a run ends what holds of the state. -/
structure Keeps (io : HistoryIo E π τ α σ) (P : σ → Prop) : Prop where
  fetch : ∀ channelId limit s, P s → P (io.fetch channelId limit s).2
  adapt : ∀ payload s, P s → P (io.adapt payload s).2
  claim : ∀ value s, P s → P (io.claim value s).2
  process : ∀ admitted s, P s → P (io.process admitted s).2

theorem Keeps.adaptAll {P : σ → Prop} (keeps : Keeps io P) (payloads : List π) (holds : P s) :
    P (HistoryPoll.adaptAll (E := E) io payloads s).2 := by
  induction payloads generalizing s with
  | nil => exact holds
  | cons payload payloads ih =>
    have adapted := keeps.adapt payload s holds
    rw [HistoryPoll.adaptAll]
    split
    · next answer => rw [answer] at adapted; exact adapted
    · next answer =>
      rw [answer] at adapted
      have rest := ih adapted
      split
      · next failed => rw [failed] at rest; exact rest
      · next done => rw [done] at rest; exact rest

theorem Keeps.claimItems {P : σ → Prop} (keeps : Keeps io P)
    (floor : HistoryWatermark) (items : List (HistoryBatchItem τ))
    (outcome : HistoryGapRecoveryOutcome) (holds : P s) :
    P (HistoryPoll.claimItems io floor items outcome s).2 := by
  induction items generalizing outcome s with
  | nil => exact holds
  | cons item items ih =>
    rw [HistoryPoll.claimItems]
    split
    · exact ih _ holds
    · next value _ =>
      have claimed := keeps.claim value s holds
      simp only
      split
      · next answer => rw [answer] at claimed; exact claimed
      · next answer => rw [answer] at claimed; exact ih _ claimed
      · next admitted after answer =>
        rw [answer] at claimed
        have processed := keeps.process admitted after claimed
        split
        · next answer => rw [answer] at processed; exact processed
        · next answer => rw [answer] at processed; exact ih _ processed

theorem Keeps.run {P : σ → Prop} (keeps : Keeps io P)
    (channelId : Nat) (floor : HistoryWatermark) (holds : P s) :
    P (runHistoryGapRecovery io channelId floor s).2 := by
  have fetched := keeps.fetch channelId pageLimit s holds
  rw [runHistoryGapRecovery]
  split
  · next answer => rw [answer] at fetched; exact fetched
  · next payloads after answer =>
    rw [answer] at fetched
    split
    · exact fetched
    · have adapted := keeps.adaptAll payloads fetched
      split
      · next failed => rw [failed] at adapted; exact adapted
      · next items last done =>
        rw [done] at adapted
        exact keeps.claimItems floor _ _ adapted

theorem io_keeps_pending (calls : GapCalls E β α σ) (channelId : Nat)
    (earliest : MessageGapPosition) :
    Keeps calls.io fun world => Pending world.tracker channelId earliest where
  fetch _ _ _ pending := after_keeps_pending pending _ _
  adapt _ _ pending := pending
  claim _ _ pending := after_keeps_pending pending _ _
  process _ _ pending := after_keeps_pending pending _ _

/-! ## The recovery loop -/

/-- The notices that the loop turns to, each with the world that it finds. -/
def turns (calls : GapCalls E β α σ) :
    List MessageGapNotice → GapWorld σ → List (MessageGapNotice × GapWorld σ)
  | [], _ => []
  | notice :: notices, world =>
    (notice, world) ::
      match recoverNotice calls notice world with
      | (.next, world) => turns calls notices world
      | _ => []

/-- In the turn of a notice, a run that reached the floor of the notice, after which the gap was
given back.  `before` and `after` are the worlds around the run. -/
structure Recovered (calls : GapCalls E β α σ) (notice : MessageGapNotice)
    (floor : HistoryWatermark) (turn before after : GapWorld σ) : Prop where
  admitted : ∃ entered, (calls.tryEnter turn.rest).landing turn = (.entered, entered) ∧
    (calls.policy entered.rest).landing entered = (true, before)
  atFloor : fromMessage notice.snapshot.earliest.timestampMicros
    notice.snapshot.earliest.messageId = some floor
  run : ∃ outcome, runHistoryGapRecovery calls.io notice.snapshot.channelId floor before =
    (.ok outcome, after) ∧ outcome.coverage = .reached
  cleared : (after.tracker.acknowledge notice).1 = .ok .cleared

theorem acknowledge_keeps_pending {tracker : MessageGapTracker}
    (pending : Pending tracker channelId earliest)
    (notice : MessageGapNotice) : Pending (tracker.acknowledge notice).2 channelId earliest ∨
      (notice.snapshot.channelId = channelId ∧
        (tracker.acknowledge notice).1 = .ok .cleared) := by
  obtain ⟨_, same⟩ | ⟨entry, _, _, found, _, _, cleared⟩ :=
    MessageGaps.acknowledge_cases tracker notice
  · rw [same]
    exact .inl pending
  · by_cases here : notice.snapshot.channelId = channelId
    · exact .inr ⟨here, by rw [cleared]⟩
    · obtain ⟨entry, gap, found, active, before⟩ := pending
      refine .inl ⟨entry, gap, ?_, active, before⟩
      rw [cleared, Foundations.Table.find_update, found]
      simp [Foundations.Table.find_key found, Ne.symm here]

theorem recoverNotice_pending (calls : GapCalls E β α σ) (notice : MessageGapNotice)
    (pending : Pending world.tracker channelId earliest) :
    Pending (recoverNotice calls notice world).2.tracker channelId earliest ∨
      (notice.snapshot.channelId = channelId ∧
        ∃ floor before after, Recovered calls notice floor world before after) := by
  have entered := landing_keeps_pending pending (calls.tryEnter world.rest)
  -- a call can only add to the gap, so every way out before the acknowledgement keeps it
  rw [recoverNotice]
  split
  · next answer => rw [answer] at entered; exact .inl entered
  · next answer => rw [answer] at entered; exact .inl entered
  · next inside enters =>
    rw [enters] at entered
    split
    · exact .inl entered
    · next floor atFloor =>
      have allowed := landing_keeps_pending entered (calls.policy inside.rest)
      split
      · next answer => rw [answer] at allowed; exact .inl allowed
      · next before allows =>
        rw [allows] at allowed
        have ran := (io_keeps_pending calls channelId earliest).run
          notice.snapshot.channelId floor allowed
        split
        · next outcome after run =>
          rw [run] at ran
          split
          · next reached =>
            -- only here is the notice given back
            obtain kept | ⟨here, cleared⟩ := acknowledge_keeps_pending ran notice
            · simp only
              split <;> exact .inl kept
            · exact .inr ⟨here, floor, before, after, ⟨inside, enters, allows⟩, atFloor,
                ⟨outcome, run, reached⟩, cleared⟩
          · exact .inl ran
        · next run => rw [run] at ran; exact .inl ran
        · next run => rw [run] at ran; exact .inl ran
        · next run => rw [run] at ran; exact .inl ran

theorem recoverNotices_pending (calls : GapCalls E β α σ) (notices : List MessageGapNotice)
    (pending : Pending world.tracker channelId earliest) :
    Pending (recoverNotices calls notices world).2.tracker channelId earliest ∨
      ∃ notice turn, (notice, turn) ∈ turns calls notices world ∧
        notice.snapshot.channelId = channelId ∧
        ∃ floor before after, Recovered calls notice floor turn before after := by
  induction notices generalizing world with
  | nil => exact .inl pending
  | cons notice notices ih =>
    obtain kept | ⟨here, recovered⟩ := recoverNotice_pending calls notice pending
    · rw [recoverNotices]
      split
      · next answer =>
        rw [answer] at kept
        obtain rest | ⟨other, turn, member, found⟩ := ih kept
        · exact .inl rest
        · refine .inr ⟨other, turn, ?_, found⟩
          rw [turns, answer]
          exact List.mem_cons_of_mem _ member
      · next answer => rw [answer] at kept; exact .inl kept
      · next answer => rw [answer] at kept; exact .inl kept
    · exact .inr ⟨notice, world, List.mem_cons_self .., here, recovered⟩

theorem turns_mem {calls : GapCalls E β α σ} {notices : List MessageGapNotice}
    {turn : GapWorld σ} {notice : MessageGapNotice}
    (taken : (notice, turn) ∈ turns calls notices world) : notice ∈ notices := by
  induction notices generalizing world with
  | nil => cases taken
  | cons first notices ih =>
    rw [turns] at taken
    obtain same | later := List.mem_cons.1 taken
    · cases same
      exact List.mem_cons_self ..
    · split at later
      · exact List.mem_cons_of_mem _ (ih later)
      · cases later

/-- The notice of a channel in a snapshot is that of its present gap. -/
theorem snapshot_notice {tracker : MessageGapTracker} {notices : List MessageGapNotice}
    (taken : tracker.snapshot = .ok notices) {notice : MessageGapNotice}
    (member : notice ∈ notices) {entry : GapEntry} {gap : ActiveGap}
    (found : tracker.entries.find notice.snapshot.channelId = some entry)
    (active : entry.active = some gap) :
    notice.snapshot.earliest = gap.earliest ∧ notice.snapshot.revision = entry.revision := by
  rw [MessageGapTracker.snapshot] at taken
  split at taken
  · cases taken
  · cases taken
    obtain ⟨row, here, made⟩ := List.mem_filterMap.1 member
    obtain ⟨other, was, rfl⟩ := Option.map_eq_some_iff.1 made
    have same : tracker.entries.find row.channelId = some row :=
      Table.find_of_mem ((List.mem_insertionSort _).1 here)
    have equal : row = entry := Option.some.inj (same.symm.trans found)
    subst equal
    rw [was] at active
    cases active
    exact ⟨rfl, rfl⟩

/-- The turn of the loop that gave a gap back: it took the notice of the gap from its own snapshot,
and the channel still had the revision of the gap when the notice was given back. -/
structure GivenBack (calls : GapCalls E β α σ) (world : GapWorld σ) (entry : GapEntry)
    (gap : ActiveGap) (notice : MessageGapNotice) (floor : HistoryWatermark)
    (turn before after : GapWorld σ) : Prop where
  taken : ∃ notices, world.tracker.snapshot = .ok notices ∧ (notice, turn) ∈ turns calls notices world
  recovered : Recovered calls notice floor turn before after
  channel : notice.snapshot.channelId = entry.channelId
  earliest : notice.snapshot.earliest = gap.earliest
  noticed : notice.snapshot.revision = entry.revision
  unchanged : ∃ now, after.tracker.entries.find entry.channelId = some now ∧
    now.revision = entry.revision

theorem recoverPending_pending (calls : GapCalls E β α σ) {entry : GapEntry} {gap : ActiveGap}
    (found : world.tracker.entries.find channelId = some entry) (active : entry.active = some gap) :
    Pending (recoverPending calls world).2.tracker channelId gap.earliest ∨
      ∃ notice floor turn before after,
        GivenBack calls world entry gap notice floor turn before after := by
  have pending : Pending world.tracker channelId gap.earliest :=
    ⟨entry, gap, found, active, le_refl _⟩
  have key : entry.channelId = channelId := Table.find_key found
  rw [recoverPending]
  split
  · next notices taken =>
    obtain kept | ⟨notice, turn, member, rfl, floor, before, after, recovered⟩ :=
      recoverNotices_pending calls notices pending
    · exact .inl kept
    · -- the acknowledgement compares revisions, so nothing was dropped since the snapshot
      obtain ⟨earliest, revision⟩ := snapshot_notice taken (turns_mem member) found active
      obtain ⟨uncleared, _⟩ | ⟨now, _, _, there, current, _⟩ :=
        MessageGaps.acknowledge_cases after.tracker notice
      · exact absurd recovered.cleared uncleared
      · exact .inr ⟨notice, floor, turn, before, after, ⟨notices, taken, member⟩, recovered,
          key.symm, earliest, revision, now, by rw [key, there], current.trans revision⟩
  · exact .inl pending

/-! ## Main result -/

structure GapRecovery (calls : GapCalls E β α σ) : Prop where
  /-- However a run over a page ends, it offered the first of the valid candidates of the page
  from the floor on, the oldest before the others. -/
  front : ∀ (channelId : Nat) (floor : HistoryWatermark) (world : GapWorld σ)
    (page : List (HistoryMessage β)),
    (calls.fetch channelId pageLimit world.rest).answer = .ok page →
    offered calls.io channelId floor world <+: (page.filter (wanted floor)).reverse
  /-- A run without an error that reports the floor reached has offered exactly the valid
  candidates of the whole history from the floor on, the oldest first. -/
  covers : ∀ (channelId : Nat) (floor : HistoryWatermark) (world next : GapWorld σ)
    (history : List (HistoryMessage β)) (outcome : HistoryGapRecoveryOutcome),
    NewestFirst history →
    (calls.fetch channelId pageLimit world.rest).answer = .ok (history.take pageLimit) →
    runHistoryGapRecovery calls.io channelId floor world = (.ok outcome, next) →
    outcome.coverage = .reached →
    offered calls.io channelId floor world = (history.filter (wanted floor)).reverse ∧
      (offered calls.io channelId floor world).Pairwise
        fun older newer => position older < position newer
  /-- A gap is still active after the loop unless the loop's own turn of its notice made such a
  run for its floor while nothing more was dropped. -/
  pending : ∀ (world : GapWorld σ) (channelId : Nat) (entry : GapEntry) (gap : ActiveGap),
    world.tracker.entries.find channelId = some entry → entry.active = some gap →
    Pending (recoverPending calls world).2.tracker channelId gap.earliest ∨
      ∃ notice floor turn before after,
        GivenBack calls world entry gap notice floor turn before after

theorem gap_recovery (calls : GapCalls E β α σ) : GapRecovery calls where
  front channelId floor world page answer := by
    have answered : calls.io.fetch channelId pageLimit world = (.ok page, _) :=
      Prod.ext answer rfl
    rw [← claimable_page]
    exact (offered_of_page (reads_message calls) answered).1
  covers channelId floor world next history outcome ordered newest run reached := by
    have whole := reached_covers ordered newest run reached
    refine ⟨whole, ?_⟩
    rw [whole]
    exact wanted_ascending ordered floor
  pending world channelId entry gap found active := recoverPending_pending calls found active

/-! ## A gap of two messages -/

/-- The later of the two messages is the newest of its channel, and it was dropped too. -/
def twoDropped : List (HistoryMessage Unit) := [⟨5, 2, false, ()⟩, ⟨3, 1, false, ()⟩, ⟨2, 9, false, ()⟩]

def plainErrors : HistoryErrors := ⟨Unit, Unit, Unit, Unit⟩

/-- Every call goes well at once, and nothing is dropped meanwhile. -/
def calmCalls : GapCalls plainErrors Unit Unit Unit where
  tryEnter _ := ⟨.entered, [], ()⟩
  policy _ := ⟨true, [], ()⟩
  fetch _ _ _ := ⟨.ok twoDropped, [], ()⟩
  claim _ _ := ⟨.ok (.won ()), [], ()⟩
  process _ _ := ⟨.ok (), [], ()⟩

def droppedWorld : GapWorld Unit :=
  ⟨(((MessageGapTracker.new 0).record 7 ⟨5, 2⟩ .full).2.record 7 ⟨3, 1⟩ .full).2, ()⟩

/-- Both messages are offered, the older one first, and the gap is given back. -/
theorem two_dropped_recovered :
    offered calmCalls.io 7 ⟨3, 1⟩ droppedWorld = [⟨3, 1, false, ()⟩, ⟨5, 2, false, ()⟩] ∧
      ∃ notice floor turn before after, GivenBack calmCalls droppedWorld
        ⟨7, 2, some ⟨⟨3, 1⟩, 1, 2⟩⟩ ⟨⟨3, 1⟩, 1, 2⟩ notice floor turn before after := by
  have recovery := gap_recovery calmCalls
  have ordered : NewestFirst twoDropped := by
    simp only [NewestFirst, twoDropped]
    decide
  obtain ⟨values, _⟩ := recovery.covers 7 ⟨3, 1⟩ droppedWorld _ twoDropped _ ordered rfl rfl (by decide)
  refine ⟨values.trans rfl, ?_⟩
  obtain ⟨entry, gap, found, active, _⟩ | given :=
    recovery.pending droppedWorld 7 _ _ (by rfl) rfl
  · have gone : ((recoverPending calmCalls droppedWorld).2.tracker.entries.find 7).bind (·.active) =
        none := by decide
    rw [found, Option.bind_some, active] at gone
    cases gone
  · exact given

end CodexRemote.Verified.HistoryGap

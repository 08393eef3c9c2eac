import Mathlib.Order.MinMax
import CodexRemote.Foundations.Runs
import CodexRemote.Discord.MessageGaps

/-! # Gap fences and notices never speak about an older state

A run keeps the tokens that were handed out, each with the time it was taken.  The
revision of a channel never falls, and it moves with every record as long as the
channel can still be cleared: a channel at the largest revision stays active.
-/

namespace CodexRemote.Verified.MessageGaps

open Foundations Discord

inductive GapEvent where
  | recorded (channelId : Nat) (position : MessageGapPosition) (answer : GapAnswer Unit)
  | snapshotTaken (answer : GapAnswer (List MessageGapNotice))
  | acknowledged (notice : MessageGapNotice) (taken : Nat) (answer : GapAnswer MessageGapAckOutcome)
  | captured (channelId : Nat) (answer : GapAnswer (Option MessageGapFence))
  | fenced (fence : MessageGapFence) (taken : Nat) (ran : Bool)
  | panicked

/-- The tracker with the tokens handed out so far and the events behind it. -/
structure GapRun where
  tracker : MessageGapTracker
  notices : List (MessageGapNotice × Nat)
  fences : List (MessageGapFence × Nat)
  log : List GapEvent

namespace GapRun

def start (identity : Nat) : GapRun := ⟨.new identity, [], [], []⟩

def revision (s : GapRun) (channelId : Nat) : Nat :=
  (s.tracker.entries.find channelId).elim 0 (·.revision)

def active (s : GapRun) (channelId : Nat) : Option ActiveGap :=
  (s.tracker.entries.find channelId).bind (·.active)

/-- Tokens of one answer, stamped with the present time. -/
def stamp {α : Type} (s : GapRun) (tokens : List α) : List (α × Nat) :=
  tokens.map fun token => (token, s.log.length)

end GapRun

def GapAnswer.tokens {α : Type} : GapAnswer (List α) → List α
  | .ok tokens => tokens
  | _ => []

def GapAnswer.token {α : Type} : GapAnswer (Option α) → List α
  | .ok token => token.toList
  | _ => []

def GapAnswer.isOk {α : Type} : GapAnswer α → Bool
  | .ok _ => true
  | _ => false

/-- One call.  Notices and fences are opaque: a caller holds those this tracker handed
out, or ones of another tracker.  A notice is consumed, a fence is not. -/
inductive GapStep : GapRun → GapEvent → GapRun → Prop where
  | record (s : GapRun) (channelId : Nat) (position : MessageGapPosition)
      (reason : UnavailableReason) :
      GapStep s (.recorded channelId position (s.tracker.record channelId position reason).1)
        { s with
          tracker := (s.tracker.record channelId position reason).2
          log := s.log ++
            [.recorded channelId position (s.tracker.record channelId position reason).1] }
  | snapshot (s : GapRun) :
      GapStep s (.snapshotTaken s.tracker.snapshot)
        { s with
          notices := s.notices ++ s.stamp (GapAnswer.tokens s.tracker.snapshot)
          log := s.log ++ [.snapshotTaken s.tracker.snapshot] }
  | acknowledge (s : GapRun) (notice : MessageGapNotice) (taken : Nat)
      (held : (notice, taken) ∈ s.notices ∨ notice.trackerIdentity ≠ s.tracker.identity) :
      GapStep s (.acknowledged notice taken (s.tracker.acknowledge notice).1)
        { s with
          tracker := (s.tracker.acknowledge notice).2
          notices := s.notices.erase (notice, taken)
          log := s.log ++ [.acknowledged notice taken (s.tracker.acknowledge notice).1] }
  | capture (s : GapRun) (channelId : Nat) :
      GapStep s (.captured channelId (s.tracker.captureClearFence channelId))
        { s with
          fences := s.fences ++ s.stamp (GapAnswer.token (s.tracker.captureClearFence channelId))
          log := s.log ++ [.captured channelId (s.tracker.captureClearFence channelId)] }
  | fence {α : Type} (s : GapRun) (fence : MessageGapFence) (taken : Nat)
      (action : FencedAction α)
      (held : (fence, taken) ∈ s.fences ∨ fence.trackerIdentity ≠ s.tracker.identity) :
      GapStep s (.fenced fence taken (GapAnswer.isOk (s.tracker.withCurrentFence fence action).1))
        { s with
          tracker := (s.tracker.withCurrentFence fence action).2
          log := s.log ++
            [.fenced fence taken (GapAnswer.isOk (s.tracker.withCurrentFence fence action).1)] }
  | panic (s : GapRun) (state gate : Bool) :
      GapStep s .panicked
        { s with
          tracker := { s.tracker with
            poisoned := s.tracker.poisoned || state
            gatePoisoned := s.tracker.gatePoisoned || gate }
          log := s.log ++ [.panicked] }

def recordsOn (channelId : Nat) : GapEvent → Bool
  | .recorded channel _ (.ok ()) => channel == channelId
  | _ => false

def clearsOn (channelId : Nat) : GapEvent → Bool
  | .acknowledged notice _ (.ok .cleared) => notice.snapshot.channelId == channelId
  | _ => false

/-- The positions recorded on a channel since its gap last became active. -/
def positionsSince (channelId : Nat) (log : List GapEvent) : List MessageGapPosition :=
  log.foldl (fun positions event =>
    match event with
    | .recorded channel position (.ok ()) =>
      if channel = channelId then positions ++ [position] else positions
    | .acknowledged notice _ (.ok .cleared) =>
      if notice.snapshot.channelId = channelId then [] else positions
    | _ => positions) []

/-- The number of the gap episode a channel is in at a time: how often it was cleared before. -/
def episodeAt (channelId : Nat) (log : List GapEvent) (time : Nat) : Nat :=
  (log.take time).countP (clearsOn channelId)

/-! ## What a step does to a channel -/

/-- The effect of a step on revisions and active gaps. -/
inductive GapMove (s : GapRun) (event : GapEvent) (next : GapRun) : Prop where
  | quiet (revisions : ∀ c, next.revision c = s.revision c) (gaps : ∀ c, next.active c = s.active c)
      (noRecord : ∀ c, recordsOn c event = false) (noClear : ∀ c, clearsOn c event = false)
  | record (c : Nat) (position : MessageGapPosition) (gap : ActiveGap)
      (called : event = .recorded c position (.ok ()))
      (revision : next.revision c = saturatingSucc u64Max (s.revision c))
      (became : next.active c = some gap)
      (earliest : gap.earliest = ((s.active c).map (·.earliest)).elim position (min · position))
      (others : ∀ d, d ≠ c → next.revision d = s.revision d ∧ next.active d = s.active d)
  | clear (notice : MessageGapNotice) (taken : Nat)
      (called : event = .acknowledged notice taken (.ok .cleared))
      (held : (notice, taken) ∈ s.notices)
      (acknowledgeable : notice.snapshot.revision ≠ u64Max)
      (current : s.revision notice.snapshot.channelId = notice.snapshot.revision)
      (wasActive : s.active notice.snapshot.channelId ≠ none)
      (revisions : ∀ c, next.revision c = s.revision c)
      (became : next.active notice.snapshot.channelId = none)
      (others : ∀ d, d ≠ notice.snapshot.channelId → next.active d = s.active d)

variable {event : GapEvent} {next s : GapRun}

theorem GapMove.of_entries
    (same : next.tracker.entries = s.tracker.entries) (noRecord : ∀ c, recordsOn c event = false)
    (noClear : ∀ c, clearsOn c event = false) : GapMove s event next := by
  refine .quiet (fun c => ?_) (fun c => ?_) noRecord noClear
  · simp only [GapRun.revision, same]
  · simp only [GapRun.active, same]

theorem observed_find (entries : Table GapEntry.channelId) (channelId : Nat)
    (position : MessageGapPosition) (reason : UnavailableReason) (c : Nat) :
    ((entries.insertOrIgnore ⟨channelId, 0, none⟩).update (fun e => e.channelId == channelId)
      (MessageGapTracker.observe position reason)
      (MessageGapTracker.observe_channelId position reason)).find c =
        if c = channelId then
          some (MessageGapTracker.observe position reason
            ((entries.find channelId).getD ⟨channelId, 0, none⟩))
        else entries.find c := by
  rw [Table.find_update, Table.find_insertOrIgnore]
  by_cases same : c = channelId
  · subst same
    cases found : entries.find c with
    | none => simp
    | some entry => simp [Table.find_key found]
  · simp only [Ne.symm same, if_false, same]
    cases found : entries.find c with
    | none => rfl
    | some entry => simp [Table.find_key found, same]

theorem record_move (s next : GapRun) (channelId : Nat) (position : MessageGapPosition)
    (reason : UnavailableReason)
    (moved : next.tracker = (s.tracker.record channelId position reason).2) :
    GapMove s (.recorded channelId position (s.tracker.record channelId position reason).1)
      next := by
  cases open_ : s.tracker.gatePoisoned with
  | true =>
    simp only [MessageGapTracker.record, open_, if_true] at moved ⊢
    exact .of_entries (by rw [moved]) (fun _ => rfl) (fun _ => rfl)
  | false =>
    cases healthy : s.tracker.poisoned with
    | true =>
      simp only [MessageGapTracker.record, open_, healthy, Bool.false_eq_true, if_false,
        if_true] at moved ⊢
      exact .of_entries (by rw [moved]) (fun _ => rfl) (fun _ => rfl)
    | false =>
      simp only [MessageGapTracker.record, open_, healthy, Bool.false_eq_true,
        if_false] at moved ⊢
      have found : ∀ c, next.tracker.entries.find c = if c = channelId then
          some (MessageGapTracker.observe position reason
            ((s.tracker.entries.find channelId).getD ⟨channelId, 0, none⟩))
          else s.tracker.entries.find c := by
        intro c
        rw [moved]
        exact observed_find _ _ _ _ _
      have here := found channelId
      rw [if_pos rfl] at here
      refine .record channelId position _ rfl ?_ (by rw [GapRun.active, here]; rfl) ?_ ?_
      · rw [GapRun.revision, GapRun.revision, here]
        cases s.tracker.entries.find channelId <;> rfl
      · rw [GapRun.active]
        cases s.tracker.entries.find channelId with
        | none => rfl
        | some entry =>
          simp only [Option.getD_some, Option.bind_some]
          cases entry.active <;> rfl
      · intro d other
        have there := found d
        rw [if_neg other] at there
        simp only [GapRun.revision, GapRun.active, there, and_self]

/-- An acknowledgement clears the gap the notice was taken of, or changes nothing. -/
theorem acknowledge_cases (tracker : MessageGapTracker) (notice : MessageGapNotice) :
    ((tracker.acknowledge notice).1 ≠ .ok .cleared ∧ (tracker.acknowledge notice).2 = tracker) ∨
      ∃ entry, tracker.identity = notice.trackerIdentity ∧ notice.snapshot.revision ≠ u64Max ∧
        tracker.entries.find notice.snapshot.channelId = some entry ∧
        entry.revision = notice.snapshot.revision ∧ entry.active ≠ none ∧
        tracker.acknowledge notice = (.ok .cleared, { tracker with
          entries := tracker.entries.update (fun e => e.channelId == notice.snapshot.channelId)
            (fun e => { e with active := none }) (fun _ => rfl) }) := by
  unfold MessageGapTracker.acknowledge
  split
  · exact Or.inl ⟨by simp, rfl⟩
  · next own =>
    split
    · exact Or.inl ⟨by simp, rfl⟩
    · next unsaturated =>
      split
      · exact Or.inl ⟨by simp, rfl⟩
      · split
        · exact Or.inl ⟨by simp, rfl⟩
        · next entry found =>
          split
          · exact Or.inl ⟨by simp, rfl⟩
          · next current =>
            simp only [Bool.or_eq_true, not_or, bne_iff_ne, ne_eq, not_not,
              Option.isNone_iff_eq_none] at own current
            exact Or.inr ⟨entry, own, by simpa using unsaturated, found, current.1,
              current.2, rfl⟩

theorem acknowledge_move (s next : GapRun) (notice : MessageGapNotice) (taken : Nat)
    (held : (notice, taken) ∈ s.notices ∨ notice.trackerIdentity ≠ s.tracker.identity)
    (moved : next.tracker = (s.tracker.acknowledge notice).2) :
    GapMove s (.acknowledged notice taken (s.tracker.acknowledge notice).1) next := by
  rcases acknowledge_cases s.tracker notice with
    ⟨uncleared, same⟩ | ⟨entry, own, unsaturated, found, current, wasActive, cleared⟩
  · refine .of_entries (by rw [moved, same]) (fun _ => rfl) ?_
    intro c
    unfold clearsOn
    split
    · next equal =>
      simp only [GapEvent.acknowledged.injEq] at equal
      exact absurd equal.2.2 uncleared
    · rfl
  · have mine : (notice, taken) ∈ s.notices :=
      held.resolve_right fun foreign => foreign own.symm
    have entries : ∀ c, next.tracker.entries.find c = if c = notice.snapshot.channelId then
        some { entry with active := none } else s.tracker.entries.find c := by
      intro c
      rw [moved, cleared, Table.find_update]
      by_cases same : c = notice.snapshot.channelId
      · subst same
        simp [found, Table.find_key found]
      · rw [if_neg same]
        cases there : s.tracker.entries.find c with
        | none => rfl
        | some other => simp [Table.find_key there, same]
    have here := entries notice.snapshot.channelId
    rw [if_pos rfl] at here
    refine .clear notice taken (by rw [cleared]) mine unsaturated ?_ ?_ ?_ ?_ ?_
    · rw [GapRun.revision, found]
      exact current
    · rw [GapRun.active, found]
      exact wasActive
    · intro c
      rw [GapRun.revision, GapRun.revision, entries c]
      split
      · next same => rw [same, found]; rfl
      · rfl
    · rw [GapRun.active, here]
      rfl
    · intro d other
      rw [GapRun.active, GapRun.active, entries d, if_neg other]

theorem withCurrentFence_cases {α : Type} (tracker : MessageGapTracker) (fence : MessageGapFence)
    (action : FencedAction α) :
    (tracker.withCurrentFence fence action).2.entries = tracker.entries ∧
      (tracker.withCurrentFence fence action).2.identity = tracker.identity ∧
      (GapAnswer.isOk (tracker.withCurrentFence fence action).1 = true →
        tracker.identity = fence.trackerIdentity ∧
        (tracker.entries.find fence.channelId).elim 0 (·.revision) = fence.revision ∧
        (tracker.entries.find fence.channelId).bind (·.active) = none) := by
  unfold MessageGapTracker.withCurrentFence
  split
  · exact ⟨rfl, rfl, by simp [GapAnswer.isOk]⟩
  · split
    · exact ⟨rfl, rfl, by simp [GapAnswer.isOk]⟩
    · next own =>
      split
      · exact ⟨rfl, rfl, by simp [GapAnswer.isOk]⟩
      · simp only
        split
        · exact ⟨rfl, rfl, by simp [GapAnswer.isOk]⟩
        · next current =>
          simp only [Bool.or_eq_true, not_or, bne_iff_ne, ne_eq, not_not,
            Bool.not_eq_true', Bool.not_eq_false] at own current
          have clear : (tracker.entries.find fence.channelId).bind (·.active) = none := by
            cases found : tracker.entries.find fence.channelId with
            | none => rfl
            | some entry => simpa [found] using current.2
          cases action <;> exact ⟨rfl, rfl, fun _ => ⟨own, current.1, clear⟩⟩

/-- The tokens handed out by a step, and the log it leaves. -/
structure TokenMove (s : GapRun) (event : GapEvent) (next : GapRun) : Prop where
  log : next.log = s.log ++ [event]
  notices : ∀ notice taken, (notice, taken) ∈ next.notices → (notice, taken) ∈ s.notices ∨
    (taken = s.log.length ∧ next.tracker = s.tracker ∧
      notice.snapshot.revision = s.revision notice.snapshot.channelId)
  fences : ∀ fence taken, (fence, taken) ∈ next.fences → (fence, taken) ∈ s.fences ∨
    (taken = s.log.length ∧ next.tracker = s.tracker ∧
      fence.revision = s.revision fence.channelId ∧ s.active fence.channelId = none)

theorem mem_stamp {α : Type} {tokens : List α} {token : α} {taken : Nat} :
    (token, taken) ∈ s.stamp tokens ↔ token ∈ tokens ∧ taken = s.log.length := by
  simp only [GapRun.stamp, List.mem_map, Prod.mk.injEq]
  constructor
  · rintro ⟨_, member, rfl, rfl⟩
    exact ⟨member, rfl⟩
  · rintro ⟨member, rfl⟩
    exact ⟨token, member, rfl, rfl⟩

/-- A notice reports the active gap of its channel. -/
theorem snapshot_reports {notice : MessageGapNotice}
    (reported : notice ∈ GapAnswer.tokens s.tracker.snapshot) :
    notice.snapshot.revision = s.revision notice.snapshot.channelId ∧
      ∃ gap, s.active notice.snapshot.channelId = some gap ∧
        gap.earliest = notice.snapshot.earliest := by
  unfold MessageGapTracker.snapshot at reported
  split at reported
  · cases reported
  · obtain ⟨entry, member, noticed⟩ := List.mem_filterMap.1 reported
    obtain ⟨gap, active, rfl⟩ := Option.map_eq_some_iff.1 noticed
    have found := Table.find_of_mem ((List.mem_insertionSort _).1 member)
    refine ⟨?_, gap, ?_, rfl⟩
    · simp only [GapRun.revision, found, Option.elim_some]
    · simp only [GapRun.active, found, Option.bind_some, active]

/-- A snapshot of a tracker that is not poisoned has a notice for every active gap. -/
theorem active_reported {c : Nat} (sound : s.tracker.poisoned = false)
    (active : s.active c ≠ none) :
    ∃ notices, s.tracker.snapshot = .ok notices ∧
      ∃ notice ∈ notices, notice.snapshot.channelId = c := by
  refine ⟨s.tracker.byChannel.filterMap s.tracker.noticeOf, ?_, ?_⟩
  · rw [MessageGapTracker.snapshot, sound]
    rfl
  · obtain ⟨gap, active⟩ := Option.ne_none_iff_exists'.1 active
    obtain ⟨entry, found, present⟩ := Option.bind_eq_some_iff.1 active
    have member : entry ∈ s.tracker.byChannel :=
      (List.mem_insertionSort _).2 (Table.mem_of_find found)
    have noticed : s.tracker.noticeOf entry = some ⟨⟨entry.channelId, gap.earliest, gap.reasons,
        gap.observationCount, entry.revision⟩, s.tracker.identity⟩ := by
      rw [MessageGapTracker.noticeOf, present]
      rfl
    have key : entry.channelId = c := Table.find_key found
    exact ⟨_, List.mem_filterMap.2 ⟨entry, member, noticed⟩, key⟩

theorem capture_reports {channelId : Nat} {fence : MessageGapFence}
    (captured : fence ∈ GapAnswer.token (s.tracker.captureClearFence channelId)) :
    fence.revision = s.revision fence.channelId ∧ s.active fence.channelId = none := by
  unfold MessageGapTracker.captureClearFence at captured
  split at captured
  · cases captured
  · simp only at captured
    split at captured
    · cases captured
    · next clear =>
      simp only [GapAnswer.token, Option.toList_some, List.mem_singleton] at captured
      subst captured
      refine ⟨rfl, ?_⟩
      unfold GapRun.active
      cases found : s.tracker.entries.find channelId with
      | none => rfl
      | some entry => simpa [found] using clear

theorem gapStep_move (step : GapStep s event next) :
    GapMove s event next ∧ TokenMove s event next := by
  cases step with
  | record _ channelId position reason =>
    exact ⟨record_move s _ channelId position reason rfl,
      rfl, fun _ _ => Or.inl, fun _ _ => Or.inl⟩
  | snapshot =>
    refine ⟨.of_entries rfl (fun _ => rfl) (fun _ => rfl), rfl, ?_, fun _ _ => Or.inl⟩
    intro notice taken member
    rcases List.mem_append.1 member with old | new
    · exact Or.inl old
    · obtain ⟨reported, now⟩ := mem_stamp.1 new
      exact Or.inr ⟨now, rfl, (snapshot_reports reported).1⟩
  | acknowledge _ notice taken held =>
    exact ⟨acknowledge_move s _ notice taken held rfl,
      rfl, fun _ _ member => Or.inl (List.mem_of_mem_erase member), fun _ _ => Or.inl⟩
  | capture _ channelId =>
    refine ⟨.of_entries rfl (fun _ => rfl) (fun _ => rfl), rfl, fun _ _ => Or.inl, ?_⟩
    intro fence taken member
    rcases List.mem_append.1 member with old | new
    · exact Or.inl old
    · obtain ⟨captured, now⟩ := mem_stamp.1 new
      exact Or.inr ⟨now, rfl, capture_reports captured⟩
  | fence _ fence taken action held =>
    exact ⟨.of_entries (withCurrentFence_cases s.tracker fence action).1 (fun _ => rfl)
      (fun _ => rfl), rfl, fun _ _ => Or.inl, fun _ _ => Or.inl⟩
  | panic _ state gate =>
    exact ⟨.of_entries rfl (fun _ => rfl) (fun _ => rfl),
      rfl, fun _ _ => Or.inl, fun _ _ => Or.inl⟩

/-! ## What happened since a token was taken -/

/-- Some event from `time` on satisfies `p`. -/
def Since (p : GapEvent → Bool) (time : Nat) (log : List GapEvent) : Prop :=
  ∃ m event, time ≤ m ∧ log[m]? = some event ∧ p event = true

theorem Since.append {p : GapEvent → Bool} {time : Nat} {log : List GapEvent}
    (since : Since p time (log ++ [event])) : Since p time log ∨ p event = true := by
  obtain ⟨m, e, later, found, holds⟩ := since
  by_cases within : m < log.length
  · rw [List.getElem?_append_left within] at found
    exact Or.inl ⟨m, e, later, found, holds⟩
  · rw [List.getElem?_append_right (Nat.le_of_not_lt within)] at found
    have member : e ∈ [event] := List.mem_of_getElem? found
    rw [List.mem_singleton.1 member] at holds
    exact Or.inr holds

theorem not_since_now (p : GapEvent → Bool) (log : List GapEvent) : ¬Since p log.length log := by
  rintro ⟨m, e, later, found, _⟩
  rw [List.getElem?_eq_none later] at found
  cases found

/-! ## The invariant of a run -/

structure GapInvariant (s : GapRun) : Prop where
  bounded : ∀ c, s.revision c ≤ u64Max
  /-- a channel whose revision is used up stays active -/
  clearable : ∀ c, s.active c = none → s.revision c < u64Max
  fences : ∀ fence taken, (fence, taken) ∈ s.fences →
    fence.revision < u64Max ∧ fence.revision ≤ s.revision fence.channelId ∧
      (Since (recordsOn fence.channelId) taken s.log →
        fence.revision < s.revision fence.channelId)
  notices : ∀ notice taken, (notice, taken) ∈ s.notices →
    taken ≤ s.log.length ∧ notice.snapshot.revision ≤ s.revision notice.snapshot.channelId ∧
      (Since (recordsOn notice.snapshot.channelId) taken s.log →
        notice.snapshot.revision < s.revision notice.snapshot.channelId ∨
          notice.snapshot.revision = u64Max) ∧
      (Since (clearsOn notice.snapshot.channelId) taken s.log →
        notice.snapshot.revision < s.revision notice.snapshot.channelId ∨
          s.active notice.snapshot.channelId = none)
  clears : ∀ (m : Nat) notice taken,
    s.log[m]? = some (.acknowledged notice taken (.ok .cleared)) → taken ≤ m
  earliest : ∀ c,
    match s.active c with
    | none => positionsSince c s.log = []
    | some gap => gap.earliest ∈ positionsSince c s.log ∧
        ∀ position ∈ positionsSince c s.log, gap.earliest ≤ position

/-- A channel's revision does not fall, and a record raises it while it can still be cleared. -/
theorem GapMove.revision_mono (move : GapMove s event next)
    (bounded : ∀ c, s.revision c ≤ u64Max) (c : Nat) :
    s.revision c ≤ next.revision c ∧ next.revision c ≤ u64Max ∧
      (recordsOn c event = true → s.revision c < next.revision c ∨ s.revision c = u64Max) := by
  have bound := bounded c
  cases move with
  | quiet revisions _ noRecord _ =>
    rw [revisions c]
    exact ⟨Nat.le_refl _, bound, fun recorded => by rw [noRecord c] at recorded; cases recorded⟩
  | record d position gap called revision _ _ others =>
    by_cases same : c = d
    · subst same
      rw [revision]
      refine ⟨le_saturatingSucc bound, saturatingSucc_le _ _, fun _ => ?_⟩
      rcases Nat.lt_or_eq_of_le bound with room | full
      · rw [saturatingSucc_of_lt room]
        exact Or.inl (Nat.lt_succ_self _)
      · exact Or.inr full
    · rw [(others c same).1, called]
      refine ⟨Nat.le_refl _, bound, fun recorded => ?_⟩
      simp only [recordsOn, beq_iff_eq] at recorded
      exact absurd recorded.symm same
  | clear notice taken called _ _ _ _ revisions _ _ =>
    rw [revisions c, called]
    exact ⟨Nat.le_refl _, bound, fun recorded => by cases recorded⟩

theorem GapMove.clearable (move : GapMove s event next) (bounded : ∀ c, s.revision c ≤ u64Max)
    (clearable : ∀ c, s.active c = none → s.revision c < u64Max) (c : Nat)
    (clear : next.active c = none) : next.revision c < u64Max := by
  cases move with
  | quiet revisions gaps _ _ =>
    rw [revisions c]
    exact clearable c ((gaps c).symm.trans clear)
  | record d position gap called revision became _ others =>
    by_cases same : c = d
    · subst same
      rw [became] at clear
      cases clear
    · rw [(others c same).1]
      exact clearable c ((others c same).2.symm.trans clear)
  | clear notice taken called _ acknowledgeable current _ revisions became others =>
    rw [revisions c]
    by_cases same : c = notice.snapshot.channelId
    · subst same
      have := bounded notice.snapshot.channelId
      omega
    · exact clearable c ((others c same).symm.trans clear)

theorem fences_kept (move : GapMove s event next)
    (tokens : TokenMove s event next) (holds : GapInvariant s) (fence : MessageGapFence)
    (taken : Nat) (member : (fence, taken) ∈ next.fences) :
    fence.revision < u64Max ∧ fence.revision ≤ next.revision fence.channelId ∧
      (Since (recordsOn fence.channelId) taken next.log →
        fence.revision < next.revision fence.channelId) := by
  obtain ⟨mono, _, moved⟩ := move.revision_mono holds.bounded fence.channelId
  rw [tokens.log]
  rcases tokens.fences fence taken member with old | ⟨rfl, same, captured, clear⟩
  · obtain ⟨small, reached, passed⟩ := holds.fences fence taken old
    refine ⟨small, Nat.le_trans reached mono, fun since => ?_⟩
    rcases since.append with before | now
    · exact Nat.lt_of_lt_of_le (passed before) mono
    · rcases moved now with raised | full
      · exact Nat.lt_of_le_of_lt reached raised
      · omega
  · have small := holds.clearable fence.channelId clear
    refine ⟨by omega, by omega, fun since => ?_⟩
    rcases since.append with before | now
    · exact absurd before (not_since_now _ _)
    · rcases moved now with raised | full <;> omega

/-- A channel that was clear stays clear, or a record raised its revision. -/
theorem GapMove.clear_or_raised (move : GapMove s event next)
    (clearable : ∀ c, s.active c = none → s.revision c < u64Max) (c : Nat)
    (clear : s.active c = none) : next.active c = none ∨ s.revision c < next.revision c := by
  cases move with
  | quiet _ gaps _ _ => exact Or.inl ((gaps c).trans clear)
  | record d position gap _ revision _ _ others =>
    by_cases same : c = d
    · subst same
      rw [revision, saturatingSucc_of_lt (clearable c clear)]
      exact Or.inr (Nat.lt_succ_self _)
    · exact Or.inl ((others c same).2.trans clear)
  | clear notice taken _ _ _ _ _ _ became others =>
    by_cases same : c = notice.snapshot.channelId
    · exact Or.inl (same ▸ became)
    · exact Or.inl ((others c same).trans clear)

theorem GapMove.cleared (move : GapMove s event next)
    (c : Nat) (cleared : clearsOn c event = true) : next.active c = none := by
  cases move with
  | quiet _ _ _ noClear =>
    rw [noClear c] at cleared
    cases cleared
  | record d position gap called _ _ _ _ =>
    rw [called] at cleared
    cases cleared
  | clear notice taken called _ _ _ _ _ became _ =>
    rw [called] at cleared
    simp only [clearsOn, beq_iff_eq] at cleared
    exact cleared ▸ became

theorem notices_kept (move : GapMove s event next)
    (tokens : TokenMove s event next) (holds : GapInvariant s) (notice : MessageGapNotice)
    (taken : Nat) (member : (notice, taken) ∈ next.notices) :
    taken ≤ next.log.length ∧
      notice.snapshot.revision ≤ next.revision notice.snapshot.channelId ∧
      (Since (recordsOn notice.snapshot.channelId) taken next.log →
        notice.snapshot.revision < next.revision notice.snapshot.channelId ∨
          notice.snapshot.revision = u64Max) ∧
      (Since (clearsOn notice.snapshot.channelId) taken next.log →
        notice.snapshot.revision < next.revision notice.snapshot.channelId ∨
          next.active notice.snapshot.channelId = none) := by
  obtain ⟨mono, bound, moved⟩ := move.revision_mono holds.bounded notice.snapshot.channelId
  have short : s.log.length ≤ next.log.length := by
    rw [tokens.log, List.length_append]
    omega
  rw [tokens.log] at short ⊢
  rcases tokens.notices notice taken member with old | ⟨rfl, same, reported⟩
  · obtain ⟨before, reached, recorded, cleared⟩ := holds.notices notice taken old
    refine ⟨Nat.le_trans before short, Nat.le_trans reached mono, fun since => ?_, fun since => ?_⟩
    · rcases since.append with earlier | now
      · rcases recorded earlier with passed | full
        · exact Or.inl (Nat.lt_of_lt_of_le passed mono)
        · exact Or.inr full
      · rcases moved now with raised | full
        · exact Or.inl (Nat.lt_of_le_of_lt reached raised)
        · omega
    · rcases since.append with earlier | now
      · rcases cleared earlier with passed | clear
        · exact Or.inl (Nat.lt_of_lt_of_le passed mono)
        · rcases move.clear_or_raised holds.clearable _ clear with still | raised
          · exact Or.inr still
          · exact Or.inl (Nat.lt_of_le_of_lt reached raised)
      · exact Or.inr (move.cleared _ now)
  · refine ⟨short, reported ▸ mono, fun since => ?_, fun since => ?_⟩
    · rcases since.append with earlier | now
      · exact absurd earlier (not_since_now _ _)
      · rcases moved now with raised | full <;> omega
    · rcases since.append with earlier | now
      · exact absurd earlier (not_since_now _ _)
      · exact Or.inr (move.cleared _ now)

theorem clears_kept (move : GapMove s event next)
    (tokens : TokenMove s event next) (holds : GapInvariant s) (m : Nat)
    (notice : MessageGapNotice) (taken : Nat)
    (found : next.log[m]? = some (.acknowledged notice taken (.ok .cleared))) : taken ≤ m := by
  rw [tokens.log] at found
  by_cases within : m < s.log.length
  · rw [List.getElem?_append_left within] at found
    exact holds.clears m notice taken found
  · rw [List.getElem?_append_right (Nat.le_of_not_lt within)] at found
    have called := List.mem_singleton.1 (List.mem_of_getElem? found)
    -- the event is this step's own, so the notice was held before it
    have held : (notice, taken) ∈ s.notices := by
      cases move with
      | quiet _ _ _ noClear =>
        have cleared := noClear notice.snapshot.channelId
        rw [← called] at cleared
        simp [clearsOn] at cleared
      | record d position gap other _ _ _ _ =>
        rw [← called] at other
        cases other
      | clear notice' taken' other held _ _ _ _ _ _ =>
        rw [← called] at other
        cases other
        exact held
    exact Nat.le_trans (holds.notices notice taken held).1 (Nat.le_of_not_lt within)

theorem positionsSince_append (c : Nat) (log : List GapEvent) (event : GapEvent) :
    positionsSince c (log ++ [event]) =
      match event with
      | .recorded channel position (.ok ()) =>
        if channel = c then positionsSince c log ++ [position] else positionsSince c log
      | .acknowledged notice _ (.ok .cleared) =>
        if notice.snapshot.channelId = c then [] else positionsSince c log
      | _ => positionsSince c log := by
  unfold positionsSince
  rw [List.foldl_append]
  rfl

theorem positionsSince_quiet {c : Nat} {log : List GapEvent}
    (noRecord : recordsOn c event = false) (noClear : clearsOn c event = false) :
    positionsSince c (log ++ [event]) = positionsSince c log := by
  rw [positionsSince_append]
  split
  · next channel position =>
    simp only [recordsOn, beq_eq_false_iff_ne] at noRecord
    exact if_neg noRecord
  · next notice taken =>
    simp only [clearsOn, beq_eq_false_iff_ne] at noClear
    exact if_neg noClear
  · rfl

theorem earliest_kept (move : GapMove s event next)
    (tokens : TokenMove s event next) (holds : GapInvariant s) (c : Nat) :
    match next.active c with
    | none => positionsSince c next.log = []
    | some gap => gap.earliest ∈ positionsSince c next.log ∧
        ∀ position ∈ positionsSince c next.log, gap.earliest ≤ position := by
  have before := holds.earliest c
  rw [tokens.log]
  cases move with
  | quiet _ gaps noRecord noClear =>
    rw [gaps c, positionsSince_quiet (noRecord c) (noClear c)]
    exact before
  | record d position gap called _ became earliest others =>
    by_cases same : c = d
    · subst same
      rw [became, called, positionsSince_append]
      simp only [if_true]
      cases active : s.active c with
      | none =>
        rw [active] at before earliest
        simp only [Option.map_none, Option.elim_none] at before earliest
        simp [before, earliest]
      | some old =>
        rw [active] at before earliest
        simp only [Option.map_some, Option.elim_some] at before earliest
        rw [earliest]
        refine ⟨?_, ?_⟩
        · rcases min_choice old.earliest position with first | second
          · rw [first]
            exact List.mem_append_left _ before.1
          · rw [second]
            exact List.mem_append_right _ (List.mem_singleton_self position)
        · intro other member
          rcases List.mem_append.1 member with earlier | now
          · exact le_trans (min_le_left _ _) (before.2 other earlier)
          · rw [List.mem_singleton.1 now]
            exact min_le_right _ _
    · rw [(others c same).2, positionsSince_quiet]
      · exact before
      · rw [called]
        exact beq_eq_false_iff_ne.2 (Ne.symm same)
      · rw [called]
        rfl
  | clear notice taken called _ _ _ _ _ became others =>
    by_cases same : c = notice.snapshot.channelId
    · subst same
      rw [became, called, positionsSince_append]
      exact if_pos rfl
    · rw [others c same, positionsSince_quiet]
      · exact before
      · rw [called]
        rfl
      · rw [called]
        exact beq_eq_false_iff_ne.2 (Ne.symm same)

theorem gapStep_invariant (step : GapStep s event next)
    (holds : GapInvariant s) : GapInvariant next := by
  obtain ⟨move, tokens⟩ := gapStep_move step
  exact {
    bounded := fun c => (move.revision_mono holds.bounded c).2.1
    clearable := move.clearable holds.bounded holds.clearable
    fences := fences_kept move tokens holds
    notices := notices_kept move tokens holds
    clears := clears_kept move tokens holds
    earliest := earliest_kept move tokens holds }

theorem start_invariant (identity : Nat) : GapInvariant (.start identity) where
  bounded c := Nat.zero_le _
  clearable c _ := by
    change 0 < u64Max
    decide
  fences _ _ member := by cases member
  notices _ _ member := by cases member
  clears m _ _ found := by cases found
  earliest c := rfl

theorem run_invariant {identity : Nat} {events : List GapEvent}
    (run : Run GapStep (.start identity) events s) : GapInvariant s :=
  run.preserves GapInvariant (fun _ _ _ step holds => gapStep_invariant step holds)
    (start_invariant identity)

/-! ## Main result -/

theorem episodeAt_mono (c : Nat) (log : List GapEvent) {early late : Nat} (order : early ≤ late) :
    episodeAt c log early ≤ episodeAt c log late :=
  List.Sublist.countP_le (List.take_sublist_take_left order)

/-- A clearing acknowledgement ends an episode. -/
theorem episodeAt_clear {c : Nat} {log : List GapEvent} {m : Nat}
    (found : log[m]? = some event) (cleared : clearsOn c event = true) :
    episodeAt c log m < episodeAt c log (m + 1) := by
  unfold episodeAt
  rw [List.take_add_one, found, List.countP_append]
  simp [cleared]

theorem run_log {events : List GapEvent} (run : Run GapStep s events next) :
    next.log = s.log ++ events := by
  induction run with
  | nil _ => simp
  | cons first _ ih =>
    rw [ih, (gapStep_move first).2.log, List.append_assoc]
    rfl

theorem fenced_current {fence : MessageGapFence} {taken : Nat}
    (step : GapStep s (.fenced fence taken true) next) :
    (fence, taken) ∈ s.fences ∧ s.revision fence.channelId = fence.revision := by
  generalize event : GapEvent.fenced fence taken true = called at step
  cases step with
  | fence _ fence' taken' action held =>
    obtain ⟨rfl, rfl, ran⟩ := GapEvent.fenced.inj event
    obtain ⟨_, _, current⟩ := withCurrentFence_cases s.tracker fence action
    obtain ⟨own, revision, _⟩ := current ran.symm
    exact ⟨held.resolve_right fun foreign => foreign own.symm, revision⟩
  | record | snapshot | acknowledge | capture | panic => cases event

theorem acknowledged_current {notice : MessageGapNotice} {taken : Nat}
    (step : GapStep s (.acknowledged notice taken (.ok .cleared)) next) :
    (notice, taken) ∈ s.notices ∧ notice.snapshot.revision ≠ u64Max ∧
      s.revision notice.snapshot.channelId = notice.snapshot.revision ∧
      s.active notice.snapshot.channelId ≠ none := by
  cases (gapStep_move step).1 with
  | quiet _ _ _ noClear =>
    have cleared := noClear notice.snapshot.channelId
    simp [clearsOn] at cleared
  | record _ _ _ called _ _ _ _ => cases called
  | clear _ _ called held acknowledgeable current wasActive _ _ _ =>
    cases called
    exact ⟨held, acknowledgeable, current, wasActive⟩

/-- For every run of the tracker: an action runs under a fence only when no record came
between capture and action; a notice is cleared only when no record came since it was
taken, and once per episode; a reported gap starts at its earliest position, and a snapshot of a
tracker that is not poisoned reports every channel that was recorded on since it was cleared. -/
theorem gap_tokens_current {identity : Nat} {s : GapRun} {events : List GapEvent}
    (run : Run GapStep (.start identity) events s) :
    (∀ fence taken next, GapStep s (.fenced fence taken true) next →
      ¬Since (recordsOn fence.channelId) taken events) ∧
    (∀ notice taken next, GapStep s (.acknowledged notice taken (.ok .cleared)) next →
      ¬Since (recordsOn notice.snapshot.channelId) taken events ∧
      ∀ (m : Nat) (earlier : MessageGapNotice) (earlierTaken : Nat),
        events[m]? = some (.acknowledged earlier earlierTaken (.ok .cleared)) →
        earlier.snapshot.channelId = notice.snapshot.channelId →
        episodeAt notice.snapshot.channelId events earlierTaken <
          episodeAt notice.snapshot.channelId events taken) ∧
    (∀ notice ∈ GapAnswer.tokens s.tracker.snapshot,
      notice.snapshot.earliest ∈ positionsSince notice.snapshot.channelId events ∧
      ∀ position ∈ positionsSince notice.snapshot.channelId events,
        notice.snapshot.earliest ≤ position) ∧
    ∀ channelId, s.tracker.poisoned = false →
      s.active channelId ≠ none ∨ positionsSince channelId events ≠ [] →
      ∃ notices, s.tracker.snapshot = .ok notices ∧
        ∃ notice ∈ notices, notice.snapshot.channelId = channelId := by
  have holds := run_invariant run
  have same : s.log = events := run_log run
  rw [← same]
  refine ⟨?_, ?_, ?_, ?_⟩
  · intro fence taken next step since
    obtain ⟨held, current⟩ := fenced_current step
    -- a record since the capture would have raised the revision of the channel
    have passed := (holds.fences fence taken held).2.2 since
    omega
  · intro notice taken next step
    obtain ⟨held, unsaturated, current, wasActive⟩ := acknowledged_current step
    obtain ⟨_, _, recorded, cleared⟩ := holds.notices notice taken held
    refine ⟨fun since => ?_, fun m earlier earlierTaken found channel => ?_⟩
    · rcases recorded since with passed | full
      · omega
      · exact unsaturated full
    · -- the earlier one closed its episode before this notice was taken
      have clears : clearsOn notice.snapshot.channelId
          (.acknowledged earlier earlierTaken (.ok .cleared)) = true := beq_iff_eq.2 channel
      have before : m < taken := by
        by_contra late
        rcases cleared ⟨m, _, Nat.le_of_not_lt late, found, clears⟩ with passed | clear
        · omega
        · exact wasActive clear
      calc episodeAt notice.snapshot.channelId s.log earlierTaken
          ≤ episodeAt notice.snapshot.channelId s.log m :=
            episodeAt_mono _ _ (holds.clears m earlier earlierTaken found)
        _ < episodeAt notice.snapshot.channelId s.log (m + 1) := episodeAt_clear found clears
        _ ≤ episodeAt notice.snapshot.channelId s.log taken := episodeAt_mono _ _ before
  · intro notice reported
    obtain ⟨_, gap, active, equal⟩ := snapshot_reports reported
    have least := holds.earliest notice.snapshot.channelId
    rw [active] at least
    exact equal ▸ least
  · intro channelId sound recorded
    refine active_reported sound fun inactive => ?_
    -- without a gap no position was recorded since the last clear
    have least := holds.earliest channelId
    rw [inactive] at least
    exact recorded.elim (absurd inactive) (absurd least)

/-- Two messages of one channel, the later one recorded first. -/
def twoMessages : List GapEvent :=
  [.recorded 7 ⟨5, 2⟩ (.ok ()), .recorded 7 ⟨3, 1⟩ (.ok ())]

def twoMessageNotice : MessageGapNotice := ⟨⟨7, ⟨3, 1⟩, 3, 2, 2⟩, 0⟩

/-- The gap of the two messages is reported, and from the earlier one on. -/
theorem gap_of_two_messages :
    (∃ notices, (((MessageGapTracker.new 0).record 7 ⟨5, 2⟩ .full).2.record 7 ⟨3, 1⟩ .closed).2.snapshot
      = .ok notices ∧ ∃ notice ∈ notices, notice.snapshot.channelId = 7) ∧
    twoMessageNotice.snapshot.earliest ∈ positionsSince 7 twoMessages ∧
      ∀ position ∈ positionsSince 7 twoMessages, twoMessageNotice.snapshot.earliest ≤ position := by
  have run : Run GapStep (.start 0) twoMessages _ :=
    .cons (.record (.start 0) 7 ⟨5, 2⟩ .full) (.cons (.record _ 7 ⟨3, 1⟩ .closed) (.nil _))
  have reported : twoMessageNotice ∈ GapAnswer.tokens (((MessageGapTracker.new 0).record 7 ⟨5, 2⟩
      .full).2.record 7 ⟨3, 1⟩ .closed).2.snapshot := by decide
  obtain ⟨-, -, least, listed⟩ := gap_tokens_current run
  exact ⟨listed 7 rfl (.inr (by decide)), least twoMessageNotice reported⟩

end CodexRemote.Verified.MessageGaps

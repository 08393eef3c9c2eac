import CodexRemote.Runtime.SourceDriver
import CodexRemote.Verified.ObservationWindow

/-! # Gaps that the driver notices

The window starts at the first notification that is kept, so what was evicted before it never
shows between the window's own ends.
-/

namespace CodexRemote.Verified.SourceDriver

open Foundations AppServer Runtime.SourceDriver
open Verified.ObservationWindow

/-- A position that was passed over: it is behind the page, not on it, and was not handed on
before. -/
def Hole (handed : Nat → Prop) (forwarded : Nat) (page : ObservationWindow) : Prop :=
  ∃ sequence, forwarded < sequence ∧ sequence ≤ page.scannedThrough ∧
    sequence ∉ page.events.map (·.sequence) ∧ ¬ handed sequence

def MarksGap (answers : DriverAnswers) (page : ObservationWindow) : Prop :=
  ∃ generation, .sourceGapMarked generation ∈ processPage answers page

/-- An event that gives reason to mark a gap: its payload is missing, it is not certified, or
there is no room to forward it. -/
def Unsettled (answers : DriverAnswers) (event : SourceObservation) : Prop :=
  event.notification = none ∨ ∃ n, event.notification = some n ∧
    (answers.certify event.sequence n = false ∨
      (answers.extractThreadId n.params).isSome ∧
        (answers.charge event.sequence n = false ∨ answers.trySend event.sequence n = false))

variable {answers : DriverAnswers} {json : JsonWriter} {history : List Notification}
  {forwarded : Nat}

/-! ## One event -/

theorem send_marks {sequence generation : Nat} {n : Notification} :
    (∃ marked, Effect.sourceGapMarked marked ∈ send answers sequence generation n) ↔
      (answers.extractThreadId n.params).isSome ∧
        (answers.charge sequence n = false ∨ answers.trySend sequence n = false) := by
  rw [send]
  cases answers.extractThreadId n.params with
  | none => simp
  | some thread =>
    cases answers.charge sequence n with
    | false => simp
    | true => cases answers.trySend sequence n <;> simp

theorem stopped_unmarked {generation marked : Nat} {n : Notification} :
    Effect.sourceGapMarked marked ∉ (if n.method = "turn/completed" then
      match answers.parseTurnCompletion n.params with
      | some (thread, turn) => [Effect.turnStopped generation thread turn]
      | none => []
    else []) := by
  split
  · split <;> simp
  · simp

theorem processEvent_marks {generation : Nat} {event : SourceObservation} :
    (∃ marked, Effect.sourceGapMarked marked ∈ processEvent answers generation event) ↔
      Unsettled answers event := by
  obtain ⟨sequence, notification⟩ := event
  cases notification with
  | none => simp [processEvent, Unsettled]
  | some n =>
    rw [processEvent]
    dsimp only
    simp only [List.mem_append, exists_or, send_marks]
    rw [Unsettled, or_assoc, or_iff_right (by rintro ⟨_, present⟩; exact stopped_unmarked present)]
    cases certified : answers.certify sequence n <;> simp [certified]

/-! ## One page -/

variable {page : ObservationWindow}

/-- A window starts where the last one ended or where the log starts, whichever is later. -/
theorem window_shape (call : observationWindow json (recorded history) forwarded none = .ok page) :
    ∃ start, page.firstAvailable ≤ start ∧
      page.firstAvailable = history.length - maxNotifications + 1 ∧
      (forwarded < start ∨ history.length ≤ forwarded) ∧
      start ≤ max (forwarded + 1) page.firstAvailable ∧
      page.events.map (·.sequence) =
        List.range' start (min observationPageSize (history.length - (start - 1))) ∧
      page.scannedThrough = min history.length (start - 1 + observationPageSize) ∧
      history.length ≤ u64Max := by
  have open_ : observationWindow json (recorded history) forwarded
      (some (recorded history).revision) = .ok page := call
  obtain ⟨counted, order, within⟩ := window_valid open_
  have revision : (recorded history).revision = history.length := by
    rw [(recorded_counted history).1]
    omega
  rw [revision] at open_ order within
  rw [window_ok counted order within] at open_
  have same := Except.ok.inj open_
  refine ⟨_, ?_, (congrArg ObservationWindow.firstAvailable same).symm, ?_, ?_, ?_,
    (congrArg ObservationWindow.scannedThrough same).symm, counted⟩
  · rw [← congrArg ObservationWindow.firstAvailable same]
    exact Nat.le_max_right ..
  · rw [saturatingSucc]
    omega
  · rw [← congrArg ObservationWindow.firstAvailable same, saturatingSucc]
    dsimp only
    omega
  · rw [← congrArg ObservationWindow.events same]
    dsimp only
    rw [carry_sequences, List.length_take, List.length_drop, List.length_take, Nat.min_self]

/-- The comparison with the first event never fires. -/
theorem missing_never (call : observationWindow json (recorded history) forwarded none = .ok page) :
    missing page = false := by
  obtain ⟨start, reached, first, after, latest, shown, through, counted⟩ := window_shape call
  rw [missing, decide_eq_false_iff_not, Nat.not_lt, ← List.head?_map, shown]
  cases count : min observationPageSize (history.length - (start - 1)) with
  | zero =>
    have some_ : 0 < observationPageSize := by decide
    have few : 0 < maxNotifications := by decide
    have top : 0 < u64Max := by decide
    rw [List.range'_zero, List.head?_nil, Option.getD_none, saturatingSucc, through]
    generalize observationPageSize = size at *
    generalize maxNotifications = kept at *
    generalize u64Max = limit at *
    omega
  | succ count =>
    rw [List.range'_succ, List.head?_cons, Option.getD_some]
    exact reached

theorem hole_iff {handed : Nat → Prop}
    (call : observationWindow json (recorded history) forwarded none = .ok page) :
    Hole handed forwarded page ↔
      ∃ sequence, forwarded < sequence ∧ sequence ≤ history.length - maxNotifications ∧
        ¬ handed sequence := by
  obtain ⟨start, reached, first, after, latest, shown, through, counted⟩ := window_shape call
  have some_ : 0 < observationPageSize := by decide
  rw [Hole, shown, through]
  constructor
  · rintro ⟨sequence, later, within, missed, fresh⟩
    rw [List.mem_range'_1] at missed
    exact ⟨sequence, later, by omega, fresh⟩
  · rintro ⟨sequence, later, gone, fresh⟩
    refine ⟨sequence, later, by omega, ?_, fresh⟩
    rw [List.mem_range'_1]
    omega

theorem processPage_marks (whole : missing page = false) :
    MarksGap answers page ↔ ∃ event ∈ page.events, Unsettled answers event := by
  have idle : ∀ marked, Effect.sourceGapMarked marked ∉
      (if (page.sourceUpper ≤ i64Max && answers.discover page.sourceUpper) = true then [] else
        [Effect.idleGapMarked]) := by
    intro marked
    split <;> simp
  simp only [MarksGap, processPage, whole, List.mem_append, List.mem_flatMap, idle]
  have marks := fun event => @processEvent_marks answers page.generation event
  simp only [← marks]
  simp
  tauto

/-- The driver notices what was evicted exactly when nothing was that it has not seen, or when an
event of the same page gives another reason. -/
theorem eviction_noticed_iff (answers : DriverAnswers) (json : JsonWriter)
    (history : List Notification) (handed : Nat → Prop) (forwarded : Nat)
    (window : ObservationWindow) (owner : String) (generation : Nat)
    (call : observationWindow json (recorded history) forwarded none = .ok window) :
    (Hole handed forwarded { window with ownerId := owner, generation := generation } →
        MarksGap answers { window with ownerId := owner, generation := generation }) ↔
      (∀ sequence, forwarded < sequence → sequence ≤ history.length - maxNotifications →
        handed sequence) ∨
        ∃ event ∈ window.events, Unsettled answers event := by
  -- neither the hole nor the comparison depends on the owner and its generation
  have whole : missing { window with ownerId := owner, generation := generation } = false :=
    show missing window = false from missing_never call
  have holes : Hole handed forwarded { window with ownerId := owner, generation := generation } ↔
      Hole handed forwarded window := Iff.rfl
  rw [holes, hole_iff call, processPage_marks whole, imp_iff_not_or]
  refine or_congr_left ?_
  push Not
  rfl

/-! ## One notification too many -/

/-- Everything succeeds. -/
def smoothAnswers : DriverAnswers where
  discover _ := true
  certify _ _ := true
  parseTurnCompletion _ := none
  extractThreadId _ := some "thread"
  charge _ _ := true
  trySend _ _ := true
  serverGeneration _ := 1

def crowdedHistory : List Notification := List.replicate 1001 (textEvent 0)

theorem crowded_window :
    ∃ window, observationWindow plainWriter (recorded crowdedHistory) 0 none = .ok window ∧
      ∀ event ∈ window.events, event.notification ≠ none := by
  have length : crowdedHistory.length = 1001 := List.length_replicate
  have counted : crowdedHistory.length ≤ u64Max := by
    rw [length]
    decide
  have revision : (recorded crowdedHistory).revision = crowdedHistory.length := by
    rw [(recorded_counted crowdedHistory).1, Nat.min_eq_left counted]
  have call := @window_page plainWriter (recorded crowdedHistory).revision crowdedHistory 0 counted
    (Nat.zero_le _) (Nat.le_of_eq revision) (by decide)
  refine ⟨_, call, ?_⟩
  have first : (pending crowdedHistory 0 (recorded crowdedHistory).revision).take
      observationPageSize = List.replicate 32 (textEvent 0) := by
    rw [revision, pending, List.take_length, origin, length, crowdedHistory, List.drop_replicate,
      List.take_replicate]
    rfl
  dsimp only
  rw [first]
  have carried : ((carry plainWriter (origin crowdedHistory 0 + 1) 0
      (List.replicate 32 (textEvent 0))).all fun event => event.notification.isSome) = true := by
    rw [origin, length]
    decide +kernel
  intro event member missed
  simpa [missed] using List.all_eq_true.1 carried event member

/-- The first of the notifications is gone before the driver reads, and no gap is marked. -/
theorem evicted_silently :
    ∃ window, observationWindow plainWriter (recorded crowdedHistory) 0 none = .ok window ∧
      Hole (fun _ => False) 0 window ∧ ¬ MarksGap smoothAnswers window := by
  obtain ⟨window, call, whole⟩ := crowded_window
  refine ⟨window, call, (hole_iff call).2 ⟨1, Nat.zero_lt_one, ?_, not_false⟩, ?_⟩
  · rw [crowdedHistory, List.length_replicate]
    decide
  · rw [processPage_marks (missing_never call)]
    rintro ⟨event, member, missed | ⟨n, -, refused | ⟨-, full | full⟩⟩⟩
    · exact whole event member missed
    · cases refused
    · cases full
    · cases full

theorem crowded_notice :
    ∃ window, observationWindow plainWriter (recorded crowdedHistory) 0 none = .ok window ∧
      ((Hole (fun _ => False) 0 { window with ownerId := "", generation := 1 } →
          MarksGap smoothAnswers { window with ownerId := "", generation := 1 }) ↔
        (∀ sequence, 0 < sequence → sequence ≤ crowdedHistory.length - maxNotifications → False) ∨
          ∃ event ∈ window.events, Unsettled smoothAnswers event) := by
  obtain ⟨window, call, -⟩ := crowded_window
  exact ⟨window, call, eviction_noticed_iff smoothAnswers plainWriter crowdedHistory
    (fun _ => False) 0 window "" 1 call⟩

end CodexRemote.Verified.SourceDriver

import Mathlib.Data.List.Induction
import CodexRemote.AppServer.ObservationWindow

/-! # Paging through the notifications

A scan reads page after page up to a fixed end.  It passes over every position once; which
payloads it brings depends on what else is on their page.
-/

namespace CodexRemote.Verified.ObservationWindow

open Foundations AppServer Store

/-! ## What is kept of a history -/

theorem record_notifications (log : NotificationLog) (n : Notification) :
    (log.recordNotification n).notifications =
      if maxNotifications < (log.notifications ++ [n]).length then
        (log.notifications ++ [n]).tail else log.notifications ++ [n] := by
  simp only [NotificationLog.recordNotification]
  cases checkedSucc u64Max log.revision <;> rfl

theorem recorded_append (history : List Notification) (n : Notification) :
    recorded (history ++ [n]) = (recorded history).recordNotification n := by
  rw [recorded, List.foldl_append]
  rfl

theorem recorded_notifications (history : List Notification) :
    (recorded history).notifications = history.drop (history.length - maxNotifications) := by
  induction history using List.reverseRecOn with
  | nil => rfl
  | append_singleton history n ih =>
    have within : history.length - maxNotifications ≤ history.length := Nat.sub_le _ _
    have count : (history ++ [n]).length = history.length + 1 := List.length_append
    rw [recorded_append, record_notifications, ih, ← List.drop_append_of_le_length within,
      List.tail_drop, List.length_drop, count]
    split
    · rw [show history.length - maxNotifications + 1 = history.length + 1 - maxNotifications by omega]
    · rw [show history.length - maxNotifications = history.length + 1 - maxNotifications by omega]

theorem recorded_counted (history : List Notification) :
    (recorded history).revision = min history.length u64Max ∧
      ((recorded history).exhausted = true ↔ u64Max < history.length) := by
  induction history using List.reverseRecOn with
  | nil => simp [recorded, NotificationLog.start]
  | append_singleton history n ih =>
    obtain ⟨revision, exhausted⟩ := ih
    have count : (history ++ [n]).length = history.length + 1 := List.length_append
    rw [recorded_append, count, NotificationLog.recordNotification, checkedSucc]
    by_cases room : (recorded history).revision + 1 ≤ u64Max
    · rw [if_pos room]
      refine ⟨?_, exhausted.trans (by omega)⟩
      show (recorded history).revision + 1 = _
      omega
    · rw [if_neg room]
      refine ⟨?_, fun _ => by omega, fun _ => rfl⟩
      show (recorded history).revision = _
      omega

/-! ## The budget -/

/-- The bytes that a page counts for a notification -/
def size (json : JsonWriter) (n : Notification) : Nat :=
  n.method.utf8ByteSize + (json.writes n.params).sum

theorem writeAll_spec (writes : List Nat) (budget : Budget) :
    writes.foldlM Budget.writeAll budget =
      if writes.sum = 0 then some budget
      else if budget.limit < budget.used + writes.sum then none
      else some { budget with used := budget.used + writes.sum } := by
  induction writes generalizing budget with
  | nil => rfl
  | cons bytes rest ih =>
    rw [List.foldlM_cons, List.sum_cons, Budget.writeAll, Budget.write]
    by_cases none_ : bytes = 0
    · rw [if_pos none_, none_, Nat.zero_add]
      exact ih budget
    · rw [if_neg none_, if_neg (by omega : ¬ bytes + rest.sum = 0)]
      by_cases full : budget.limit < budget.used + bytes
      · rw [if_pos full, if_pos (by omega)]
        rfl
      · rw [if_neg full]
        show rest.foldlM Budget.writeAll { budget with used := budget.used + bytes } = _
        rw [ih]
        by_cases last : rest.sum = 0
        · rw [if_pos last, if_neg (by omega), last]
          rfl
        · rw [if_neg last]
          simp only [Nat.add_assoc]

/-- A value is written exactly when the whole of it fits. -/
theorem toWriter_spec (json : JsonWriter) (used : Nat) (n : Notification) :
    json.toWriter ⟨used + n.method.utf8ByteSize, observationPageBytes⟩ n.params =
      if used + size json n ≤ observationPageBytes then
        some ⟨used + size json n, observationPageBytes⟩ else none := by
  have some_ := json.nonempty n.params
  rw [JsonWriter.toWriter, writeAll_spec, if_neg (by omega), size]
  dsimp only
  rw [Nat.add_assoc]
  by_cases fits : used + (n.method.utf8ByteSize + (json.writes n.params).sum) ≤ observationPageBytes
  · rw [if_pos fits, if_neg (by omega)]
  · rw [if_neg fits, if_pos (by omega)]

/-! ## One page -/

/-- What a page makes of successive notifications: a payload stays behind when it does not fit
what is left of the budget. -/
def carry (json : JsonWriter) : Nat → Nat → List Notification → List SourceObservation
  | _, _, [] => []
  | sequence, used, n :: rest =>
    if used + size json n ≤ observationPageBytes then
      ⟨sequence, some n⟩ :: carry json (sequence + 1) (used + size json n) rest
    else ⟨sequence, none⟩ :: carry json (sequence + 1) used rest

theorem carry_sequences (json : JsonWriter) (sequence used : Nat) (items : List Notification) :
    (carry json sequence used items).map (·.sequence) = List.range' sequence items.length := by
  induction items generalizing sequence used with
  | nil => rfl
  | cons n rest ih =>
    rw [carry, List.length_cons, List.range'_succ]
    split <;> rw [List.map_cons, ih]

variable {json : JsonWriter} {start upper : Nat}

theorem scan_skips (sequence used : Nat) (items : List Notification) (page : ObservationWindow) :
    scanNotifications json start upper sequence items used page =
      scanNotifications json start upper (sequence + (start - sequence))
        (items.drop (start - sequence)) used page := by
  induction items generalizing sequence with
  | nil => simp [scanNotifications]
  | cons n rest ih =>
    by_cases before : sequence < start
    · have next : start - sequence = start - (sequence + 1) + 1 := by omega
      rw [scanNotifications, if_pos before, ih (sequence + 1), next, List.drop_succ_cons]
      congr 1
      omega
    · rw [Nat.sub_eq_zero_of_le (Nat.not_lt.1 before)]
      rfl

theorem scan_carries (sequence used k : Nat) (items : List Notification) (page : ObservationWindow)
    (room : k = min (upper + 1 - sequence) (observationPageSize - page.events.length))
    (reached : start ≤ sequence) (here : page.scannedThrough + 1 = sequence ∨ upper < sequence) :
    scanNotifications json start upper sequence items used page =
      { page with
        events := page.events ++ carry json sequence used (items.take k)
        scannedThrough := page.scannedThrough + (items.take k).length } := by
  induction items generalizing sequence used k page with
  | nil => simp [scanNotifications, carry]
  | cons n rest ih =>
    rw [scanNotifications, if_neg (Nat.not_lt.2 reached)]
    by_cases stop : upper < sequence ∨ observationPageSize ≤ page.events.length
    · have none_ : k = 0 := by omega
      rw [if_pos (by simpa using stop), none_]
      simp [carry]
    · rw [if_neg (by simpa using stop)]
      obtain ⟨k, rfl⟩ : ∃ less, k = less + 1 := ⟨k - 1, by omega⟩
      rw [toWriter_spec, List.take_succ_cons, carry, ih (sequence + 1) _ k _
        (by rw [List.length_append, List.length_singleton]; omega) (by omega) (.inl rfl)]
      have shown := here.resolve_right (by omega)
      split <;> simp <;> omega

/-! ## One call -/

/-- The last sequence that a call from here skips: one that was seen or one that is gone -/
def origin (history : List Notification) (after : Nat) : Nat :=
  max after (history.length - maxNotifications)

/-- What a scan from here has to return. -/
def pending (history : List Notification) (after upper : Nat) : List Notification :=
  (history.take upper).drop (origin history after)

theorem scan_page {history : List Notification} (page : ObservationWindow)
    (before : page.scannedThrough = min upper (start - 1)) (empty : page.events = [])
    (first : history.length - maxNotifications < start) (within : upper ≤ history.length) :
    scanNotifications json start upper (history.length - maxNotifications + 1)
        (recorded history).notifications 0 page =
      { page with
        events := carry json start 0
          (((history.take upper).drop (start - 1)).take observationPageSize)
        scannedThrough := min upper (start - 1 + observationPageSize) } := by
  have skipped : history.length - maxNotifications +
      (start - (history.length - maxNotifications + 1)) = start - 1 := by omega
  have reached : history.length - maxNotifications + 1 +
      (start - (history.length - maxNotifications + 1)) = start := by omega
  rw [scan_skips, recorded_notifications, List.drop_drop, skipped, reached,
    scan_carries start 0 _ _ _ rfl (Nat.le_refl _) (by omega), empty, List.drop_take,
    List.take_take, List.nil_append, before]
  have room : min (upper + 1 - start) (observationPageSize - ([] : List SourceObservation).length) =
      min observationPageSize (upper - (start - 1)) := by
    rw [List.length_nil]
    omega
  have through : min upper (start - 1) +
      min (min observationPageSize (upper - (start - 1))) (history.length - (start - 1)) =
        min upper (start - 1 + observationPageSize) := by omega
  rw [room, List.length_take, List.length_drop, through]

theorem window_ok {history : List Notification} {after : Nat} (counted : history.length ≤ u64Max)
    (order : after ≤ upper) (within : upper ≤ history.length) :
    let start := max (saturatingSucc u64Max after) (history.length - maxNotifications + 1)
    observationWindow json (recorded history) after (some upper) =
      .ok
        { ownerId := ""
          generation := 0
          firstAvailable := history.length - maxNotifications + 1
          sourceUpper := history.length
          upper
          scannedThrough := min upper (start - 1 + observationPageSize)
          events := carry json start 0
            (((history.take upper).drop (start - 1)).take observationPageSize) } := by
  intro start
  obtain ⟨revision, exhausted⟩ := recorded_counted history
  rw [Nat.min_eq_left counted] at revision
  have first : history.length - (recorded history).notifications.length + 1 =
      history.length - maxNotifications + 1 := by
    rw [recorded_notifications, List.length_drop]
    omega
  rw [observationWindow, if_neg (by rw [exhausted]; omega)]
  simp only [Option.getD_some, revision]
  rw [if_neg (by simp only [Bool.or_eq_true, decide_eq_true_eq]; omega), first]
  exact congrArg Except.ok (scan_page _ rfl rfl (by omega) within)

theorem window_valid {history : List Notification} {after : Nat} {page : ObservationWindow}
    (call : observationWindow json (recorded history) after (some upper) = .ok page) :
    history.length ≤ u64Max ∧ after ≤ upper ∧ upper ≤ history.length := by
  obtain ⟨revision, exhausted⟩ := recorded_counted history
  rw [observationWindow] at call
  split at call
  · cases call
  · next counted =>
    simp only [Option.getD_some] at call
    split at call
    · cases call
    · next valid =>
      simp only [Bool.or_eq_true, decide_eq_true_eq, not_or, Nat.not_lt] at valid
      rw [exhausted] at counted
      omega

theorem window_page {history : List Notification} {after : Nat} (counted : history.length ≤ u64Max)
    (order : after ≤ upper) (within : upper ≤ history.length) (room : after < u64Max) :
    observationWindow json (recorded history) after (some upper) =
      .ok
        { ownerId := ""
          generation := 0
          firstAvailable := history.length - maxNotifications + 1
          sourceUpper := history.length
          upper
          scannedThrough := min upper (origin history after + observationPageSize)
          events := carry json (origin history after + 1) 0
            ((pending history after upper).take observationPageSize) } := by
  have start : max (saturatingSucc u64Max after) (history.length - maxNotifications + 1) =
      origin history after + 1 := by
    rw [saturatingSucc_of_lt room, origin]
    omega
  have call := @window_ok json upper history after counted order within
  rw [start] at call
  exact call

/-! ## What a page carries -/

section Carry

variable {look : Nat → Option Notification} {items : List Notification} {sequence used : Nat}

theorem carry_bytes (room : used ≤ observationPageBytes) :
    used + (((carry json sequence used items).filterMap (·.notification)).map (size json)).sum ≤
      observationPageBytes := by
  induction items generalizing sequence used with
  | nil => simpa [carry] using room
  | cons n rest ih =>
    rw [carry]
    split
    · next fits =>
      have tail := @ih (sequence + 1) _ fits
      simp only [List.filterMap_cons, List.map_cons, List.sum_cons]
      omega
    · exact ih room

/-- The notifications of a page stand at their positions. -/
def Placed (look : Nat → Option Notification) (sequence : Nat) (items : List Notification) : Prop :=
  ∀ index n, items[index]? = some n → look (sequence + index) = some n

theorem Placed.head {n : Notification} (placed : Placed look sequence (n :: items)) :
    look sequence = some n := placed 0 n rfl

theorem Placed.tail {n : Notification} (placed : Placed look sequence (n :: items)) :
    Placed look (sequence + 1) items := by
  intro index other found
  rw [Nat.add_assoc, Nat.add_comm 1]
  exact placed (index + 1) other found

theorem carry_placed (placed : Placed look sequence items) :
    ∀ event ∈ carry json sequence used items, ∀ n, event.notification = some n →
      look event.sequence = some n := by
  induction items generalizing sequence used with
  | nil => exact List.forall_mem_nil _
  | cons n rest ih =>
    rw [carry]
    split <;> refine List.forall_mem_cons.2 ⟨fun other same => ?_, ih placed.tail⟩ <;> cases same
    exact placed.head

/-- The bytes of the notifications that fit a page by themselves -/
def fitting (json : JsonWriter) (items : List Notification) : Nat :=
  ((items.map (size json)).filter (· ≤ observationPageBytes)).sum

/-- Every notification that fits a page by itself has its payload exactly when all of these fit
the page together. -/
theorem carry_whole_iff (placed : Placed look sequence items) (room : used ≤ observationPageBytes) :
    (∀ event ∈ carry json sequence used items, ∀ n, look event.sequence = some n →
      size json n ≤ observationPageBytes → event.notification = some n) ↔
      used + fitting json items ≤ observationPageBytes := by
  induction items generalizing sequence used with
  | nil => simpa [carry, fitting] using room
  | cons n rest ih =>
    have here : ∀ carried : Option Notification, (∀ other, look sequence = some other →
        size json other ≤ observationPageBytes → carried = some other) ↔
          (size json n ≤ observationPageBytes → carried = some n) := by
      intro carried
      rw [placed.head]
      exact ⟨fun each => each n rfl, fun each other same => Option.some.inj same ▸ each⟩
    rw [carry]
    by_cases alone : size json n ≤ observationPageBytes
    · have more : fitting json (n :: rest) = size json n + fitting json rest := by
        rw [fitting, List.map_cons, List.filter_cons_of_pos (by simpa using alone), List.sum_cons,
          fitting]
      split
      · next fits =>
        rw [List.forall_mem_cons, here, ih placed.tail fits, more]
        simp [Nat.add_assoc]
      · next full =>
        rw [List.forall_mem_cons, here, more]
        simp only [reduceCtorEq, imp_false, alone, not_true_eq_false, false_and, false_iff]
        omega
    · have same : fitting json (n :: rest) = fitting json rest := by
        rw [fitting, List.map_cons, List.filter_cons_of_neg (by simpa using alone), fitting]
      rw [if_neg (by omega), List.forall_mem_cons, here, ih placed.tail room, same]
      simp [alone]

end Carry

/-! ## A scan -/

/-- Calls with one upper end, each from where the one before it has got to -/
inductive Scan (json : JsonWriter) (log : NotificationLog) (upper : Nat) :
    Nat → List ObservationWindow → Prop where
  | last {after page} (call : observationWindow json log after (some upper) = .ok page)
      (ended : page.scannedThrough = upper) : Scan json log upper after [page]
  | more {after page pages} (call : observationWindow json log after (some upper) = .ok page)
      (short : page.scannedThrough ≠ upper) (rest : Scan json log upper page.scannedThrough pages) :
      Scan json log upper after (page :: pages)

def sequences (pages : List ObservationWindow) : List Nat :=
  pages.flatMap fun page => page.events.map (·.sequence)

def bytes (json : JsonWriter) (page : ObservationWindow) : Nat :=
  ((page.events.filterMap (·.notification)).map (size json)).sum

/-- The notification with this sequence is still kept. -/
def Kept (log : NotificationLog) (sequence : Nat) : Prop :=
  log.revision - log.notifications.length < sequence ∧ sequence ≤ log.revision

/-- Sequences count from one. -/
def numbered (history : List Notification) (sequence : Nat) : Option Notification :=
  history[sequence - 1]?

/-- What fits a page by itself has its payload. -/
def Carried (json : JsonWriter) (history : List Notification) (pages : List ObservationWindow) :
    Prop :=
  ∀ page ∈ pages, ∀ event ∈ page.events, ∀ n, numbered history event.sequence = some n →
    size json n ≤ observationPageBytes → event.notification = some n

/-- A scan that ends, returns what is kept once and in order, keeps to the page bytes and brings
every payload that fits a page. -/
def Complete (json : JsonWriter) (history : List Notification) (after upper : Nat) : Prop :=
  ∃ pages, Scan json (recorded history) upper after pages ∧
    (sequences pages).Pairwise (· < ·) ∧
    (∀ sequence, sequence ∈ sequences pages ↔
      after < sequence ∧ sequence ≤ upper ∧ Kept (recorded history) sequence) ∧
    (∀ page ∈ pages, bytes json page ≤ observationPageBytes ∧
      ∀ event ∈ page.events, ∀ n, event.notification = some n →
        numbered history event.sequence = some n) ∧
    Carried json history pages

/-- The notifications that stand on one page of the scan and fit a page by themselves fit it
together. -/
def FitTogether (json : JsonWriter) (history : List Notification) (after upper : Nat) : Prop :=
  ∀ page, fitting json (((pending history after upper).drop (observationPageSize * page)).take
    observationPageSize) ≤ observationPageBytes

section Pages

variable {history : List Notification} {after : Nat}

theorem pending_length (within : upper ≤ history.length) :
    (pending history after upper).length = upper - origin history after := by
  rw [pending, List.length_drop, List.length_take]
  omega

theorem pending_placed :
    Placed (numbered history) (origin history after + 1)
      ((pending history after upper).take observationPageSize) := by
  intro index n found
  rw [List.getElem?_take] at found
  split at found
  · rw [pending, List.getElem?_drop, List.getElem?_take] at found
    split at found
    · rw [numbered, ← found]
      congr 1
      omega
    · cases found
  · cases found

theorem fitTogether_iff :
    FitTogether json history after upper ↔
      fitting json ((pending history after upper).take observationPageSize) ≤
        observationPageBytes ∧
      ∀ page, fitting json
        ((((pending history after upper).drop observationPageSize).drop
          (observationPageSize * page)).take observationPageSize) ≤ observationPageBytes := by
  constructor
  · intro each
    refine ⟨by simpa using each 0, fun page => ?_⟩
    have later := each (page + 1)
    rw [Nat.mul_succ, Nat.add_comm] at later
    rw [List.drop_drop]
    exact later
  · rintro ⟨first, rest⟩ page
    cases page with
    | zero => simpa using first
    | succ page =>
      have later := rest page
      rw [List.drop_drop] at later
      rw [Nat.mul_succ, Nat.add_comm]
      exact later

/-- A page of a scan -/
theorem page_spec {page : ObservationWindow} (within : upper ≤ history.length)
    (events : page.events = carry json (origin history after + 1) 0
      ((pending history after upper).take observationPageSize)) :
    page.events.map (·.sequence) =
        List.range' (origin history after + 1) (min observationPageSize (upper - origin history after)) ∧
      (bytes json page ≤ observationPageBytes ∧
        ∀ event ∈ page.events, ∀ n, event.notification = some n →
          numbered history event.sequence = some n) ∧
      ((∀ event ∈ page.events, ∀ n, numbered history event.sequence = some n →
        size json n ≤ observationPageBytes → event.notification = some n) ↔
          fitting json ((pending history after upper).take observationPageSize) ≤
            observationPageBytes) := by
  rw [bytes, events]
  refine ⟨?_, ⟨?_, carry_placed pending_placed⟩, ?_⟩
  · rw [carry_sequences, List.length_take, pending_length within]
  · have used := @carry_bytes json ((pending history after upper).take observationPageSize)
      (origin history after + 1) 0 (Nat.zero_le _)
    omega
  · rw [carry_whole_iff pending_placed (Nat.zero_le _), Nat.zero_add]

theorem origin_later (first : history.length - maxNotifications ≤ origin history after)
    (later : Nat) (more : origin history after ≤ later) : origin history later = later := by
  rw [origin]
  omega

theorem scan_spec {pages : List ObservationWindow} (counted : history.length ≤ u64Max)
    (within : upper ≤ history.length) (scan : Scan json (recorded history) upper after pages)
    (order : after ≤ upper) (room : after < u64Max) :
    sequences pages = List.range' (origin history after + 1) (upper - origin history after) ∧
      (∀ page ∈ pages, bytes json page ≤ observationPageBytes ∧
        ∀ event ∈ page.events, ∀ n, event.notification = some n →
          numbered history event.sequence = some n) ∧
      (Carried json history pages ↔ FitTogether json history after upper) := by
  induction scan with
  | @last after page call ended =>
    rw [window_page counted order within room] at call
    have same := Except.ok.inj call
    have through := congrArg ObservationWindow.scannedThrough same
    obtain ⟨shown, kept, carried⟩ := page_spec within (congrArg ObservationWindow.events same).symm
    have few : (pending history after upper).length ≤ observationPageSize := by
      rw [pending_length within]
      dsimp only at through
      omega
    refine ⟨?_, fun page member => List.mem_singleton.1 member ▸ kept, ?_⟩
    · rw [sequences, List.flatMap_singleton, shown, ← pending_length within, Nat.min_eq_right few]
    · rw [Carried, List.forall_mem_singleton, carried, fitTogether_iff]
      refine ⟨fun first => ⟨first, fun page => ?_⟩, And.left⟩
      rw [List.drop_of_length_le few, List.drop_nil, List.take_nil]
      exact Nat.zero_le _
  | @more after page pages call short rest ih =>
    rw [window_page counted order within room] at call
    have same := Except.ok.inj call
    have through := congrArg ObservationWindow.scannedThrough same
    obtain ⟨shown, kept, carried⟩ := page_spec within (congrArg ObservationWindow.events same).symm
    dsimp only at through
    have reached : page.scannedThrough = origin history after + observationPageSize := by omega
    have next : origin history (origin history after + observationPageSize) =
        origin history after + observationPageSize :=
      origin_later (Nat.le_max_right after _) _ (Nat.le_add_right ..)
    have left : pending history (origin history after + observationPageSize) upper =
        (pending history after upper).drop observationPageSize := by
      rw [pending, pending, next, List.drop_drop]
    rw [reached] at ih
    obtain ⟨shown', kept', carried'⟩ := ih (by omega) (by omega)
    refine ⟨?_, List.forall_mem_cons.2 ⟨kept, kept'⟩, ?_⟩
    · rw [next] at shown'
      rw [sequences, List.flatMap_cons, ← sequences, shown, shown',
        Nat.min_eq_left (by omega), Nat.add_right_comm, List.range'_append_1,
        show observationPageSize + (upper - (origin history after + observationPageSize)) =
          upper - origin history after by omega]
    · rw [FitTogether, left] at carried'
      rw [Carried, List.forall_mem_cons, carried, fitTogether_iff]
      exact and_congr_right fun _ => carried'

theorem scan_exists (counted : history.length ≤ u64Max) (within : upper ≤ history.length)
    (order : after ≤ upper) (room : after < u64Max) :
    ∃ pages, Scan json (recorded history) upper after pages := by
  induction left : upper - origin history after using Nat.strongRecOn generalizing after with
  | ind left_ ih =>
    have call := @window_page json upper history after counted order within room
    by_cases ended : min upper (origin history after + observationPageSize) = upper
    · exact ⟨_, .last call ended⟩
    · have some_ : 0 < observationPageSize := by decide
      have next : origin history (min upper (origin history after + observationPageSize)) =
          min upper (origin history after + observationPageSize) :=
        origin_later (Nat.le_max_right after _) _ (by omega)
      obtain ⟨pages, rest⟩ := ih _ (by rw [next]; omega) (Nat.min_le_left ..) (by omega) rfl
      exact ⟨_, .more call ended rest⟩

theorem last_sequence_repeated {page : ObservationWindow} (counted : history.length = u64Max)
    (call : observationWindow json (recorded history) u64Max (some u64Max) = .ok page) :
    u64Max ∈ page.events.map (·.sequence) := by
  have whole := @window_ok json u64Max history u64Max (Nat.le_of_eq counted) (Nat.le_refl _)
    (Nat.le_of_eq counted.symm)
  rw [call] at whole
  have few : 0 < maxNotifications := by decide
  have some_ : 0 < u64Max := by decide
  have start : max (saturatingSucc u64Max u64Max) (history.length - maxNotifications + 1) =
      u64Max := by
    have top : saturatingSucc u64Max u64Max = u64Max := by decide
    rw [top]
    omega
  rw [congrArg ObservationWindow.events (Except.ok.inj whole)]
  dsimp only
  rw [start, carry_sequences, List.mem_range'_1, List.length_take, List.length_drop,
    List.length_take]
  have size_ : 0 < observationPageSize := by decide
  omega

theorem Complete.fits (complete : Complete json history after upper) :
    history.length ≤ u64Max ∧ after ≤ upper ∧ upper ≤ history.length ∧ after < u64Max ∧
      FitTogether json history after upper := by
  obtain ⟨pages, scan, -, all, -, carried⟩ := complete
  obtain ⟨first, rest, head, call⟩ : ∃ page rest, pages = page :: rest ∧
      observationWindow json (recorded history) after (some upper) = .ok page := by
    cases scan with
    | last call ended => exact ⟨_, _, rfl, call⟩
    | more call short rest => exact ⟨_, _, rfl, call⟩
  obtain ⟨counted, order, within⟩ := window_valid call
  have room : after < u64Max := by
    -- at the end of the sequence the saturated sum reads the last notification again
    apply Nat.lt_of_le_of_ne (by omega)
    rintro rfl
    have top : upper = u64Max := by omega
    subst top
    have again := last_sequence_repeated (by omega) call
    have member : u64Max ∈ sequences pages := by
      rw [head, sequences, List.flatMap_cons]
      exact List.mem_append_left _ again
    exact absurd ((all u64Max).1 member).1 (Nat.lt_irrefl _)
  exact ⟨counted, order, within, room, (scan_spec counted within scan order room).2.2.1 carried⟩

theorem FitTogether.complete (counted : history.length ≤ u64Max) (order : after ≤ upper)
    (within : upper ≤ history.length) (room : after < u64Max)
    (fit : FitTogether json history after upper) : Complete json history after upper := by
  obtain ⟨pages, scan⟩ := @scan_exists json upper history after counted within order room
  obtain ⟨shown, kept, carried⟩ := scan_spec counted within scan order room
  have revision := (recorded_counted history).1
  have length : (recorded history).notifications.length =
      history.length - (history.length - maxNotifications) := by
    rw [recorded_notifications, List.length_drop]
  refine ⟨pages, scan, ?_, fun sequence => ?_, kept, carried.2 fit⟩
  · rw [shown]
    exact List.pairwise_lt_range'
  · rw [shown, List.mem_range'_1, Kept, length, revision, origin]
    omega

/-- A scan is complete exactly when no sequence is exhausted, the ends are in order and the
notifications of each page that fit a page by themselves fit it together. -/
theorem scan_complete_iff (json : JsonWriter) (history : List Notification) (after upper : Nat) :
    Complete json history after upper ↔
      history.length ≤ u64Max ∧ after ≤ upper ∧ upper ≤ history.length ∧ after < u64Max ∧
        FitTogether json history after upper :=
  ⟨Complete.fits, fun ⟨counted, order, within, room, fit⟩ => fit.complete counted order within room⟩

end Pages

/-! ## Two events that share a page -/

/-- The writes of a text without escapes, and of an object with one such text -/
def plainWrites : Json → List Nat
  | .text text => [1, text.utf8ByteSize, 1]
  | .object [(name, .text text)] => [1, 1, name.utf8ByteSize, 1, 1, 1, text.utf8ByteSize, 1, 1]
  | _ => [4]

def plainWriter : JsonWriter where
  writes := plainWrites
  nonempty value := by
    unfold plainWrites
    split <;> simp only [List.sum_cons] <;> omega

theorem repeated_size (n : Nat) : (String.ofList (List.replicate n 'x')).utf8ByteSize = n := by
  induction n with
  | zero => rfl
  | succ n ih =>
    rw [List.replicate_succ, String.ofList_cons, String.utf8ByteSize_append, ih,
      String.utf8ByteSize_singleton]
    exact Nat.add_comm ..

def textEvent (length : Nat) : Notification :=
  ⟨"item/completed", .object [("x", .text (String.ofList (List.replicate length 'x')))]⟩

theorem textEvent_size (length : Nat) : size plainWriter (textEvent length) = length + 22 := by
  have sizes : ("item/completed".utf8ByteSize, "x".utf8ByteSize) = (14, 1) := by decide +kernel
  obtain ⟨method, name⟩ := Prod.mk.inj sizes
  simp only [size, textEvent, plainWriter, plainWrites, repeated_size, method, name, List.sum_cons,
    List.sum_nil]
  omega

/-- One and a half megabytes -/
def largeEvent : Notification := textEvent 1572864

/-- The second of two events that fit a page comes without its payload. -/
theorem second_event_not_carried :
    2 ≤ (recorded [largeEvent, largeEvent]).revision ∧
      size plainWriter largeEvent ≤ observationPageBytes ∧
      ¬ Complete plainWriter [largeEvent, largeEvent] 0 2 := by
  have alone : size plainWriter largeEvent ≤ observationPageBytes := by
    rw [largeEvent, textEvent_size]
    decide
  refine ⟨Nat.le_refl _, alone, fun complete => ?_⟩
  have first := (fitTogether_iff.1 complete.fits.2.2.2.2).1
  have both : (pending [largeEvent, largeEvent] 0 2).take observationPageSize =
      [largeEvent, largeEvent] := rfl
  rw [both, fitting, List.map_cons, List.map_cons, List.map_nil, largeEvent,
    textEvent_size] at first
  revert first
  decide


end CodexRemote.Verified.ObservationWindow

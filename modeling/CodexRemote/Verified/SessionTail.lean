import CodexRemote.CodexState.Tail
import CodexRemote.Foundations.Runs

/-! # Tailing a session file

The reader of a growing file returns the events of the whole file, as long as it takes no
unfinished line for a finished one and meets no line it refuses to pass.
-/

namespace CodexRemote.Verified.SessionTail

open Foundations CodexState Discord

variable {ε : Type}

/-! ## Whitespace around a line -/

theorem trim_stripEnd (text : List Char) : trim (stripEnd text) = trim text := by
  have newline_white : ∀ c ∈ ['\n'], isWhitespace c = true :=
    List.forall_mem_singleton.2 rfl
  have return_white : ∀ c ∈ ['\r'], isWhitespace c = true :=
    List.forall_mem_singleton.2 rfl
  rw [stripEnd]
  split
  · next ended =>
    have whole := List.dropLast_append_getLast? _ ended
    split
    · next returned =>
      have inner := List.dropLast_append_getLast? _ returned
      rw [← trim_append_white _ return_white, inner, ← trim_append_white _ newline_white, whole]
    · rw [← trim_append_white _ newline_white, whole]
  · rfl

/-! ## One line -/

variable {raw : List UInt8} {events : List ε} {pieces : List (List UInt8)}

section

variable {parse : List Char → Option (LineValue ε)}

/-- The events of a line, as both readers see it. -/
def objects (parse : List Char → Option (LineValue ε)) (raw : List UInt8) : List ε :=
  match utf8Text raw with
  | none => []
  | some text =>
    if trim text.toList = [] then []
    else ((parse (trim text.toList)).map LineValue.events).getD []

/-- The line is blank or JSON. -/
def passes (parse : List Char → Option (LineValue ε)) (raw : List UInt8) : Bool :=
  match utf8Text raw with
  | none => false
  | some text => trim text.toList = [] || (parse (trim text.toList)).isSome

/-- The events of a file. -/
def scan (parse : List Char → Option (LineValue ε)) (bytes : List UInt8) : List ε :=
  (lines newline bytes).flatMap (objects parse)

/-- Every line is UTF-8. -/
def Valid (bytes : List UInt8) : Prop := ∀ raw ∈ lines newline bytes, (utf8Text raw).isSome

theorem passes_text (passed : passes parse raw = true) :
    ∃ text, utf8Text raw = some text := by
  rw [passes] at passed
  split at passed
  · cases passed
  · next text read => exact ⟨text, read⟩

@[simp] theorem objects_nil : objects parse [] = [] := by
  have read : utf8Text [] = some "" := by rfl
  simp [objects, read, trim, trimStart, trimEnd]

/-- `iter_session_events` yields the events of the lines, or fails on one that is not UTF-8. -/
theorem iterEvents_valid (valid : ∀ raw ∈ pieces, (utf8Text raw).isSome) :
    iterEvents parse events pieces = .ok (events ++ pieces.flatMap (objects parse)) := by
  induction pieces generalizing events with
  | nil => simp [iterEvents]
  | cons raw rest ih =>
    obtain ⟨text, read⟩ := Option.isSome_iff_exists.1 (valid raw (List.mem_cons_self ..))
    have others := fun more => @ih more fun other member => valid other (List.mem_cons_of_mem _ member)
    rw [iterEvents, read]
    simp only [trim_stripEnd, List.flatMap_cons, objects, read]
    split
    · rw [others]
      rfl
    · cases parse (trim text.toList) with
      | none =>
        rw [others]
        rfl
      | some value =>
        simp only [others, List.append_assoc]
        rfl

theorem iterEvents_ok {all : List ε}
    (ran : iterEvents parse events pieces = .ok all) : ∀ raw ∈ pieces, (utf8Text raw).isSome := by
  induction pieces generalizing events with
  | nil => simp
  | cons raw rest ih =>
    rw [iterEvents] at ran
    split at ran
    · cases ran
    · next text read =>
      have here : (utf8Text raw).isSome := by rw [read]; rfl
      have others : ∀ other ∈ rest, (utf8Text other).isSome := by
        simp only at ran
        split at ran
        · exact ih ran
        · split at ran
          · exact ih ran
          · exact ih ran
      simpa [here] using others

/-! ## One call -/

/-- What a call takes: lines that pass, up to its limit. -/
structure Takes (parse : List Char → Option (LineValue ε)) (limit : Nat) (events : List ε)
    (position : Nat) (tail : SessionTail ε) (front back : List (List UInt8)) : Prop where
  made : tail.events = events ++ front.flatMap (objects parse)
  next : tail.nextOffset = position + front.flatten.length
  passed : ∀ raw ∈ front, passes parse raw = true
  room : ∀ before raw, front = before ++ [raw] →
    limit = 0 ∨ (events ++ before.flatMap (objects parse)).length < limit
  stopped : ∀ raw rest, back = raw :: rest → passes parse raw = true →
    0 < limit ∧ limit ≤ tail.events.length ∧ front ≠ []

theorem Takes.cons {limit : Nat} {events more : List ε} {position : Nat} {tail : SessionTail ε}
    {raw : List UInt8} {front back : List (List UInt8)} (passed : passes parse raw = true)
    (made : objects parse raw = more) (room : limit = 0 ∨ events.length < limit)
    (rest : Takes parse limit (events ++ more) (position + raw.length) tail front back) :
    Takes parse limit events position tail (raw :: front) back where
  made := by rw [rest.made, List.flatMap_cons, made, List.append_assoc]
  next := by rw [rest.next, List.flatten_cons, List.length_append, Nat.add_assoc]
  passed := by simpa [passed] using rest.passed
  room before last same := by
    cases before with
    | nil => simpa using room
    | cons first before =>
      obtain ⟨rfl, others⟩ := List.cons.inj same
      have later := rest.room before last others
      rwa [List.append_assoc, ← made, ← List.flatMap_cons] at later
  stopped other others here ok := by
    obtain ⟨positive, reached, _⟩ := rest.stopped other others here ok
    exact ⟨positive, reached, by simp⟩

theorem readEvents_ok {limit : Nat} {position : Nat} {tail : SessionTail ε}
    (ran : readEvents parse limit events position pieces = .ok tail)
    (room : limit = 0 ∨ events.length < limit) :
    ∃ front back, pieces = front ++ back ∧ Takes parse limit events position tail front back := by
  induction pieces generalizing events position with
  | nil =>
    cases ran
    exact ⟨[], [], rfl, by simp, rfl, by simp, by simp, nofun⟩
  | cons raw rest ih =>
    rw [readEvents] at ran
    split at ran
    · cases ran
    · next text read =>
      simp only at ran
      split at ran
      · next blank =>
        have passed : passes parse raw = true := by simp [passes, read, blank]
        have made : objects parse raw = [] := by simp [objects, read, blank]
        obtain ⟨front, back, same, takes⟩ := ih ran room
        exact ⟨raw :: front, back, by rw [same]; rfl,
          .cons passed made room (by rwa [List.append_nil])⟩
      · next visible =>
        cases value : parse (trim text.toList) with
        | none =>
          rw [value] at ran
          cases ran
          refine ⟨[], raw :: rest, rfl, by simp, rfl, by simp, by simp, ?_⟩
          intro other others here passed
          cases here
          simp [passes, read, visible, value] at passed
        | some parsed =>
          rw [value] at ran
          simp only at ran
          have passed : passes parse raw = true := by simp [passes, read, value]
          have made : objects parse raw = parsed.events := by
            simp [objects, read, visible, value]
          split at ran
          · next reached =>
            cases ran
            simp only [Bool.and_eq_true, decide_eq_true_eq] at reached
            refine ⟨[raw], rest, rfl, by simp [made], by simp, by simpa using passed, ?_, ?_⟩
            · intro before last same
              obtain ⟨rfl, _⟩ := List.append_eq_singleton_iff.1 same.symm |>.resolve_right
                (by simp)
              simpa using room
            · exact fun _ _ _ _ => ⟨reached.1, reached.2, by simp⟩
          · next below =>
            obtain ⟨front, back, same, takes⟩ := ih ran (by
              simp only [Bool.and_eq_true, decide_eq_true_eq] at below
              omega)
            exact ⟨raw :: front, back, by rw [same]; rfl, .cons passed made room takes⟩

theorem readEvents_error {limit : Nat} {position : Nat} {error : CodexStateError}
    (ran : readEvents parse limit events position pieces = .error error) :
    ∃ before raw rest, pieces = before ++ raw :: rest ∧ utf8Text raw = none := by
  induction pieces generalizing events position with
  | nil => cases ran
  | cons raw rest ih =>
    rw [readEvents] at ran
    have later : ∀ {more : List ε} {next : Nat}, readEvents parse limit more next rest = .error error →
        ∃ before bad after, raw :: rest = before ++ bad :: after ∧ utf8Text bad = none := by
      intro more next ran
      obtain ⟨before, bad, after, same, unread⟩ := ih ran
      exact ⟨raw :: before, bad, after, by rw [same]; rfl, unread⟩
    split at ran
    · next unread => exact ⟨[], raw, rest, rfl, unread⟩
    · simp only at ran
      split at ran
      · exact later ran
      · split at ran
        · cases ran
        · split at ran
          · cases ran
          · exact later ran

/-! ## Files that grow -/

/-- A call meets no finished line that it refuses, and takes no unfinished one for another line. -/
structure CleanCall (parse : List Char → Option (LineValue ε)) (limit : Nat)
    (unread later : List UInt8) : Prop where
  /-- a finished line at the offset is blank or JSON -/
  first : ∀ raw rest, lines newline unread = raw :: rest → newline ∈ raw → passes parse raw = true
  /-- an unfinished line that the call takes holds, with its rest, the events of the whole line -/
  last : ∀ before raw, lines newline unread = before ++ [raw] → newline ∉ raw →
    (∀ line ∈ before, passes parse line = true) → passes parse raw = true →
    (limit = 0 ∨ (before.flatMap (objects parse)).length < limit) →
    objects parse raw ++ objects parse (restOfLine newline later) =
      objects parse (raw ++ restOfLine newline later)

theorem scan_flatten {front : List (List UInt8)}
    (finished : ∀ line ∈ front, Finished newline line) (rest : List UInt8) :
    scan parse (front.flatten ++ rest) = front.flatMap (objects parse) ++ scan parse rest := by
  rw [scan, lines_flatten finished, List.flatMap_append]
  rfl

theorem scan_open (open_ : newline ∉ raw) (some_ : raw ≠ [])
    (later : List UInt8) : scan parse (raw ++ later) =
      objects parse (raw ++ restOfLine newline later) ++
        (lines newline later).tail.flatMap (objects parse) := by
  rw [scan, lines_open open_ some_]
  rfl

theorem scan_rest (later : List UInt8) : scan parse later =
    objects parse (restOfLine newline later) ++
      (lines newline later).tail.flatMap (objects parse) := by
  rw [scan, restOfLine]
  cases lines newline later with
  | nil => simp
  | cons line rest => rfl

/-- A taken unfinished line keeps the events of the file exactly when it keeps those of its line. -/
theorem scan_taken (open_ : newline ∉ raw) (some_ : raw ≠ [])
    (later : List UInt8) : objects parse raw ++ scan parse later = scan parse (raw ++ later) ↔
      objects parse raw ++ objects parse (restOfLine newline later) =
        objects parse (raw ++ restOfLine newline later) := by
  rw [scan_open open_ some_, scan_rest, ← List.append_assoc, List.append_cancel_right_eq]

theorem valid_flatten {front : List (List UInt8)} (finished : ∀ line ∈ front, Finished newline line)
    (passed : ∀ line ∈ front, passes parse line = true) (rest : List UInt8) :
    Valid (front.flatten ++ rest) ↔ Valid rest := by
  rw [Valid, lines_flatten finished]
  constructor
  · intro valid line member
    exact valid line (List.mem_append_right _ member)
  · intro valid line member
    obtain old | new := List.mem_append.1 member
    · obtain ⟨text, read⟩ := passes_text (passed line old)
      rw [read]
      rfl
    · exact valid line new

theorem valid_open (open_ : newline ∉ raw) (some_ : raw ≠ [])
    (passed : passes parse raw = true) (later : List UInt8) :
    Valid (raw ++ later) ↔ Valid later := by
  obtain ⟨text, read⟩ := passes_text passed
  have joined : (utf8Text (raw ++ restOfLine newline later)).isSome =
      (utf8Text (restOfLine newline later)).isSome := by
    rw [utf8Text_append read, Option.isSome_map]
  have nothing : (utf8Text []).isSome = true := by rfl
  rw [Valid, lines_open open_ some_, Valid]
  simp only [List.forall_mem_cons, joined]
  rw [restOfLine]
  cases lines newline later with
  | nil => simp [nothing]
  | cons line rest => simp

/-- What a returned call leaves unread, and what it has returned. -/
theorem call_ok {limit : Nat} {unread later : List UInt8} {offset : Nat} {tail : SessionTail ε}
    (ran : readEvents parse limit [] offset (lines newline unread) = .ok tail) :
    ∃ taken more, unread = taken ++ more ∧ tail.nextOffset = offset + taken.length ∧
      (Valid (unread ++ later) ↔ Valid (more ++ later)) ∧
      ((tail.events ++ scan parse (more ++ later) = scan parse (unread ++ later) ∧
        (newline ∈ unread → offset < tail.nextOffset)) ↔ CleanCall parse limit unread later) := by
  obtain ⟨front, back, cut, takes⟩ := readEvents_ok ran (by
    rw [List.length_nil]
    omega)
  obtain ⟨more, whole, after, kind⟩ := lines_split cut
  have made : tail.events = front.flatMap (objects parse) := takes.made
  refine ⟨front.flatten, more, whole, takes.next, ?_, ?_⟩
  · rw [whole, List.append_assoc]
    obtain finished | ⟨none_, before, raw, rfl, finished, open_, some_⟩ := kind
    · exact valid_flatten finished takes.passed _
    · have passed := takes.passed raw (by simp)
      rw [none_, List.flatten_append, List.flatten_singleton, List.nil_append, List.append_assoc,
        valid_flatten finished fun line member => takes.passed line (by simp [member]),
        valid_open open_ some_ passed]
  · have moves : (newline ∈ unread → offset < tail.nextOffset) ↔
        ∀ raw rest, lines newline unread = raw :: rest → newline ∈ raw → passes parse raw = true := by
      constructor
      · intro moved raw rest first ended
        have there : newline ∈ unread := by
          obtain ⟨_, same, _⟩ := lines_cons first
          rw [same]
          exact List.mem_append_left _ ended
        have further := moved there
        cases front with
        | nil =>
          rw [takes.next, List.flatten_nil, List.length_nil] at further
          omega
        | cons line front =>
          rw [cut] at first
          cases first
          exact takes.passed _ (List.mem_cons_self ..)
      · intro first ended
        cases shape : lines newline unread with
        | nil =>
          rw [lines_eq_nil shape] at ended
          cases ended
        | cons raw rest =>
          obtain ⟨others, same, _, finished | ⟨free, _, none_⟩⟩ := lines_cons shape
          · have passed := first raw rest shape finished.mem
            have some_ : front ≠ [] := by
              cases front with
              | nil =>
                rw [shape] at cut
                exact (takes.stopped raw rest cut.symm passed).2.2
              | cons line front => simp
            obtain ⟨line, front, rfl⟩ := List.exists_cons_of_ne_nil some_
            rw [shape] at cut
            cases cut
            have long := List.length_pos_of_mem finished.mem
            rw [takes.next, List.flatten_cons, List.length_append]
            omega
          · rw [same, none_, List.append_nil] at ended
            exact absurd ended free
    have kept : tail.events ++ scan parse (more ++ later) = scan parse (unread ++ later) ↔
        ∀ before raw, lines newline unread = before ++ [raw] → newline ∉ raw →
          (∀ line ∈ before, passes parse line = true) → passes parse raw = true →
          (limit = 0 ∨ (before.flatMap (objects parse)).length < limit) →
          objects parse raw ++ objects parse (restOfLine newline later) =
            objects parse (raw ++ restOfLine newline later) := by
      obtain finished | ⟨none_, before, raw, rfl, finished, open_, some_⟩ := kind
      · -- only finished lines were taken, and no unfinished one is left to take
        have same : tail.events ++ scan parse (more ++ later) = scan parse (unread ++ later) := by
          rw [made, whole, List.append_assoc, scan_flatten finished]
        refine iff_of_true same ?_
        intro before raw last open_ passed own room
        rw [cut] at last
        cases back with
        | nil =>
          rw [List.append_nil] at last
          exact absurd (finished raw (by rw [last]; simp)).mem open_
        | cons line rest =>
          have all : ∀ other ∈ before ++ [raw], passes parse other = true := by
            simpa [or_imp, forall_and, own] using passed
          have stop := takes.stopped line rest rfl (all line (by rw [← last]; simp))
          have shorter : front ++ (line :: rest).dropLast = before := by
            have cutEnd := congrArg List.dropLast last
            rwa [List.dropLast_append_of_ne_nil (by simp), List.dropLast_concat] at cutEnd
          rw [← shorter, List.flatMap_append, List.length_append] at room
          rw [made] at stop
          omega
      · have nothing : back = [] := by
          rw [none_, lines_nil] at after
          exact after.symm
        rw [nothing, List.append_nil] at cut
        have reduced : tail.events ++ scan parse (more ++ later) = scan parse (unread ++ later) ↔
            objects parse raw ++ scan parse later = scan parse (raw ++ later) := by
          rw [made, whole, none_, List.flatten_append, List.flatten_singleton, List.append_nil,
            List.nil_append, List.append_assoc, scan_flatten finished, List.flatMap_append,
            List.flatMap_singleton, List.append_assoc, List.append_cancel_left_eq]
        rw [reduced, scan_taken open_ some_]
        constructor
        · intro same other line shape _ _ _ _
          rw [cut] at shape
          obtain ⟨_, last⟩ := List.append_inj' shape rfl
          cases last
          exact same
        · intro each
          exact each before raw cut open_ (fun line member => takes.passed line (by simp [member]))
            (takes.passed raw (by simp)) (takes.room before raw rfl)
    constructor
    · rintro ⟨same, moved⟩
      exact ⟨moves.1 moved, kept.1 same⟩
    · intro clean
      exact ⟨kept.2 clean.last, moves.2 clean.first⟩

end

/-! ## Runs -/

structure TailState (ε : Type) where
  file : Option (List UInt8)
  offset : Nat
  events : List ε

namespace TailState

def start : TailState ε := ⟨none, 0, []⟩

def bytes (s : TailState ε) : List UInt8 := s.file.getD []

def unread (s : TailState ε) : List UInt8 := s.bytes.drop s.offset

end TailState

inductive TailEvent where
  | grew
  | returned
  | failed

/-- The file grows by some bytes, or the reader is called at the offset it was last given. -/
inductive TailStep (parse : List Char → Option (LineValue ε)) (maxEvents : Option Nat) :
    TailState ε → TailEvent → TailState ε → Prop where
  | grew {s} (bytes : List UInt8) :
      TailStep parse maxEvents s .grew { s with file := some (s.bytes ++ bytes) }
  | returned {s tail} (ran : readNewSessionEvents parse s.file s.offset maxEvents = .ok tail) :
      TailStep parse maxEvents s .returned ⟨s.file, tail.nextOffset, s.events ++ tail.events⟩
  | failed {s error} (ran : readNewSessionEvents parse s.file s.offset maxEvents = .error error) :
      TailStep parse maxEvents s .failed s

/-- The condition on a call, where the file grows to the given content -/
def TailEvent.clean (parse : List Char → Option (LineValue ε)) (maxEvents : Option Nat)
    (content : List UInt8) (s : TailState ε) : TailEvent → Prop
  | .returned =>
    CleanCall parse (maxEvents.getD 0) s.unread (content.drop s.bytes.length)
  | _ => True

/-- What is returned and what is left make up the same events, and a call over a finished line
moves. -/
def TailEvent.whole (parse : List Char → Option (LineValue ε)) (content : List UInt8)
    (s next : TailState ε) : TailEvent → Prop
  | .returned =>
    next.events ++ scan parse (content.drop next.offset) =
        s.events ++ scan parse (content.drop s.offset) ∧
      (newline ∈ s.unread → s.offset < next.offset)
  | _ => True

section

variable {parse : List Char → Option (LineValue ε)} {maxEvents : Option Nat}
  {content : List UInt8} {s next : TailState ε} {event : TailEvent} {trail : List TailEvent}

abbrev CleanRun (parse : List Char → Option (LineValue ε)) (maxEvents : Option Nat)
    (content : List UInt8) (s : TailState ε) (trail : List TailEvent) (next : TailState ε) : Prop :=
  Run (fun s e t => TailStep parse maxEvents s e t ∧ e.clean parse maxEvents content s) s trail next

abbrev WholeRun (parse : List Char → Option (LineValue ε)) (maxEvents : Option Nat)
    (content : List UInt8) (s : TailState ε) (trail : List TailEvent) (next : TailState ε) : Prop :=
  Run (fun s e t => TailStep parse maxEvents s e t ∧ e.whole parse content s t) s trail next

/-- The offset is inside the file, and the file is on its way to the content. -/
structure Inside (content : List UInt8) (s : TailState ε) : Prop where
  offset : s.offset ≤ s.bytes.length
  part : s.bytes <+: content

/-- What a call on a file leaves unread. -/
theorem returned_ok {tail : SessionTail ε} (inside : Inside content s)
    (ran : readNewSessionEvents parse s.file s.offset maxEvents = .ok tail) :
    tail.nextOffset ≤ s.bytes.length ∧
      (Valid (content.drop s.offset) ↔ Valid (content.drop tail.nextOffset)) ∧
      ((tail.events ++ scan parse (content.drop tail.nextOffset) =
          scan parse (content.drop s.offset) ∧ (newline ∈ s.unread → s.offset < tail.nextOffset)) ↔
        CleanCall parse (maxEvents.getD 0) s.unread (content.drop s.bytes.length)) := by
  obtain ⟨later, rfl⟩ := inside.part
  have here : (s.bytes ++ later).drop s.offset = s.unread ++ later :=
    List.drop_append_of_le_length inside.offset
  rw [here, List.drop_left]
  have loop : readEvents parse (maxEvents.getD 0) [] s.offset (lines newline s.unread) =
      .ok tail := by
    cases shape : s.file with
    | none =>
      rw [shape] at ran
      cases ran
      simp [TailState.unread, TailState.bytes, shape, readEvents]
    | some bytes =>
      rw [shape] at ran
      rw [← ran]
      simp only [TailState.unread, TailState.bytes, shape, Option.getD_some, readNewSessionEvents]
  obtain ⟨taken, more, cut, next, valid, clean⟩ := @call_ok _ _ _ _ later _ _ loop
  have total := congrArg List.length cut
  rw [TailState.unread, List.length_drop, List.length_append] at total
  have within : tail.nextOffset ≤ s.bytes.length := by
    have inside := inside.offset
    omega
  have there : (s.bytes ++ later).drop tail.nextOffset = more ++ later := by
    rw [List.drop_append_of_le_length within, next, ← List.drop_drop]
    show (s.unread.drop taken.length) ++ later = _
    rw [cut, List.drop_left]
  rw [there]
  exact ⟨within, valid, clean⟩

/-- A call fails only on a character that is not all there. -/
theorem failed_open {error : CodexStateError} (inside : Inside content s)
    (valid : Valid (content.drop s.offset))
    (ran : readNewSessionEvents parse s.file s.offset maxEvents = .error error) :
    ∃ before raw, lines newline s.unread = before ++ [raw] ∧ newline ∉ raw ∧
      utf8Text raw = none := by
  obtain ⟨later, rfl⟩ := inside.part
  rw [show (s.bytes ++ later).drop s.offset = s.unread ++ later from
    List.drop_append_of_le_length inside.offset] at valid
  cases shape : s.file with
  | none =>
    rw [shape] at ran
    cases ran
  | some bytes =>
    rw [shape] at ran
    obtain ⟨before, raw, rest, cut, unread⟩ := readEvents_error ran
    have here : s.unread = bytes.drop s.offset := by rw [TailState.unread, TailState.bytes, shape]; rfl
    rw [← here] at cut
    have split : lines newline s.unread = (before ++ [raw]) ++ rest := by simpa using cut
    obtain ⟨more, whole, after, finished | ⟨none_, others, last, same, _, open_, _⟩⟩ :=
      lines_split split
    · -- a finished line of the file is text
      have member : raw ∈ lines newline (s.unread ++ later) := by
        rw [whole, List.append_assoc, lines_flatten finished]
        simp
      have text := valid raw member
      rw [unread] at text
      cases text
    · obtain ⟨_, ends⟩ := List.append_inj' same rfl
      cases ends
      rw [none_, lines_nil] at after
      exact ⟨before, raw, by rw [split, ← after, List.append_nil], open_, unread⟩

theorem step_part (step : TailStep parse maxEvents s event next) : s.bytes <+: next.bytes := by
  cases step with
  | grew bytes => exact List.prefix_append _ _
  | returned ran => exact List.prefix_rfl
  | failed ran => exact List.prefix_rfl

theorem run_part {P : TailState ε → TailEvent → TailState ε → Prop}
    (run : Run (fun s e t => TailStep parse maxEvents s e t ∧ P s e t) s trail next) :
    s.bytes <+: next.bytes := by
  induction run with
  | nil => exact List.prefix_rfl
  | cons first _ ih => exact (step_part first.1).trans ih

theorem step_offset (step : TailStep parse maxEvents s event next)
    (offset : s.offset ≤ s.bytes.length) : next.offset ≤ next.bytes.length := by
  cases step with
  | grew bytes =>
    show s.offset ≤ (s.bytes ++ bytes).length
    rw [List.length_append]
    omega
  | returned ran =>
    have inside : Inside s.bytes s := ⟨offset, List.prefix_rfl⟩
    exact (returned_ok inside ran).1
  | failed ran => exact offset

theorem step_iff (inside : Inside content s) (step : TailStep parse maxEvents s event next) :
    event.whole parse content s next ↔ event.clean parse maxEvents content s := by
  cases step with
  | grew bytes => exact Iff.rfl
  | returned ran =>
    obtain ⟨_, _, clean⟩ := returned_ok inside ran
    show _ ∧ _ ↔ _
    rw [List.append_assoc, List.append_cancel_left_eq]
    exact clean
  | failed ran => exact Iff.rfl

theorem wholeRun_iff (offset : s.offset ≤ s.bytes.length) (part : next.bytes <+: content) :
    WholeRun parse maxEvents content s trail next ↔
      CleanRun parse maxEvents content s trail next := by
  constructor
  · intro run
    induction run with
    | nil => exact .nil _
    | cons first rest ih =>
      have inside : Inside content _ := ⟨offset, (step_part first.1).trans ((run_part rest).trans part)⟩
      exact .cons ⟨first.1, (step_iff inside first.1).1 first.2⟩
        (ih (step_offset first.1 offset) part)
  · intro run
    induction run with
    | nil => exact .nil _
    | cons first rest ih =>
      have inside : Inside content _ := ⟨offset, (step_part first.1).trans ((run_part rest).trans part)⟩
      exact .cons ⟨first.1, (step_iff inside first.1).2 first.2⟩
        (ih (step_offset first.1 offset) part)

theorem step_kept (inside : Inside content s) (step : TailStep parse maxEvents s event next)
    (whole : event.whole parse content s next) :
    next.events ++ scan parse (content.drop next.offset) =
        s.events ++ scan parse (content.drop s.offset) ∧
      (Valid (content.drop s.offset) ↔ Valid (content.drop next.offset)) := by
  cases step with
  | grew bytes => exact ⟨rfl, Iff.rfl⟩
  | returned ran => exact ⟨whole.1, (returned_ok inside ran).2.1⟩
  | failed ran => exact ⟨rfl, Iff.rfl⟩

theorem wholeRun_kept (offset : s.offset ≤ s.bytes.length) (part : next.bytes <+: content)
    (run : WholeRun parse maxEvents content s trail next) :
    next.offset ≤ next.bytes.length ∧
      next.events ++ scan parse (content.drop next.offset) =
        s.events ++ scan parse (content.drop s.offset) ∧
      (Valid (content.drop s.offset) ↔ Valid (content.drop next.offset)) := by
  induction run with
  | nil => exact ⟨offset, rfl, Iff.rfl⟩
  | cons first rest ih =>
    obtain ⟨inner, same, valid⟩ := ih (step_offset first.1 offset) part
    have inside : Inside content _ := ⟨offset, (step_part first.1).trans ((run_part rest).trans part)⟩
    obtain ⟨kept, still⟩ := step_kept inside first.1 first.2
    exact ⟨inner, same.trans kept, still.trans valid⟩

/-- A file that ends with a newline has none after its last finished line. -/
theorem drop_nil {offset : Nat} (ended : content = [] ∨ content.getLast? = some newline)
    (none_ : newline ∉ content.drop offset) : content.drop offset = [] := by
  obtain empty | last := ended
  · rw [empty, List.drop_nil]
  · by_contra some_
    refine none_ (List.mem_of_getLast? ?_)
    rw [List.getLast?_drop, if_neg, last]
    intro short
    exact some_ (List.drop_eq_nil_of_le short)

/-- In a run whose calls are all clean, what was returned and what is left are the events of the
content; a call fails only on a character that is not all there; and once the file has the content
and a call no longer moves, the events returned are those of reading the file whole. -/
theorem session_tail_reads_whole (part : next.bytes <+: content) :
    (WholeRun parse maxEvents content .start trail next ↔
      CleanRun parse maxEvents content .start trail next) ∧
    (CleanRun parse maxEvents content .start trail next →
      next.events ++ scan parse (content.drop next.offset) = scan parse content ∧
      (∀ error, readNewSessionEvents parse next.file next.offset maxEvents = .error error →
        ∀ all, iterSessionEvents parse (some content) = .ok all →
          ∃ before raw, lines newline next.unread = before ++ [raw] ∧ newline ∉ raw ∧
            utf8Text raw = none) ∧
      ∀ tail, readNewSessionEvents parse next.file next.offset maxEvents = .ok tail →
        TailEvent.returned.clean parse maxEvents content next →
        next.file = some content → (content = [] ∨ content.getLast? = some newline) →
        tail.nextOffset = next.offset →
        iterSessionEvents parse (some content) = .ok (next.events ++ tail.events)) := by
  have start : (TailState.start : TailState ε).offset ≤ (TailState.start : TailState ε).bytes.length :=
    Nat.zero_le 0
  refine ⟨wholeRun_iff start part, ?_⟩
  intro run
  obtain ⟨offset, kept, valid⟩ := wholeRun_kept start part ((wholeRun_iff start part).2 run)
  have inside : Inside content next := ⟨offset, part⟩
  refine ⟨kept, ?_, ?_⟩
  · intro error failed all whole
    refine failed_open inside (valid.1 ?_) failed
    exact iterEvents_ok whole
  · intro tail ran clean same ended still
    obtain ⟨_, _, called⟩ := returned_ok inside ran
    obtain ⟨events, moves⟩ := called.2 clean
    have bytes : next.bytes = content := by rw [TailState.bytes, same]; rfl
    have none_ : newline ∉ next.unread := by
      intro more
      have moved := moves more
      omega
    rw [TailState.unread, bytes] at none_
    have nothing := drop_nil ended none_
    rw [still, nothing, show scan parse [] = [] from rfl, List.append_nil] at events
    have all : Valid content := by
      refine valid.2 ?_
      rw [nothing]
      nofun
    have total : next.events ++ tail.events = scan parse content := by
      rw [events, List.append_nil]
      rw [nothing, show scan parse [] = [] from rfl, List.append_nil] at kept
      exact kept
    rw [total]
    exact iterEvents_valid all

end

/-! ## A line that is not JSON, and an object in two parts -/

/-- Reads texts in braces, and nothing else. -/
def bracesOnly (line : List Char) : Option (LineValue String) :=
  if line.head? = some '{' && line.getLast? = some '}' then some (.object (String.ofList line))
  else none

/-- The lines `x` and an empty object -/
def stuckFile : List UInt8 := [120, 10, 123, 125, 10]

/-- An empty object -/
def objectFile : List UInt8 := [123, 125, 10]

/-- The reader never gets past the first line, which reading the file whole skips. -/
theorem malformed_line_stops_tail :
    Run (TailStep bracesOnly (some 1)) .start [.grew, .returned, .returned]
      ⟨some stuckFile, 0, []⟩ ∧
    stuckFile.getLast? = some newline ∧ newline ∈ stuckFile.drop 0 ∧
    readNewSessionEvents bracesOnly (some stuckFile) 0 (some 1) = .ok ⟨[], 0⟩ ∧
    iterSessionEvents bracesOnly (some stuckFile) = .ok ["\x7b\x7d"] := by
  have stays : readNewSessionEvents bracesOnly (some stuckFile) 0 (some 1) = .ok ⟨[], 0⟩ := by
    decide +kernel
  have called : TailStep bracesOnly (some 1) ⟨some stuckFile, 0, []⟩ .returned
      ⟨some stuckFile, 0, []⟩ :=
    @TailStep.returned _ _ _ ⟨some stuckFile, 0, []⟩ ⟨[], 0⟩ stays
  refine ⟨.cons (.grew stuckFile) (.cons called (.single called)), ?_, ?_, stays, ?_⟩ <;>
    decide +kernel

/-- The call between the two parts takes nothing, the one after them the object. -/
theorem parted_object_read_whole :
    iterSessionEvents bracesOnly (some objectFile) = .ok ["\x7b\x7d"] := by
  have run : WholeRun bracesOnly (some 1) objectFile .start [.grew, .returned, .grew, .returned]
      ⟨some objectFile, 3, ["\x7b\x7d"]⟩ := by
    have first : readNewSessionEvents bracesOnly (some [123]) 0 (some 1) = .ok ⟨[], 0⟩ := by
      decide +kernel
    have second : readNewSessionEvents bracesOnly (some objectFile) 0 (some 1) =
        .ok ⟨["\x7b\x7d"], 3⟩ := by decide +kernel
    have scanned : scan bracesOnly objectFile = ["\x7b\x7d"] := by decide +kernel
    have between : TailStep bracesOnly (some 1) ⟨some [123], 0, []⟩ .returned ⟨some [123], 0, []⟩ :=
      @TailStep.returned _ _ _ ⟨some [123], 0, []⟩ ⟨[], 0⟩ first
    have last : TailStep bracesOnly (some 1) ⟨some objectFile, 0, []⟩ .returned
        ⟨some objectFile, 3, ["\x7b\x7d"]⟩ :=
      @TailStep.returned _ _ _ ⟨some objectFile, 0, []⟩ _ second
    exact .cons ⟨.grew [123], trivial⟩ (.cons ⟨between, rfl, by decide⟩
      (.cons ⟨.grew [125, 10], trivial⟩ (.single ⟨last, scanned.symm, by decide⟩)))
  have part : (⟨some objectFile, 3, ["\x7b\x7d"]⟩ : TailState String).bytes <+: objectFile :=
    List.prefix_rfl
  have clean := (session_tail_reads_whole part).1.1 run
  have still : readNewSessionEvents bracesOnly (some objectFile) 3 (some 1) = .ok ⟨[], 3⟩ := by
    decide +kernel
  refine ((session_tail_reads_whole part).2 clean).2.2 _ still ?_ rfl (.inr rfl) rfl
  exact ⟨nofun, by simp [TailState.unread, TailState.bytes, objectFile]⟩

end CodexRemote.Verified.SessionTail

import CodexRemote.Foundations.Transactions
import CodexRemote.Runtime.DrainMarker

/-! # What the drain markers say

The reader knows the fields of a marker by name.  It accepts exactly the short texts of
distinct `name=value` lines, and what `publish_ack` wrote is one of them as long as it
is short.
-/

namespace CodexRemote.Verified.DrainMarker

open Foundations CodexRemote.Runtime

/-- A name and a value that one line can hold. -/
structure FieldLine (name value : String) : Prop where
  named : name ≠ ""
  valued : value ≠ ""
  single : '=' ∉ name.toList
  nameLine : '\n' ∉ name.toList
  valueLine : '\n' ∉ value.toList

def lineOf (name value : String) : List Char := name.toList ++ '=' :: value.toList

/-- The texts that hold these fields: each line ends with a newline, or with a return and a
newline, and the last may have no ending. -/
inductive Written : MarkerFields → List Char → Prop where
  | done : Written [] []
  | last {name value : String} (line : FieldLine name value) :
      Written [(name, value)] (lineOf name value)
  | ended {name value : String} {fields : MarkerFields} {text : List Char}
      (line : FieldLine name value) (plain : value.toList.getLast? ≠ some '\r')
      (rest : Written fields text) :
      Written ((name, value) :: fields) (lineOf name value ++ '\n' :: text)
  | returned {name value : String} {fields : MarkerFields} {text : List Char}
      (line : FieldLine name value) (rest : Written fields text) :
      Written ((name, value) :: fields) (lineOf name value ++ '\r' :: '\n' :: text)

/-! ## Lines -/

/-- A line body without a return at its end. -/
def withoutReturn (body : List Char) : List Char :=
  if body.getLast? = some '\r' then body.dropLast else body

theorem lineText_ended (body : List Char) : lineText (body ++ ['\n']) = withoutReturn body := by
  rw [lineText, if_pos (by simp), List.dropLast_concat]
  rfl

theorem lineText_open {body : List Char} (free : '\n' ∉ body) : lineText body = body := by
  refine if_neg fun last => free ?_
  exact List.mem_of_getLast? last

theorem textLines_ended {body : List Char} (free : '\n' ∉ body) (text : List Char) :
    textLines (body ++ '\n' :: text) = withoutReturn body :: textLines text := by
  rw [textLines, lines_ended free, List.map_cons, lineText_ended]
  rfl

theorem textLines_open {body : List Char} (free : '\n' ∉ body) (some_ : body ≠ []) :
    textLines body = [body] := by
  have cut := lines_open free some_ []
  rw [List.append_nil] at cut
  rw [textLines, cut]
  simp [restOfLine, lineText_open free]

/-! ## One line -/

variable {name value text : String} {fields : MarkerFields} {path : MarkerName} {dir : MarkerDir}

theorem splitOnce_ok {line : List Char} :
    splitOnce line = some (name, value) ↔ line = lineOf name value ∧ '=' ∉ name.toList := by
  rw [splitOnce]
  have whole := List.takeWhile_append_dropWhile (p := (· != '=')) (l := line)
  have front : '=' ∉ line.takeWhile (· != '=') := fun member => by
    simpa using List.all_eq_true.1 List.all_takeWhile '=' member
  constructor
  · intro split
    cases rest : line.dropWhile (· != '=') with
    | nil => rw [rest] at split; cases split
    | cons c after =>
      have equals : c = '=' := by
        have head := List.head?_dropWhile_not (· != '=') line
        rw [rest] at head
        simpa using head
      rw [rest] at split
      cases split
      rw [rest, equals] at whole
      exact ⟨by rw [lineOf, String.toList_ofList, String.toList_ofList]; exact whole.symm,
        by rw [String.toList_ofList]; exact front⟩
  · rintro ⟨rfl, free⟩
    have kept : ∀ c ∈ name.toList, (c != '=') = true := by
      intro c member
      rw [bne_iff_ne]
      rintro rfl
      exact free member
    rw [lineOf, List.dropWhile_append_of_pos kept, List.takeWhile_append_of_pos kept]
    simp

theorem readLine_ok {next : MarkerFields} {line : List Char} :
    readLine path fields line = .ok next ↔ ∃ name value, line = lineOf name value ∧
      '=' ∉ name.toList ∧ name ≠ "" ∧ value ≠ "" ∧ name ∉ fields.map Prod.fst ∧
      next = fields ++ [(name, value)] := by
  rw [readLine]
  cases split : splitOnce line with
  | none =>
    constructor
    · intro read; cases read
    · rintro ⟨name, value, same, free, _⟩
      rw [splitOnce_ok.2 ⟨same, free⟩] at split
      cases split
  | some pair =>
    obtain ⟨name, value⟩ := pair
    obtain ⟨same, free⟩ := splitOnce_ok.1 split
    simp only [ite_ok]
    constructor
    · rintro (⟨_, failed⟩ | ⟨fresh, kept⟩)
      · cases failed
      · cases kept
        simp only [not_or] at fresh
        exact ⟨name, value, same, free, fresh.1, fresh.2.1, fresh.2.2, rfl⟩
    · rintro ⟨name', value', same', free', named, valued, fresh, rfl⟩
      have pairs := splitOnce_ok.2 ⟨same', free'⟩
      rw [split] at pairs
      cases pairs
      exact .inr ⟨by simp only [not_or]; exact ⟨named, valued, fresh⟩, rfl⟩

/-- The parts of a line have no newline if it has none. -/
theorem fieldLine_of (single : '=' ∉ name.toList) (named : name ≠ "")
    (valued : value ≠ "") (free : '\n' ∉ lineOf name value) : FieldLine name value := by
  rw [lineOf, List.mem_append, List.mem_cons, not_or, not_or] at free
  exact ⟨named, valued, single, free.1, free.2.2⟩

theorem FieldLine.free (line : FieldLine name value) :
    '\n' ∉ lineOf name value := by
  rw [lineOf, List.mem_append, List.mem_cons, not_or, not_or]
  exact ⟨line.nameLine, by decide, line.valueLine⟩

/-- The last character of a line is the last of its value. -/
theorem lineOf_last (valued : value ≠ "") :
    (lineOf name value).getLast? = value.toList.getLast? := by
  have some_ : value.toList ≠ [] := fun none_ => valued (String.toList_eq_nil_iff.1 none_)
  rw [lineOf, List.getLast?_append_of_ne_nil _ (by simp), List.getLast?_cons_of_ne_nil some_]

theorem FieldLine.read (line : FieldLine name value) (fresh : name ∉ fields.map Prod.fst) :
    readLine path fields (lineOf name value) = .ok (fields ++ [(name, value)]) :=
  readLine_ok.2 ⟨name, value, rfl, line.single, line.named, line.valued, fresh, rfl⟩

/-! ## The whole text -/

theorem names_fresh {before : MarkerFields}
    (distinct : ((before ++ (name, value) :: fields).map Prod.fst).Nodup) :
    name ∉ before.map Prod.fst ∧
      ((before ++ [(name, value)] ++ fields).map Prod.fst).Nodup := by
  rw [List.append_assoc]
  refine ⟨fun member => ?_, distinct⟩
  rw [List.map_append, List.map_cons, List.nodup_append] at distinct
  exact distinct.2.2 name member name (List.mem_cons_self ..) rfl

theorem Written.read {text : List Char} (written : Written fields text)
    (path : MarkerName) (before : MarkerFields)
    (distinct : ((before ++ fields).map Prod.fst).Nodup) :
    (textLines text).foldlM (readLine path) before = .ok (before ++ fields) := by
  induction written generalizing before with
  | done => rw [List.append_nil]; rfl
  | last line =>
    obtain ⟨fresh, _⟩ := names_fresh distinct
    rw [textLines_open line.free (by simp [lineOf]), List.foldlM_cons, line.read fresh]
    rfl
  | @ended name value _ _ line plain _ ih =>
    obtain ⟨fresh, later⟩ := names_fresh distinct
    have body : withoutReturn (lineOf name value) = lineOf name value :=
      if_neg (by rw [lineOf_last line.valued]; exact plain)
    have rest := ih _ later
    rw [List.append_assoc] at rest
    rw [textLines_ended line.free, List.foldlM_cons, body, line.read fresh]
    exact rest
  | @returned name value _ _ line _ ih =>
    obtain ⟨fresh, later⟩ := names_fresh distinct
    have free : '\n' ∉ lineOf name value ++ ['\r'] := by
      simpa using line.free
    have body : withoutReturn (lineOf name value ++ ['\r']) = lineOf name value := by
      rw [withoutReturn, if_pos (by simp), List.dropLast_concat]
    have rest := ih _ later
    rw [List.append_assoc] at rest
    rw [List.append_cons, textLines_ended free, List.foldlM_cons, body, line.read fresh]
    exact rest

theorem read_written {text : List Char} {path : MarkerName} {before all : MarkerFields}
    (distinct : (before.map Prod.fst).Nodup)
    (read : (textLines text).foldlM (readLine path) before = .ok all) :
    ∃ fields, Written fields text ∧ all = before ++ fields ∧ (all.map Prod.fst).Nodup := by
  -- along the lines of the text, each of which adds one field
  rw [textLines] at read
  generalize cut : lines '\n' text = cuts at read
  induction cuts generalizing text before with
  | nil =>
    cases read
    rw [lines_eq_nil cut]
    exact ⟨[], .done, (List.append_nil _).symm, distinct⟩
  | cons line cuts ih =>
    obtain ⟨more, rfl, tail, kind⟩ := lines_cons cut
    rw [List.map_cons, List.foldlM_cons] at read
    obtain ⟨next, first, rest⟩ := bind_ok.1 read
    obtain ⟨name, value, same, single, named, valued, fresh, rfl⟩ := readLine_ok.1 first
    have unique : ((before ++ [(name, value)]).map Prod.fst).Nodup := by
      rw [List.map_append, List.map_singleton]
      refine List.nodup_append.2 ⟨distinct, by simp, fun other member last new same => ?_⟩
      rw [same, List.mem_singleton.1 new] at member
      exact fresh member
    obtain ⟨fields, written, whole, nodup⟩ := ih unique tail rest
    refine ⟨(name, value) :: fields, ?_, by rw [whole]; simp, nodup⟩
    obtain ⟨front, rfl, free⟩ | ⟨free, _, rfl⟩ := kind
    · rw [lineText_ended, withoutReturn] at same
      rw [List.append_assoc, List.singleton_append]
      split at same
      · next returns =>
        obtain ⟨body, rfl⟩ := List.getLast?_eq_some_iff.1 returns
        rw [List.dropLast_concat] at same
        subst same
        rw [List.append_assoc, List.singleton_append]
        exact .returned (fieldLine_of single named valued fun member =>
          free (List.mem_append_left _ member)) written
      · next plain =>
        subst same
        rw [lineOf_last valued] at plain
        exact .ended (fieldLine_of single named valued free) plain written
    · -- nothing follows a line without an ending
      rw [lines_nil] at tail
      subst tail
      cases rest
      rw [lineText_open free] at same
      subst same
      have ends : fields = [] := by simpa using whole
      rw [ends, List.append_nil]
      exact .last (fieldLine_of single named valued free)

/-- The texts that `read_fields` accepts. -/
theorem readFields_ok :
    readFields dir path = .ok (some fields) ↔ ∃ content, dir path = .text content ∧
      content.utf8ByteSize ≤ 4096 ∧ Written fields content.toList ∧
      (fields.map Prod.fst).Nodup := by
  rw [readFields]
  cases file : dir path with
  | absent => simp
  | unreadable => simp
  | text content =>
    simp only [MarkerFile.text.injEq, exists_eq_left', ite_ok, bind_ok]
    constructor
    · rintro (⟨_, failed⟩ | ⟨small, read, folded, kept⟩)
      · cases failed
      · cases kept
        obtain ⟨fields, written, whole, distinct⟩ := @read_written _ _ [] _ List.nodup_nil folded
        rw [List.nil_append] at whole
        subst whole
        exact ⟨Nat.not_lt.1 small, written, distinct⟩
    · rintro ⟨small, written, distinct⟩
      exact .inr ⟨Nat.not_lt.2 small, fields, written.read path [] distinct, rfl⟩

theorem readFields_none :
    readFields dir path = .ok none ↔ dir path = .absent := by
  rw [readFields]
  cases file : dir path with
  | absent => simp
  | unreadable => simp
  | text content => simp [ite_ok, bind_ok, pure, Except.pure]

/-! ## The fence -/

theorem lookup_iff (distinct : (fields.map Prod.fst).Nodup)
    : fields.lookup name = some value ↔ (name, value) ∈ fields := by
  induction fields with
  | nil => simp
  | cons pair fields ih =>
    obtain ⟨name', value'⟩ := pair
    rw [List.map_cons, List.nodup_cons] at distinct
    rw [List.lookup_cons, List.mem_cons]
    by_cases same : name = name'
    · subst same
      have fresh : (name, value) ∉ fields := fun member =>
        distinct.1 (List.mem_map.2 ⟨_, member, rfl⟩)
      simp [fresh, eq_comm]
    · have apart : (name == name') = false := by simpa using same
      simp [same, apart, ih distinct.2]

theorem field_ok :
    field path fields name = .ok value ↔ fields.lookup name = some value := by
  rw [field]
  cases fields.lookup name <;> simp

theorem requireField_ok {expected : String} {answer : Unit} :
    requireField path fields name expected = .ok answer ↔ fields.lookup name = some expected := by
  rw [requireField, bind_ok]
  constructor
  · rintro ⟨value, found, same⟩
    obtain ⟨equal, _⟩ := guard_ok.1 same
    rw [ne_eq, not_not] at equal
    rw [← equal]
    exact field_ok.1 found
  · intro found
    exact ⟨expected, field_ok.2 found, ite_ok.2 (.inr ⟨by simp, rfl⟩)⟩

theorem newKey_ok {runtimeId processIdentity nonce : String} {key : DrainFenceKey} :
    newKey runtimeId processIdentity nonce = .ok key ↔ runtimeId = key.runtimeId ∧
      processIdentity = key.processIdentity ∧ nonce = key.nonce := by
  rw [newKey, DrainFenceKey.new]
  split
  · next made =>
    split at made
    · next valid =>
      cases made
      constructor
      · intro same
        cases same
        exact ⟨rfl, rfl, rfl⟩
      · rintro ⟨rfl, rfl, rfl⟩
        rfl
    · cases made
  · next failed =>
    split at failed
    · cases failed
    · next invalid =>
      constructor
      · intro same; cases same
      · rintro ⟨rfl, rfl, rfl⟩
        exact absurd key.valid invalid

/-- The fields that a marker of this key has to hold, beside any others. -/
structure Fences (expectedState : Option String) (key : DrainFenceKey) (fields : MarkerFields) :
    Prop where
  version : ("version", "1") ∈ fields
  state : ∀ state ∈ expectedState, ("state", state) ∈ fields
  runtimeId : ("runtime_id", key.runtimeId) ∈ fields
  processIdentity : ("process_identity", key.processIdentity) ∈ fields
  nonce : ("nonce", key.nonce) ∈ fields

theorem fenceOf_ok {expectedState : Option String}
    (distinct : (fields.map Prod.fst).Nodup) {key : DrainFenceKey} :
    fenceOf path expectedState fields = .ok key ↔ Fences expectedState key fields := by
  have states : ∀ answer, expectedState.forM (requireField path fields "state") = .ok answer ↔
      ∀ state ∈ expectedState, ("state", state) ∈ fields := by
    cases expectedState with
    | none => simp [Option.forM, pure, Except.pure]
    | some state => simp [Option.forM, requireField_ok, lookup_iff distinct]
  have named : ∀ {name value : String}, field path fields name = .ok value ↔
      (name, value) ∈ fields := fun {_ _} => field_ok.trans (lookup_iff distinct)
  simp only [fenceOf, bind_ok, requireField_ok, lookup_iff distinct, states, named, newKey_ok]
  constructor
  · rintro ⟨_, version, _, state, _, runtime, _, process, _, nonce, rfl, rfl, rfl⟩
    exact ⟨version, state, runtime, process, nonce⟩
  · intro fences
    exact ⟨(), fences.version, (), fences.state, _, fences.runtimeId, _, fences.processIdentity,
      _, fences.nonce, rfl, rfl, rfl⟩

/-- A text that `read_fence` takes for a marker of this key. -/
structure Accepted (expectedState : Option String) (key : DrainFenceKey) (file : MarkerFile)
    (content : String) (fields : MarkerFields) : Prop where
  text : file = .text content
  short : content.utf8ByteSize ≤ 4096
  written : Written fields content.toList
  distinct : (fields.map Prod.fst).Nodup
  fences : Fences expectedState key fields

theorem readFence_ok {expectedState : Option String}
    {key : DrainFenceKey} : readFence dir path expectedState = .ok (some key) ↔
      ∃ content fields, Accepted expectedState key (dir path) content fields := by
  rw [readFence, bind_ok]
  constructor
  · rintro ⟨found, read, rest⟩
    cases found with
    | none => cases rest
    | some fields =>
      obtain ⟨content, text, short, written, distinct⟩ := readFields_ok.1 read
      obtain ⟨made, fence, same⟩ := bind_ok.1 rest
      cases same
      exact ⟨content, fields, text, short, written, distinct, (fenceOf_ok distinct).1 fence⟩
  · rintro ⟨content, fields, accepted⟩
    refine ⟨some fields, readFields_ok.2 ⟨content, accepted.text, accepted.short,
      accepted.written, accepted.distinct⟩, ?_⟩
    exact bind_ok.2 ⟨key, (fenceOf_ok accepted.distinct).2 accepted.fences, rfl⟩

theorem readFence_none {expectedState : Option String} :
    readFence dir path expectedState = .ok none ↔ dir path = .absent := by
  rw [readFence, bind_ok]
  constructor
  · rintro ⟨found, read, rest⟩
    cases found with
    | none => exact readFields_none.1 read
    | some fields =>
      obtain ⟨made, _, same⟩ := bind_ok.1 rest
      cases same
  · intro absent
    exact ⟨none, readFields_none.2 absent, rfl⟩

/-! ## What `publish_ack` writes -/

def ackFields (key : DrainFenceKey) : MarkerFields :=
  [("version", "1"), ("runtime_id", key.runtimeId), ("process_identity", key.processIdentity),
    ("nonce", key.nonce), ("state", "sealed")]

/-- A value with no character of a line ending. -/
structure Plain (text : String) : Prop where
  some : text ≠ ""
  chars : ∀ c ∈ text.toList, c ≠ '\n' ∧ c ≠ '\r'

theorem plain_of (some_ : text ≠ "") {p : Char → Bool}
    (all : text.toList.all p = true) (newline : p '\n' = false) (returns : p '\r' = false) :
    Plain text := by
  refine ⟨some_, fun c member => ⟨?_, ?_⟩⟩
  · rintro rfl
    rw [List.all_eq_true] at all
    exact absurd (all _ member) (by rw [newline]; decide)
  · rintro rfl
    rw [List.all_eq_true] at all
    exact absurd (all _ member) (by rw [returns]; decide)

theorem plain_text (some_ : text ≠ "")
    (all : text.toList.all (fun c => c != '\n' && c != '\r') = true) : Plain text :=
  plain_of some_ all (by decide) (by decide)

theorem plain_token (valid : validToken text = true) : Plain text := by
  simp only [validToken, Bool.and_eq_true] at valid
  refine plain_of (fun none_ => ?_) valid.2 (by decide) (by decide)
  rw [none_] at valid
  exact absurd valid.1.1 (by decide)

theorem plain_identity (valid : validProcessIdentity text = true) : Plain text := by
  have whole := List.takeWhile_append_dropWhile (p := (· != '|')) (l := text.toList)
  rw [validProcessIdentity] at valid
  split at valid
  · cases valid
  · next bar ticks rest =>
    have bars : bar = '|' := by
      have head := List.head?_dropWhile_not (· != '|') text.toList
      rw [rest] at head
      simpa using head
    simp only [Bool.and_eq_true] at valid
    have all : text.toList.all (fun c => c.isDigit || c == '|') = true := by
      rw [← whole, rest, bars, List.all_append, List.all_cons, Bool.and_eq_true]
      refine ⟨List.all_eq_true.2 fun c member => ?_, ?_⟩
      · rw [List.all_eq_true.1 valid.1.2 c member, Bool.true_or]
      · rw [Bool.and_eq_true]
        refine ⟨by decide, List.all_eq_true.2 fun c member => ?_⟩
        rw [List.all_eq_true.1 valid.2 c member, Bool.true_or]
    refine plain_of (fun none_ => ?_) all (by decide) (by decide)
    rw [none_] at rest
    cases rest

theorem Plain.ended {name value : String} (plain : Plain value) (named : name ≠ "")
    (free : '=' ∉ name.toList ∧ '\n' ∉ name.toList) {fields : MarkerFields} {text : List Char}
    (rest : Written fields text) :
    Written ((name, value) :: fields) (lineOf name value ++ '\n' :: text) := by
  refine .ended ⟨named, plain.some, free.1, free.2, fun member => (plain.chars _ member).1 rfl⟩
    (fun last => ?_) rest
  exact (plain.chars _ (List.mem_of_getLast? last)).2 rfl

/-- The writer's pieces reach from one value to the next, the lines from one end to the next. -/
theorem joined_pieces (runtimeId processIdentity nonce : String)
    {version runtime process nonceName state : List Char}
    {a b c d : String} (start : a.toList = version ++ '\n' :: (runtime ++ ['=']))
    (toProcess : b.toList = '\n' :: (process ++ ['=']))
    (toNonce : c.toList = '\n' :: (nonceName ++ ['=']))
    (toEnd : d.toList = '\n' :: (state ++ ['\n'])) :
    (a ++ runtimeId ++ b ++ processIdentity ++ c ++ nonce ++ d).toList =
      version ++ '\n' :: ((runtime ++ '=' :: runtimeId.toList) ++ '\n' ::
        ((process ++ '=' :: processIdentity.toList) ++ '\n' ::
          ((nonceName ++ '=' :: nonce.toList) ++ '\n' :: (state ++ '\n' :: [])))) := by
  simp only [String.toList_append, start, toProcess, toNonce, toEnd, List.append_assoc,
    List.cons_append, List.nil_append]

theorem ack_written (key : DrainFenceKey) : Written (ackFields key) (ackText key).toList := by
  have valid := key.valid
  simp only [Bool.and_eq_true] at valid
  have one : Plain "1" := plain_text (by decide) (by decide)
  have sealed : Plain "sealed" := plain_text (by decide) (by decide)
  have written := one.ended (by decide : "version" ≠ "") (by decide)
    ((plain_token valid.1.1).ended (by decide : "runtime_id" ≠ "") (by decide)
      ((plain_identity valid.1.2).ended (by decide : "process_identity" ≠ "") (by decide)
        ((plain_token valid.2).ended (by decide : "nonce" ≠ "") (by decide)
          (sealed.ended (by decide : "state" ≠ "") (by decide) .done))))
  have text : (ackText key).toList = lineOf "version" "1" ++ '\n' ::
      (lineOf "runtime_id" key.runtimeId ++ '\n' ::
        (lineOf "process_identity" key.processIdentity ++ '\n' ::
          (lineOf "nonce" key.nonce ++ '\n' :: (lineOf "state" "sealed" ++ '\n' :: [])))) :=
    joined_pieces _ _ _ (by decide +kernel) (by decide +kernel) (by decide +kernel)
      (by decide +kernel)
  rw [text]
  exact written

theorem ack_distinct (key : DrainFenceKey) : ((ackFields key).map Prod.fst).Nodup := by
  show ["version", "runtime_id", "process_identity", "nonce", "state"].Nodup
  decide

theorem ack_fences (key : DrainFenceKey) : Fences (some "sealed") key (ackFields key) := by
  constructor <;> simp [ackFields]

/-! ## Main result -/

structure MarkersReadBack : Prop where
  /-- An ack of at most 4096 bytes is read back, whatever stood there before. -/
  ack : ∀ (dir : MarkerDir) (key : DrainFenceKey), (ackText key).utf8ByteSize ≤ 4096 →
    readAck (publishAck dir key) = .ok (some key)
  /-- Both readers accept exactly the short texts of distinct fields that name the key. -/
  readAck : ∀ (dir : MarkerDir) (key : DrainFenceKey), readAck dir = .ok (some key) ↔
    ∃ content fields, Accepted (some "sealed") key (dir .ack) content fields
  readPrepare : ∀ (dir : MarkerDir) (key : DrainFenceKey), readPrepare dir = .ok (some key) ↔
    ∃ content fields, Accepted none key (dir .prepare) content fields
  /-- Every other file is refused; only an absent one is no error. -/
  absent : ∀ dir : MarkerDir, (Runtime.readAck dir = .ok none ↔ dir .ack = .absent) ∧
    (Runtime.readPrepare dir = .ok none ↔ dir .prepare = .absent)

theorem drain_markers : MarkersReadBack where
  ack dir key short := readFence_ok.2 ⟨ackText key, ackFields key, by simp [publishAck, atomicWrite],
    short, ack_written key, ack_distinct key, ack_fences key⟩
  readAck _ _ := readFence_ok
  readPrepare _ _ := readFence_ok
  absent _ := ⟨readFence_none, readFence_none⟩

theorem length_le_size (chars : List Char) : chars.length ≤ (String.ofList chars).utf8ByteSize := by
  induction chars with
  | nil => exact Nat.zero_le _
  | cons c chars ih =>
    have one := c.utf8Size_pos
    rw [String.ofList_cons, String.utf8ByteSize_append, String.utf8ByteSize_singleton,
      List.length_cons]
    omega

theorem identity_le_ack (key : DrainFenceKey) :
    key.processIdentity.utf8ByteSize ≤ (ackText key).utf8ByteSize := by
  have part : ∀ a r b p c n d : String,
      p.utf8ByteSize ≤ (a ++ r ++ b ++ p ++ c ++ n ++ d).utf8ByteSize := by
    intro a r b p c n d
    simp only [String.utf8ByteSize_append]
    omega
  exact part _ _ _ _ _ _ _

def manyTicks (count : Nat) : String := String.ofList ('1' :: '|' :: List.replicate count '0')

theorem manyTicks_valid (count : Nat) : validProcessIdentity (manyTicks (count + 1)) = true := by
  rw [validProcessIdentity, manyTicks, String.toList_ofList]
  simp [List.replicate_succ]

/-- A key whose start ticks alone fill a marker. -/
def longKey : DrainFenceKey where
  runtimeId := "r"
  processIdentity := manyTicks 4096
  nonce := "n"
  valid := by
    rw [manyTicks_valid 4095]
    decide

def shortKey : DrainFenceKey := ⟨"r", "1|2", "n", by decide⟩

/-- An ack in another order, with a field that nobody asks for and no end of its last line. -/
def looseAck : String :=
  "state=sealed\r\nnonce=n\nprocess_identity=1|2\nruntime_id=r\nextra=x\nversion=1"

def looseFields : MarkerFields :=
  [("state", "sealed"), ("nonce", "n"), ("process_identity", "1|2"), ("runtime_id", "r"),
    ("extra", "x"), ("version", "1")]

theorem looseAck_written : Written looseFields looseAck.toList := by
  have text : looseAck.toList = lineOf "state" "sealed" ++ '\r' :: '\n' ::
      (lineOf "nonce" "n" ++ '\n' :: (lineOf "process_identity" "1|2" ++ '\n' ::
        (lineOf "runtime_id" "r" ++ '\n' :: (lineOf "extra" "x" ++ '\n' ::
          lineOf "version" "1")))) := by decide +kernel
  have plain : ∀ value ∈ ["n", "1|2", "r", "x"], Plain value := by
    intro value member
    simp only [List.mem_cons, List.not_mem_nil, or_false] at member
    obtain rfl | rfl | rfl | rfl := member <;> exact plain_text (by decide) (by decide)
  rw [text]
  refine .returned (by constructor <;> decide) ?_
  refine (plain "n" (by decide)).ended (by decide) (by decide) ?_
  refine (plain "1|2" (by decide)).ended (by decide) (by decide) ?_
  refine (plain "r" (by decide)).ended (by decide) (by decide) ?_
  refine (plain "x" (by decide)).ended (by decide) (by decide) ?_
  exact .last (by constructor <;> decide)

/-- A short ack is read back, and one in another form names the same key. -/
theorem short_ack_read_back :
    readAck (publishAck (fun _ => .absent) shortKey) = .ok (some shortKey) ∧
      readAck (fun _ => .text looseAck) = .ok (some shortKey) :=
  ⟨drain_markers.ack _ shortKey (by decide), (drain_markers.readAck _ shortKey).2 ⟨looseAck,
    looseFields, rfl, by decide, looseAck_written, by decide, by constructor <;> decide⟩⟩

/-- The ack of a long key is written and refused, and an ack that `publish_ack` never writes
is accepted. -/
theorem drain_markers_differ :
    ¬(∀ (dir : MarkerDir) (key : DrainFenceKey),
      readAck (publishAck dir key) = .ok (some key)) ∧
    ¬(∀ (dir : MarkerDir) (key : DrainFenceKey), readAck dir = .ok (some key) →
      ∃ other, dir .ack = .text (ackText other)) := by
  constructor
  · intro all
    obtain ⟨content, _, accepted⟩ := readFence_ok.1 (all (fun _ => .absent) longKey)
    have same : ackText longKey = content := MarkerFile.text.inj accepted.text
    have size : 4098 ≤ longKey.processIdentity.utf8ByteSize := by
      refine Nat.le_trans (Nat.le_of_eq ?_) (length_le_size _)
      rw [List.length_cons, List.length_cons, List.length_replicate]
    have long := identity_le_ack longKey
    have short := accepted.short
    rw [same] at long
    omega
  · intro all
    obtain ⟨other, same⟩ := all (fun _ => .text looseAck) shortKey (readFence_ok.2
      ⟨looseAck, looseFields, rfl, by decide, looseAck_written, by decide,
        by constructor <;> decide⟩)
    -- the two texts have different fields
    have left := (ack_written other).read .ack [] (ack_distinct other)
    have right := looseAck_written.read .ack [] (by decide)
    rw [← MarkerFile.text.inj same, right] at left
    have first : some ("state", "sealed") = some ("version", "1") :=
      congrArg List.head? (Except.ok.inj left)
    exact absurd first (by decide)

end CodexRemote.Verified.DrainMarker

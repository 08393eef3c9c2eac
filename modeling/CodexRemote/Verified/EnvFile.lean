import CodexRemote.Runtime.EnvFile
import CodexRemote.Verified.DrainMarker

/-! # Updates of the environment file

What an update does to the lines, what the reader makes of the lines that were written, and
when the two agree: a value has to survive the reader's unquoting, and the text must not end
in a return that the new text completes to a line ending.
-/

namespace CodexRemote.Verified.EnvFile

open Foundations Discord CodexRemote.Runtime Runtime.EnvFile
open Verified.DrainMarker

/-! ## What is promised -/

def namesOf (updates : List EnvUpdate) : List String := updates.map Prod.fst

/-- The text that the reader sees. -/
def textOf (file : File) : List Char :=
  match read file with
  | .ok text => text
  | .error _ => []

/-- A comment, or a line that sets none of the names but some other. -/
def Kept (names : List String) (line : List Char) : Bool :=
  isComment line || ((splitOnce line).isSome && !names.any (setsName · line))

/-- A faithful update of a map. -/
structure Faithful (updates : List EnvUpdate) (file after : File) : Prop where
  updated : ∀ update ∈ updates, get (textOf after) update.1 = some update.2
  others : ∀ name ∉ namesOf updates, get (textOf after) name = get (textOf file) name
  kept : (textLines (textOf after)).filter (Kept (namesOf updates)) =
    (textLines (textOf file)).filter (Kept (namesOf updates))
  again : ∀ fails, (update fails after updates).2 = after

/-- The reader gives the values back as they are. -/
def Plain (updates : List EnvUpdate) : Prop :=
  ∀ update ∈ updates, unquote update.2.toList = update.2.toList

/-- The text has single newlines, but ends in a return, on a line that is not rewritten.  What
follows that line in the new text turns the return into a part of the line's ending. -/
def StrayReturn (updates : List EnvUpdate) (text : List Char) : Prop :=
  newlineOf text = ['\n'] ∧ ∃ front line, textLines text = front ++ [line] ∧
    line.getLast? = some '\r' ∧ (∀ name ∈ namesOf updates, setsName name line = false) ∧
    (Kept (namesOf updates) line = true ∨ front ≠ [] ∨ updates ≠ [])

/-! ## Valid updates -/

theorem validateUpdate_ok {update : EnvUpdate} (valid : validateUpdate update = .ok ()) :
    validName update.1 = true ∧ validValue update.2 = true := by
  simp only [validateUpdate] at valid
  split_ifs at valid with name value
  exact ⟨by simpa using name, by simpa using value⟩

theorem name_letters : ∀ n < 128, (Char.ofNat n).isAlphanum = true →
    Char.ofNat n ≠ '=' ∧ Char.ofNat n ≠ '#' ∧ Char.ofNat n ≠ byteOrderMark := by decide

variable {name : String} {line text : List Char} {updates : List EnvUpdate} {file : File}

theorem name_char (valid : validName name = true) :
    ∀ c ∈ name.toList, isWhitespace c = false ∧ c ≠ '=' ∧ c ≠ '#' ∧ c ≠ byteOrderMark := by
  intro c member
  rw [validName, Bool.and_eq_true, List.all_eq_true] at valid
  have letter := valid.2 c member
  rw [Bool.or_eq_true, beq_iff_eq] at letter
  obtain letter | rfl := letter
  · have small := small_of_alphanum letter
    have visible := alphanum_visible c.toNat small
    have other := name_letters c.toNat small
    rw [Char.ofNat_toNat] at visible other
    exact ⟨visible letter, other letter⟩
  · decide

theorem name_head (valid : validName name = true) :
    ∃ c rest, name.toList = c :: rest := by
  rw [validName, Bool.and_eq_true] at valid
  cases shape : name.toList with
  | nil =>
    have empty : name = "" := String.toList_inj.mp shape
    rw [empty] at valid
    cases valid.1
  | cons c rest => exact ⟨c, rest, rfl⟩

/-! ## One line -/

theorem splitOnce_settingLine {update : EnvUpdate} (valid : validName update.1 = true) :
    splitOnce (settingLine update) = some update :=
  splitOnce_ok.mpr ⟨rfl, fun member => (name_char valid _ member).2.1 rfl⟩

theorem settingLine_head {update : EnvUpdate} (valid : validName update.1 = true) :
    ∃ c rest, settingLine update = c :: rest ∧ isWhitespace c = false ∧ c ≠ '#' ∧
      c ≠ byteOrderMark := by
  obtain ⟨c, rest, shape⟩ := name_head valid
  obtain ⟨visible, -, other, mark⟩ := name_char valid c (by rw [shape]; exact List.mem_cons_self ..)
  exact ⟨c, rest ++ '=' :: update.2.toList, by rw [settingLine, shape]; rfl, visible, other, mark⟩

theorem settingLine_setting {update : EnvUpdate} (valid : validName update.1 = true) :
    isComment (settingLine update) = false := by
  obtain ⟨c, rest, shape, visible, other, -⟩ := settingLine_head valid
  rw [isComment, shape, trimStart, List.dropWhile_cons_of_neg (by simp [visible])]
  simpa using other

theorem setsName_iff :
    setsName name line = true ↔ isComment line = false ∧
      ∃ key value, splitOnce line = some (key, value) ∧ trim key.toList = name.toList := by
  rw [setsName, Bool.and_eq_true, Bool.not_eq_true', Option.any_eq_true]
  simp only [Prod.exists, decide_eq_true_eq]

theorem setsName_settingLine {update : EnvUpdate} (valid : validName update.1 = true) :
    setsName update.1 (settingLine update) = true :=
  setsName_iff.mpr ⟨settingLine_setting valid, update.1, update.2, splitOnce_settingLine valid,
    trim_visible fun c member => (name_char valid c member).1⟩

theorem setsName_unique {one two : String} (first : setsName one line = true)
    (second : setsName two line = true) : one = two := by
  obtain ⟨-, key, value, split, same⟩ := setsName_iff.mp first
  obtain ⟨-, key', value', split', same'⟩ := setsName_iff.mp second
  cases split.symm.trans split'
  exact String.toList_inj.mp (same.symm.trans same')

theorem settingValue_other (setting : isComment line = false)
    (other : setsName name line = false) : settingValue name line = none := by
  rw [settingValue]
  cases split : splitOnce line with
  | none => rfl
  | some pair =>
    refine if_neg fun same => ?_
    rw [setsName_iff.mpr ⟨setting, pair.1, pair.2, split, same⟩] at other
    cases other

/-! ## One update -/

/-- The setting has lines, and all of them are the update's. -/
structure Assigned (update : EnvUpdate) (lines : List (List Char)) : Prop where
  there : ∃ line ∈ lines, setsName update.1 line = true
  same : ∀ line ∈ lines, setsName update.1 line = true → line = settingLine update

/-- Every line of the new text is the update's own or an old one of something else. -/
theorem mem_applyUpdate {lines : List (List Char)} {update : EnvUpdate}
    (member : line ∈ applyUpdate lines update) :
    line = settingLine update ∨ line ∈ lines ∧ setsName update.1 line = false := by
  have replaced : ∀ line ∈ lines.map fun line =>
        if setsName update.1 line then settingLine update else line,
      line = settingLine update ∨ line ∈ lines ∧ setsName update.1 line = false := by
    intro line member
    obtain ⟨old, there, rfl⟩ := List.mem_map.mp member
    split
    · exact .inl rfl
    · next other => exact .inr ⟨there, by simpa using other⟩
  rw [applyUpdate] at member
  split at member
  · exact replaced line member
  · obtain member | member := List.mem_append.mp member
    · exact replaced line member
    · exact .inl (List.mem_singleton.mp member)

theorem settingLine_mem {lines : List (List Char)} {update : EnvUpdate} :
    settingLine update ∈ applyUpdate lines update := by
  rw [applyUpdate]
  split
  · next found =>
    obtain ⟨line, member, sets⟩ := List.any_eq_true.mp found
    exact List.mem_map.mpr ⟨line, member, if_pos sets⟩
  · exact List.mem_append_right _ (List.mem_singleton_self _)

theorem applyUpdate_assigned {lines : List (List Char)} {update : EnvUpdate}
    (valid : validName update.1 = true) : Assigned update (applyUpdate lines update) := by
  refine ⟨⟨_, settingLine_mem, setsName_settingLine valid⟩, fun line member sets => ?_⟩
  obtain same | ⟨-, other⟩ := mem_applyUpdate member
  · exact same
  · rw [sets] at other
    cases other

/-- What an update does not rewrite stays in its order. -/
theorem filter_applyUpdate {lines : List (List Char)} {update : EnvUpdate} {p : List Char → Bool}
    (valid : validName update.1 = true)
    (apart : ∀ line, setsName update.1 line = true → p line = false) :
    (applyUpdate lines update).filter p = lines.filter p := by
  have own : p (settingLine update) = false := apart _ (setsName_settingLine valid)
  have replaced : (lines.map fun line =>
      if setsName update.1 line then settingLine update else line).filter p = lines.filter p := by
    induction lines with
    | nil => rfl
    | cons line lines ih =>
      rw [List.map_cons]
      cases sets : setsName update.1 line with
      | true =>
        rw [if_pos rfl, List.filter_cons_of_neg (by simp [own]), ih,
          List.filter_cons_of_neg (by simp [apart line sets])]
      | false =>
        rw [if_neg Bool.false_ne_true, List.filter_cons, List.filter_cons, ih]
  rw [applyUpdate]
  split
  · exact replaced
  · rw [List.filter_append, replaced, List.filter_cons_of_neg (by simp [own]), List.filter_nil,
      List.append_nil]

theorem Assigned.later {lines : List (List Char)} {update other : EnvUpdate}
    (assigned : Assigned update lines) (valid : validName other.1 = true)
    (apart : update.1 ≠ other.1) : Assigned update (applyUpdate lines other) := by
  have kept := @filter_applyUpdate lines other (setsName update.1) valid fun line sets =>
    Bool.eq_false_iff.mpr fun also => apart (setsName_unique also sets)
  have both : ∀ line, line ∈ applyUpdate lines other ∧ setsName update.1 line = true ↔
      line ∈ lines ∧ setsName update.1 line = true := by
    intro line
    rw [← List.mem_filter, kept, List.mem_filter]
  obtain ⟨line, member, sets⟩ := assigned.there
  obtain ⟨there, -⟩ := (both line).mpr ⟨member, sets⟩
  exact ⟨⟨line, there, sets⟩, fun line member sets =>
    assigned.same line ((both line).mp ⟨member, sets⟩).1 sets⟩

theorem Assigned.applyUpdate_eq {lines : List (List Char)} {update : EnvUpdate}
    (assigned : Assigned update lines) : applyUpdate lines update = lines := by
  obtain ⟨line, member, sets⟩ := assigned.there
  rw [applyUpdate, if_pos (List.any_eq_true.mpr ⟨line, member, sets⟩)]
  conv_rhs => rw [← List.map_id lines]
  refine List.map_congr_left fun line member => ?_
  split
  · next sets => exact (assigned.same line member sets).symm
  · rfl

/-! ## All updates -/

section Updates

variable {updates : List EnvUpdate} {lines : List (List Char)}

theorem assigned_run {update : EnvUpdate} (assigned : Assigned update lines)
    (valid : ∀ other ∈ updates, validName other.1 = true) (apart : update.1 ∉ namesOf updates) :
    Assigned update (updates.foldl applyUpdate lines) := by
  induction updates generalizing lines with
  | nil => exact assigned
  | cons other updates ih =>
    simp only [namesOf, List.map_cons, List.mem_cons, not_or] at apart
    exact ih (assigned.later (valid other (List.mem_cons_self ..)) apart.1)
      (fun next member => valid next (List.mem_cons_of_mem _ member)) apart.2

theorem run_assigned (valid : ∀ update ∈ updates, validName update.1 = true)
    (distinct : (namesOf updates).Nodup) :
    ∀ update ∈ updates, Assigned update (updates.foldl applyUpdate lines) := by
  induction updates generalizing lines with
  | nil => exact List.forall_mem_nil _
  | cons first updates ih =>
    rw [namesOf, List.map_cons, List.nodup_cons] at distinct
    have later := fun next member => valid next (List.mem_cons_of_mem _ member)
    intro update member
    rw [List.foldl_cons]
    obtain rfl | member := List.mem_cons.mp member
    · exact assigned_run (applyUpdate_assigned (valid _ (List.mem_cons_self ..))) later distinct.1
    · exact ih later distinct.2 update member

/-- Lines that are as the updates want them stay as they are. -/
theorem run_eq (assigned : ∀ update ∈ updates, Assigned update lines) :
    updates.foldl applyUpdate lines = lines := by
  induction updates with
  | nil => rfl
  | cons first updates ih =>
    rw [List.foldl_cons, (assigned first (List.mem_cons_self ..)).applyUpdate_eq]
    exact ih fun update member => assigned update (List.mem_cons_of_mem _ member)

theorem filter_run {p : List Char → Bool} (valid : ∀ update ∈ updates, validName update.1 = true)
    (apart : ∀ name ∈ namesOf updates, ∀ line, setsName name line = true → p line = false) :
    (updates.foldl applyUpdate lines).filter p = lines.filter p := by
  induction updates generalizing lines with
  | nil => rfl
  | cons first updates ih =>
    rw [List.foldl_cons, ih (fun next member => valid next (List.mem_cons_of_mem _ member))
      fun name member => apart name (List.mem_cons_of_mem _ member)]
    exact filter_applyUpdate (valid first (List.mem_cons_self ..)) (apart _ (List.mem_cons_self ..))

theorem mem_run (member : line ∈ updates.foldl applyUpdate lines) :
    (∃ update ∈ updates, line = settingLine update) ∨
      line ∈ lines ∧ ∀ name ∈ namesOf updates, setsName name line = false := by
  induction updates generalizing lines with
  | nil => exact .inr ⟨member, List.forall_mem_nil _⟩
  | cons first updates ih =>
    obtain ⟨update, known, same⟩ | ⟨member, others⟩ := ih member
    · exact .inl ⟨update, List.mem_cons_of_mem _ known, same⟩
    · obtain same | ⟨old, other⟩ := mem_applyUpdate member
      · exact .inl ⟨first, List.mem_cons_self .., same⟩
      · exact .inr ⟨old, List.forall_mem_cons.mpr ⟨other, others⟩⟩

end Updates

/-! ## What the reader finds -/

def getIn (lines : List (List Char)) (name : String) : Option String :=
  (lines.filter (!isComment ·)).findSome? (settingValue name)

theorem getIn_cons (line : List Char) (lines : List (List Char)) (name : String) :
    getIn (line :: lines) name =
      if setsName name line then settingValue name line else getIn lines name := by
  rw [getIn, List.filter_cons]
  cases comment : isComment line with
  | true =>
    have other : setsName name line = false := by simp [setsName, comment]
    rw [other]
    rfl
  | false =>
    cases sets : setsName name line with
    | true =>
      obtain ⟨-, key, value, split, same⟩ := setsName_iff.mp sets
      have found : settingValue name line = some (String.ofList (unquote value.toList)) := by
        simp only [settingValue, split, same, if_true]
      simp only [Bool.not_false, if_true, List.findSome?_cons, found]
    | false =>
      simp only [Bool.not_false, if_true, List.findSome?_cons, settingValue_other comment sets,
        Bool.false_eq_true, if_false]
      rfl

theorem getIn_assigned {lines : List (List Char)} {update : EnvUpdate}
    (valid : validName update.1 = true) (assigned : Assigned update lines) :
    getIn lines update.1 = some (String.ofList (unquote update.2.toList)) := by
  obtain ⟨⟨line, member, sets⟩, same⟩ := assigned
  have read : settingValue update.1 (settingLine update) =
      some (String.ofList (unquote update.2.toList)) := by
    rw [settingValue, splitOnce_settingLine valid]
    exact if_pos (trim_visible fun c member => (name_char valid c member).1)
  induction lines with
  | nil => cases member
  | cons first lines ih =>
    rw [getIn_cons]
    split
    · next here => rw [same first (List.mem_cons_self ..) here, read]
    · next other =>
      obtain rfl | member := List.mem_cons.mp member
      · exact absurd sets other
      · exact ih (fun line member => same line (List.mem_cons_of_mem _ member)) member

/-- The reader looks at the lines of the setting alone. -/
theorem getIn_filter {p : List Char → Bool}
    (own : ∀ line, setsName name line = true → p line = true) (lines : List (List Char)) :
    getIn (lines.filter p) name = getIn lines name := by
  induction lines with
  | nil => rfl
  | cons line lines ih =>
    rw [getIn_cons, List.filter_cons]
    split
    · rw [getIn_cons, ih]
    · next dropped => rw [ih, if_neg fun sets => dropped (own line sets)]

/-! ## Lines without their returns -/

theorem withoutReturn_concat (line : List Char) : withoutReturn (line ++ ['\r']) = line := by
  rw [withoutReturn, if_pos (by simp), List.dropLast_concat]

theorem withoutReturn_of_last (last : line.getLast? ≠ some '\r') :
    withoutReturn line = line := if_neg last

theorem returned_concat (last : line.getLast? = some '\r') :
    line = withoutReturn line ++ ['\r'] := by
  rw [withoutReturn, if_pos last]
  exact (List.dropLast_append_getLast? _ last).symm

theorem return_white : ∀ c ∈ ['\r'], isWhitespace c = true := List.forall_mem_singleton.mpr rfl

theorem isComment_withoutReturn (line : List Char) :
    isComment (withoutReturn line) = isComment line := by
  by_cases last : line.getLast? = some '\r'
  · conv_rhs => rw [returned_concat last]
    generalize withoutReturn line = front
    rw [isComment, isComment, trimStart, trimStart, List.dropWhile_append]
    cases shape : front.dropWhile isWhitespace with
    | nil => rfl
    | cons c rest => rfl
  · rw [withoutReturn_of_last last]

theorem splitOnce_concat (front : List Char) :
    (splitOnce (front ++ ['\r'])) =
      (splitOnce front).map fun (key, value) => (key, value ++ "\r") := by
  cases split : splitOnce front with
  | some pair =>
    obtain ⟨same, free⟩ := splitOnce_ok.mp split
    refine splitOnce_ok.mpr ⟨?_, free⟩
    rw [same]
    simp [lineOf]
  | none =>
    have absent : ∀ c ∈ front, (c != '=') = true := by
      rw [splitOnce] at split
      split at split
      · next none_ => exact List.dropWhile_eq_nil_iff.mp none_
      · cases split
    rw [splitOnce, List.dropWhile_append_of_pos absent]
    rfl

/-- A return at the end of a line is white space to the reader. -/
theorem splitOnce_withoutReturn (line : List Char) :
    (splitOnce (withoutReturn line)).map (fun (key, value) => (key, trim value.toList)) =
      (splitOnce line).map fun (key, value) => (key, trim value.toList) := by
  by_cases last : line.getLast? = some '\r'
  · conv_rhs => rw [returned_concat last, splitOnce_concat]
    rw [Option.map_map]
    congr 1
    funext pair
    simp [trim_append_white _ return_white]
  · rw [withoutReturn_of_last last]

theorem setsName_withoutReturn (name : String) (line : List Char) :
    setsName name (withoutReturn line) = setsName name line := by
  have same := congrArg (Option.any fun (key, _) => decide (trim key.toList = name.toList))
    (splitOnce_withoutReturn line)
  rw [Option.any_map, Option.any_map] at same
  rw [setsName, setsName, isComment_withoutReturn]
  exact congrArg _ same

theorem settingValue_withoutReturn (name : String) (line : List Char) :
    settingValue name (withoutReturn line) = settingValue name line := by
  have same := splitOnce_withoutReturn line
  rw [settingValue, settingValue]
  cases left : splitOnce (withoutReturn line) with
  | none =>
    cases right : splitOnce line with
    | none => rfl
    | some pair =>
      rw [left, right] at same
      cases same
  | some pair =>
    cases right : splitOnce line with
    | none =>
      rw [left, right] at same
      cases same
    | some other =>
      rw [left, right, Option.map_some, Option.map_some, Option.some.injEq, Prod.mk.injEq] at same
      simp only [unquote, same.1, same.2]

theorem getIn_withoutReturn (lines : List (List Char)) (name : String) :
    getIn (lines.map withoutReturn) name = getIn lines name := by
  induction lines with
  | nil => rfl
  | cons line lines ih =>
    rw [List.map_cons, getIn_cons, getIn_cons, ih, setsName_withoutReturn,
      settingValue_withoutReturn]

theorem kept_withoutReturn (names : List String) (line : List Char) :
    Kept names (withoutReturn line) = Kept names line := by
  have same := congrArg Option.isSome (splitOnce_withoutReturn line)
  rw [Option.isSome_map, Option.isSome_map] at same
  simp only [Kept, isComment_withoutReturn, same, setsName_withoutReturn]

/-! ## Texts and their lines -/

theorem textLines_free (member : line ∈ textLines text) : '\n' ∉ line := by
  obtain ⟨raw, there, rfl⟩ := List.mem_map.mp member
  obtain ⟨front, back, split⟩ := List.append_of_mem there
  obtain ⟨more, -, after, -⟩ := lines_split split
  obtain ⟨-, -, -, ⟨body, rfl, free⟩ | ⟨free, -, -⟩⟩ := lines_cons after
  · rw [lineText_ended, withoutReturn]
    split
    · exact fun inside => free (List.mem_of_mem_dropLast inside)
    · exact free
  · rw [lineText_open free]
    exact free

theorem lines_flatten_eq (text : List Char) : (lines '\n' text).flatten = text := by
  obtain ⟨more, whole, none_, -⟩ := lines_split (List.append_nil (lines '\n' text)).symm
  rw [lines_eq_nil none_, List.append_nil] at whole
  exact whole.symm

/-- A text has a double newline if one of its lines ends in one. -/
theorem crlf_iff :
    ['\r', '\n'] <:+: text ↔ ∃ body, body ++ ['\r', '\n'] ∈ lines '\n' text := by
  constructor
  · intro inside
    induction text with
    | nil => cases List.infix_nil.mp inside
    | cons c text ih =>
      rw [lines_step]
      obtain starts | later := List.infix_cons_iff.mp inside
      · obtain ⟨rest, same⟩ := starts
        cases same
        have ended : lines '\n' (['\n'].append rest) = ['\n'] :: lines '\n' rest := rfl
        rw [if_neg (by decide), ended]
        exact ⟨[], List.mem_cons_self ..⟩
      · obtain ⟨body, member⟩ := ih later
        split
        · exact ⟨body, List.mem_cons_of_mem _ member⟩
        · cases cut : lines '\n' text with
          | nil =>
            rw [cut] at member
            cases member
          | cons line rest =>
            rw [cut] at member
            obtain rfl | member := List.mem_cons.mp member
            · exact ⟨c :: body, List.mem_cons_self ..⟩
            · exact ⟨body, List.mem_cons_of_mem _ member⟩
  · rintro ⟨body, member⟩
    have inside : (body ++ ['\r', '\n']) <:+: text := by
      rw [← lines_flatten_eq text]
      exact List.infix_of_mem_flatten member
    exact (List.suffix_append body _).isInfix.trans inside

theorem newlineOf_cases (text : List Char) :
    newlineOf text = ['\r', '\n'] ∧ ['\r', '\n'] <:+: text ∨
      newlineOf text = ['\n'] ∧ ¬['\r', '\n'] <:+: text := by
  rw [newlineOf]
  split
  · next double => exact .inl ⟨rfl, double⟩
  · next single => exact .inr ⟨rfl, single⟩

/-- Only the last line of a text with single newlines can end in a return. -/
theorem return_last {text line : List Char} {front back : List (List Char)}
    (single : ¬['\r', '\n'] <:+: text) (cut : textLines text = front ++ line :: back)
    (returned : line.getLast? = some '\r') : back = [] := by
  obtain ⟨rawFront, rawRest, split, rfl, rest⟩ := List.map_eq_append_iff.mp cut
  obtain ⟨raw, rawBack, rfl, rfl, rfl⟩ := List.map_eq_cons_iff.mp rest
  obtain ⟨more, -, after, -⟩ := lines_split split
  obtain ⟨last, -, tail, ⟨body, rfl, free⟩ | ⟨-, -, rfl⟩⟩ := lines_cons after
  · rw [lineText_ended] at returned
    by_cases ends : body.getLast? = some '\r'
    · obtain ⟨start, rfl⟩ : ∃ start, body = start ++ ['\r'] :=
        ⟨_, (List.dropLast_append_getLast? _ ends).symm⟩
      refine absurd (crlf_iff.mpr ⟨start, ?_⟩) single
      rw [split, List.append_assoc]
      exact List.mem_append_right _ (List.mem_cons_self ..)
    · rw [withoutReturn_of_last ends] at returned
      exact absurd returned ends
  · rw [← tail]
    rfl

/-! ## Joined lines -/

section Joined

variable {rows : List (List Char)}

theorem joinLines_flatten (newline : List Char) (some_ : rows ≠ []) :
    joinLines newline rows = (rows.map (· ++ newline)).flatten := by
  induction rows with
  | nil => exact absurd rfl some_
  | cons row rows ih =>
    cases rows with
    | nil => simp [joinLines]
    | cons next rows =>
      have rest := ih (List.cons_ne_nil _ _)
      rw [joinLines] at rest ⊢
      rw [List.intercalate_cons_cons, List.map_cons, List.flatten_cons, ← rest]
      simp only [List.append_assoc]

theorem lines_joined {newline : List Char} (some_ : rows ≠ [])
    (finished : ∀ row ∈ rows, Finished '\n' (row ++ newline)) :
    lines '\n' (joinLines newline rows) = rows.map (· ++ newline) := by
  have cut := lines_flatten (List.forall_mem_map.mpr finished) []
  rwa [List.append_nil, lines_nil, List.append_nil, ← joinLines_flatten newline some_] at cut

variable (some_ : rows ≠ []) (free : ∀ row ∈ rows, '\n' ∉ row)
include some_ free

theorem lines_single : lines '\n' (joinLines ['\n'] rows) = rows.map (· ++ ['\n']) :=
  lines_joined some_ fun row member => ⟨row, rfl, free row member⟩

theorem lines_double :
    lines '\n' (joinLines ['\r', '\n'] rows) = rows.map (· ++ ['\r', '\n']) :=
  lines_joined some_ fun row member => ⟨row ++ ['\r'], by simp, by simp [free row member]⟩

/-- Lines that are joined by double newlines are read back. -/
theorem textLines_double : textLines (joinLines ['\r', '\n'] rows) = rows := by
  have each (row : List Char) : lineText (row ++ ['\r', '\n']) = row := by
    rw [List.append_cons, lineText_ended, withoutReturn_concat]
  rw [textLines, lines_double some_ free, List.map_map]
  exact (List.map_congr_left fun row _ => each row).trans (List.map_id _)

/-- With single newlines, a line loses the return that it ends in. -/
theorem textLines_single : textLines (joinLines ['\n'] rows) = rows.map withoutReturn := by
  rw [textLines, lines_single some_ free, List.map_map]
  exact List.map_congr_left fun row _ => lineText_ended row

theorem newlineOf_double : newlineOf (joinLines ['\r', '\n'] rows) = ['\r', '\n'] := by
  obtain ⟨row, rest, rfl⟩ := List.exists_cons_of_ne_nil some_
  refine if_pos (crlf_iff.mpr ⟨row, ?_⟩)
  rw [lines_double some_ free]
  exact List.mem_cons_self ..

theorem newlineOf_single :
    newlineOf (joinLines ['\n'] rows) =
      if ∃ row ∈ rows, row.getLast? = some '\r' then ['\r', '\n'] else ['\n'] := by
  have double : ['\r', '\n'] <:+: joinLines ['\n'] rows ↔ ∃ row ∈ rows, row.getLast? = some '\r' := by
    rw [crlf_iff, lines_single some_ free]
    constructor
    · rintro ⟨body, member⟩
      obtain ⟨row, there, same⟩ := List.mem_map.mp member
      rw [List.append_cons body] at same
      obtain ⟨rfl, -⟩ := List.append_inj' same rfl
      exact ⟨_, there, by simp⟩
    · rintro ⟨row, there, last⟩
      refine ⟨withoutReturn row, List.mem_map.mpr ⟨row, there, ?_⟩⟩
      rw [List.append_cons (withoutReturn row), ← returned_concat last]
  rw [newlineOf]
  simp only [double]

/-- Double newlines take the place of single ones unseen if every line ended in a return. -/
theorem rejoined_iff :
    joinLines ['\r', '\n'] (rows.map withoutReturn) = joinLines ['\n'] rows ↔
      ∀ row ∈ rows, row.getLast? = some '\r' := by
  have short : ∀ row ∈ rows.map withoutReturn, '\n' ∉ row := by
    intro _ member
    obtain ⟨row, there, rfl⟩ := List.mem_map.mp member
    rw [withoutReturn]
    split
    · exact fun inside => free row there (List.mem_of_mem_dropLast inside)
    · exact free row there
  have still : rows.map withoutReturn ≠ [] := by simpa using some_
  constructor
  · intro same row member
    have cut := congrArg (lines '\n') same
    rw [lines_double still short, lines_single some_ free, List.map_map] at cut
    have each := List.map_inj_left.mp cut row member
    rw [Function.comp_apply, List.append_cons (withoutReturn row)] at each
    rw [← List.append_cancel_right each]
    simp
  · intro all
    rw [joinLines_flatten _ still, joinLines_flatten _ some_, List.map_map]
    congr 1
    refine List.map_congr_left fun row member => ?_
    rw [Function.comp_apply, List.append_cons (withoutReturn row), ← returned_concat (all row member)]

end Joined

/-! ## The byte order mark -/

/-- The text of these lines does not begin with a byte order mark. -/
def Unmarked (rows : List (List Char)) : Prop :=
  ∀ row, rows.head? = some row → row.head? ≠ some byteOrderMark

theorem unmarked_settingLine {update : EnvUpdate} (valid : validName update.1 = true) :
    (settingLine update).head? ≠ some byteOrderMark := by
  obtain ⟨c, rest, shape, -, -, mark⟩ := settingLine_head valid
  rw [shape]
  simpa using mark

theorem unmarked_applyUpdate {rows : List (List Char)} {update : EnvUpdate}
    (unmarked : Unmarked rows) (valid : validName update.1 = true) :
    Unmarked (applyUpdate rows update) := by
  cases rows with
  | nil =>
    intro row head
    cases head
    exact unmarked_settingLine valid
  | cons first rows =>
    have start : (applyUpdate (first :: rows) update).head? =
        some (if setsName update.1 first then settingLine update else first) := by
      rw [applyUpdate]
      split
      · rfl
      · rfl
    intro row head
    rw [start] at head
    cases head
    split
    · exact unmarked_settingLine valid
    · exact unmarked first rfl

theorem unmarked_run {rows : List (List Char)}
    (unmarked : Unmarked rows) (valid : ∀ update ∈ updates, validName update.1 = true) :
    Unmarked (updates.foldl applyUpdate rows) := by
  induction updates generalizing rows with
  | nil => exact unmarked
  | cons first updates ih =>
    exact ih (unmarked_applyUpdate unmarked (valid first (List.mem_cons_self ..)))
      fun update member => valid update (List.mem_cons_of_mem _ member)

theorem unmarked_textLines (start : text.head? ≠ some byteOrderMark) :
    Unmarked (textLines text) := by
  intro row head
  cases cut : lines '\n' text with
  | nil => rw [textLines, cut] at head; cases head
  | cons raw rest =>
    rw [textLines, cut] at head
    cases head
    obtain ⟨more, rfl, -, -⟩ := lines_cons cut
    have front : lineText raw <+: raw := by
      rw [lineText]
      split
      · split
        · exact (List.dropLast_prefix _).trans (List.dropLast_prefix _)
        · exact List.dropLast_prefix _
      · exact List.prefix_refl _
    obtain ⟨back, whole⟩ := front
    rw [← whole] at start
    cases shape : lineText raw with
    | nil => simp
    | cons c rest =>
      rw [shape] at start
      exact start

theorem newlineOf_head (text : List Char) :
    ∃ c rest, newlineOf text = c :: rest ∧ c ≠ byteOrderMark := by
  obtain ⟨shape, -⟩ | ⟨shape, -⟩ := newlineOf_cases text
  · exact ⟨_, _, shape, by decide⟩
  · exact ⟨_, _, shape, by decide⟩

theorem unmarked_joined {rows : List (List Char)} (some_ : rows ≠ []) (unmarked : Unmarked rows)
    (text : List Char) : (joinLines (newlineOf text) rows).dropWhile (· == byteOrderMark) =
      joinLines (newlineOf text) rows := by
  obtain ⟨row, rest, rfl⟩ := List.exists_cons_of_ne_nil some_
  rw [joinLines_flatten _ some_, List.map_cons, List.flatten_cons]
  cases row with
  | cons c row =>
    have other := unmarked _ rfl
    exact List.dropWhile_cons_of_neg (by simpa using other)
  | nil =>
    obtain ⟨c, more, shape, other⟩ := newlineOf_head text
    rw [shape]
    exact List.dropWhile_cons_of_neg (by simpa using other)

/-! ## The new text -/

/-- The lines of the new text. -/
def newRows (updates : List EnvUpdate) (text : List Char) : List (List Char) :=
  let rows := updates.foldl applyUpdate (textLines text)
  if rows = [] then [[]] else rows

section NewText

variable {updates : List EnvUpdate} {text : List Char}

theorem newRows_some : newRows updates text ≠ [] := by
  rw [newRows]
  split
  · exact List.cons_ne_nil _ _
  · next some_ => exact some_

theorem updatedText_rows :
    updatedText text updates = joinLines (newlineOf text) (newRows updates text) := by
  rw [updatedText, newRows]
  split
  · next none_ => rw [none_]; rfl
  · rfl

theorem newRows_unchanged {row : List Char} {rest : List (List Char)}
    (there : textLines text = row :: rest) : newRows [] text = row :: rest := by
  rw [newRows, List.foldl_nil, there]
  rfl

variable (valid : ∀ update ∈ updates, validateUpdate update = .ok ())
include valid

theorem valid_names : ∀ update ∈ updates, validName update.1 = true :=
  fun update member => (validateUpdate_ok (valid update member)).1

theorem newRows_assigned (distinct : (namesOf updates).Nodup) :
    ∀ update ∈ updates, Assigned update (newRows updates text) := by
  intro update member
  have assigned := @run_assigned updates (textLines text) (valid_names valid) distinct update member
  rw [newRows, if_neg]
  · exact assigned
  · intro none_
    rw [none_] at assigned
    obtain ⟨line, there, -⟩ := assigned.there
    cases there

theorem filter_newRows {p : List Char → Bool} (empty : p [] = false)
    (apart : ∀ name ∈ namesOf updates, ∀ line, setsName name line = true → p line = false) :
    (newRows updates text).filter p = (textLines text).filter p := by
  have kept := @filter_run updates (textLines text) p (valid_names valid) apart
  rw [newRows]
  split
  · next none_ =>
    rw [none_, List.filter_nil] at kept
    rw [← kept, List.filter_cons_of_neg (by simp [empty]), List.filter_nil]
  · exact kept

/-- The line of a setting has neither a newline nor a return. -/
theorem settingLine_plain {update : EnvUpdate} (member : update ∈ updates) :
    '\n' ∉ settingLine update ∧ '\r' ∉ settingLine update := by
  obtain ⟨name, value⟩ := validateUpdate_ok (valid update member)
  have letters (c : Char) (white : isWhitespace c = true) : c ∉ update.1.toList := by
    intro inside
    rw [(name_char name c inside).1] at white
    cases white
  have others : ∀ c ∈ update.2.toList, c ≠ '\n' ∧ c ≠ '\r' := by
    intro c inside
    simp only [validValue, Bool.not_eq_true', List.any_eq_false, Bool.or_eq_true, beq_iff_eq,
      not_or] at value
    exact (value c inside).1
  simp only [settingLine, List.mem_append, List.mem_cons, not_or]
  exact ⟨⟨letters _ rfl, by decide, fun inside => (others _ inside).1 rfl⟩,
    ⟨letters _ rfl, by decide, fun inside => (others _ inside).2 rfl⟩⟩

omit valid in
/-- Where the lines of the new text come from. -/
theorem mem_newRows {row : List Char} (member : row ∈ newRows updates text) :
    row = [] ∨ (∃ update ∈ updates, row = settingLine update) ∨
      row ∈ textLines text ∧ ∀ name ∈ namesOf updates, setsName name row = false := by
  rw [newRows] at member
  split at member
  · exact .inl (List.mem_singleton.mp member)
  · exact .inr (mem_run member)

theorem newRows_free : ∀ row ∈ newRows updates text, '\n' ∉ row := by
  intro row member
  obtain rfl | ⟨update, known, rfl⟩ | ⟨old, -⟩ := mem_newRows member
  · exact List.not_mem_nil
  · exact (settingLine_plain valid known).1
  · exact textLines_free old

theorem newRows_unmarked (start : text.head? ≠ some byteOrderMark) :
    Unmarked (newRows updates text) := by
  have unmarked := unmarked_run (unmarked_textLines start) (valid_names valid)
  rw [newRows]
  split
  · intro row head
    cases head
    exact nofun
  · exact unmarked

/-- What the reader makes of the new text: its lines, which may have lost a return. -/
theorem textLines_updatedText :
    textLines (updatedText text updates) =
      if newlineOf text = ['\n'] then (newRows updates text).map withoutReturn
      else newRows updates text := by
  rw [updatedText_rows]
  obtain ⟨shape, -⟩ | ⟨shape, -⟩ := newlineOf_cases text
  · rw [shape, if_neg (by decide), textLines_double newRows_some (newRows_free valid)]
  · rw [shape, if_pos rfl, textLines_single newRows_some (newRows_free valid)]

theorem get_updatedText (name : String) :
    get (updatedText text updates) name = getIn (newRows updates text) name := by
  show getIn (textLines (updatedText text updates)) name = _
  rw [textLines_updatedText valid]
  split
  · exact getIn_withoutReturn _ name
  · rfl

/-! ## When the update is faithful -/

theorem get_updated_iff (distinct : (namesOf updates).Nodup) {update : EnvUpdate}
    (member : update ∈ updates) :
    get (updatedText text updates) update.1 = some update.2 ↔
      unquote update.2.toList = update.2.toList := by
  have assigned := @newRows_assigned updates text valid distinct update member
  rw [get_updatedText valid, getIn_assigned (valid_names valid update member) assigned,
    Option.some.injEq, ← String.toList_inj, String.toList_ofList]

theorem get_other (other : name ∉ namesOf updates) :
    get (updatedText text updates) name = get text name := by
  have apart : ∀ set ∈ namesOf updates, ∀ line, setsName set line = true →
      setsName name line = false := by
    intro set member line sets
    rw [Bool.eq_false_iff]
    exact fun also => other (setsName_unique also sets ▸ member)
  show _ = getIn (textLines text) name
  rw [get_updatedText valid, ← getIn_filter (fun _ own => own) (newRows updates text),
    filter_newRows valid rfl apart, getIn_filter fun _ own => own]

omit valid in
theorem kept_apart (kept : Kept (namesOf updates) line = true) :
    ∀ name ∈ namesOf updates, setsName name line = false := by
  intro name member
  simp only [Kept, Bool.or_eq_true, Bool.and_eq_true, Bool.not_eq_true', List.any_eq_false,
    Bool.not_eq_true] at kept
  obtain comment | ⟨-, others⟩ := kept
  · simp [setsName, comment]
  · exact others name member

theorem kept_iff :
    (textLines (updatedText text updates)).filter (Kept (namesOf updates)) =
        (textLines text).filter (Kept (namesOf updates)) ↔
      (newlineOf text = ['\n'] → ∀ line ∈ textLines text, Kept (namesOf updates) line = true →
        line.getLast? ≠ some '\r') := by
  have same : (newRows updates text).filter (Kept (namesOf updates)) =
      (textLines text).filter (Kept (namesOf updates)) := by
    refine filter_newRows valid (by simp [Kept, isComment, trimStart, splitOnce]) ?_
    intro name member line sets
    rw [Bool.eq_false_iff]
    intro kept
    rw [kept_apart kept name member] at sets
    cases sets
  rw [textLines_updatedText valid]
  split
  · next single =>
    have through : Kept (namesOf updates) ∘ withoutReturn = Kept (namesOf updates) :=
      funext (kept_withoutReturn _)
    rw [List.filter_map, through, same]
    conv_lhs => rhs; rw [← List.map_id (List.filter _ _)]
    rw [List.map_inj_left]
    simp only [List.mem_filter, and_imp, id_eq, single, true_implies]
    refine forall₃_congr fun line _ _ => ⟨fun whole last => ?_, withoutReturn_of_last⟩
    have longer := congrArg List.length (returned_concat last)
    rw [whole, List.length_append, List.length_singleton] at longer
    omega
  · next double => exact iff_of_true same fun single => absurd single double

theorem again_iff (distinct : (namesOf updates).Nodup) :
    updatedText (updatedText text updates) updates = updatedText text updates ↔
      (newlineOf text = ['\n'] →
        (∀ row ∈ newRows updates text, row.getLast? ≠ some '\r') ∨
          ∀ row ∈ newRows updates text, row.getLast? = some '\r') := by
  have assigned := @newRows_assigned updates text valid distinct
  have free := @newRows_free updates text valid
  have short : ∀ update ∈ updates, Assigned update ((newRows updates text).map withoutReturn) := by
    intro update member
    obtain ⟨⟨line, there, sets⟩, same⟩ := assigned update member
    refine ⟨⟨_, List.mem_map_of_mem there, by rwa [setsName_withoutReturn]⟩, ?_⟩
    intro _ mapped also
    obtain ⟨row, there, rfl⟩ := List.mem_map.mp mapped
    rw [setsName_withoutReturn] at also
    rw [same row there also]
    exact withoutReturn_of_last fun last =>
      (settingLine_plain valid member).2 (List.mem_of_getLast? last)
  obtain ⟨shape, -⟩ | ⟨shape, -⟩ := newlineOf_cases text
  · rw [updatedText, textLines_updatedText valid, updatedText_rows, shape, if_neg (by decide),
      run_eq assigned, newlineOf_double newRows_some free]
    exact iff_of_true rfl nofun
  · rw [updatedText, textLines_updatedText valid, updatedText_rows, shape, if_pos rfl,
      run_eq short, newlineOf_single newRows_some free, imp_iff_right rfl]
    split
    · next found =>
      rw [rejoined_iff newRows_some free]
      obtain ⟨row, member, last⟩ := found
      exact ⟨.inr, fun either => either.resolve_left fun none_ => none_ row member last⟩
    · next none_ =>
      have whole : (newRows updates text).map withoutReturn = newRows updates text := by
        conv_rhs => rw [← List.map_id (newRows updates text)]
        exact List.map_congr_left fun row member =>
          withoutReturn_of_last fun last => none_ ⟨row, member, last⟩
      rw [whole]
      exact iff_of_true rfl (.inl fun row member last => none_ ⟨row, member, last⟩)

/-- A line that no update names stays. -/
theorem mem_newRows_of_apart (member : line ∈ textLines text) (filled : line ≠ [])
    (apart : ∀ name ∈ namesOf updates, setsName name line = false) :
    line ∈ newRows updates text := by
  let p (line : List Char) : Bool := !line.isEmpty && !(namesOf updates).any (setsName · line)
  have kept : (newRows updates text).filter p = (textLines text).filter p := by
    refine filter_newRows valid rfl fun name known line sets => ?_
    have named : (namesOf updates).any (setsName · line) = true :=
      List.any_eq_true.mpr ⟨name, known, sets⟩
    simp only [p, named, Bool.not_true, Bool.and_false]
  have passes : p line = true := by
    simp only [p, Bool.and_eq_true, Bool.not_eq_true', List.isEmpty_eq_false_iff, ne_eq,
      List.any_eq_false, Bool.not_eq_true]
    exact ⟨filled, apart⟩
  have there : line ∈ (newRows updates text).filter p := by
    rw [kept]
    exact List.mem_filter.mpr ⟨member, passes⟩
  exact (List.mem_filter.mp there).1

theorem strayReturn_iff (distinct : (namesOf updates).Nodup) :
    ¬StrayReturn updates text ↔ (newlineOf text = ['\n'] →
      (∀ line ∈ textLines text, Kept (namesOf updates) line = true → line.getLast? ≠ some '\r') ∧
      ((∀ row ∈ newRows updates text, row.getLast? ≠ some '\r') ∨
        ∀ row ∈ newRows updates text, row.getLast? = some '\r')) := by
  have assigned := @newRows_assigned updates text valid distinct
  -- a line that ends in a return is the last, if the newlines are single
  have last_line (single : newlineOf text = ['\n']) {line : List Char}
      (member : line ∈ textLines text) (returned : line.getLast? = some '\r') :
      ∃ front, textLines text = front ++ [line] := by
    obtain ⟨front, back, cut⟩ := List.append_of_mem member
    obtain ⟨shape, -⟩ | ⟨-, none_⟩ := newlineOf_cases text
    · rw [shape] at single
      cases single
    · exact ⟨front, by rw [cut, return_last none_ cut returned]⟩
  constructor
  · intro tidy single
    constructor
    · intro line member kept returned
      obtain ⟨front, cut⟩ := last_line single member returned
      exact tidy ⟨single, front, line, cut, returned, kept_apart kept, .inl kept⟩
    · by_cases found : ∃ row ∈ newRows updates text, row.getLast? = some '\r'
      · right
        obtain ⟨row, member, returned⟩ := found
        obtain rfl | ⟨update, known, rfl⟩ | ⟨old, apart⟩ := mem_newRows member
        · cases returned
        · exact absurd (List.mem_of_getLast? returned) (settingLine_plain valid known).2
        · obtain ⟨front, cut⟩ := last_line single old returned
          have alone : front = [] ∧ updates = [] := by
            by_contra more
            refine tidy ⟨single, front, row, cut, returned, apart, .inr ?_⟩
            exact Classical.not_and_iff_not_or_not.mp more
          obtain ⟨rfl, rfl⟩ := alone
          rw [newRows_unchanged cut]
          exact List.forall_mem_singleton.mpr returned
      · exact .inl fun row member returned => found ⟨row, member, returned⟩
  · rintro tidy ⟨single, front, line, cut, returned, apart, more⟩
    obtain ⟨kept, ends⟩ := tidy single
    have old : line ∈ textLines text := by rw [cut]; simp
    have filled : line ≠ [] := by
      rintro rfl
      cases returned
    have there := mem_newRows_of_apart valid old filled apart
    obtain none_ | all := ends
    · exact none_ line there returned
    · cases updates with
      | cons update updates =>
        obtain ⟨⟨row, member, sets⟩, same⟩ := assigned update (List.mem_cons_self ..)
        have ended := all row member
        rw [same row member sets] at ended
        exact (settingLine_plain valid (List.mem_cons_self ..)).2 (List.mem_of_getLast? ended)
      | nil =>
        obtain stays | before | none_ := more
        · exact kept line old stays returned
        · obtain ⟨first, rest, rfl⟩ := List.exists_cons_of_ne_nil before
          rw [List.cons_append] at cut
          rw [newRows_unchanged cut] at all
          have first_last := all first (List.mem_cons_self ..)
          obtain ⟨shape, -⟩ | ⟨-, none_⟩ := newlineOf_cases text
          · rw [shape] at single
            cases single
          · have ends := @return_last text first [] (rest ++ [line]) none_ cut first_last
            simp at ends
        · exact none_ rfl

end NewText

/-! ## The file -/

theorem read_unmarked (readable : read file = .ok text) :
    text.head? ≠ some byteOrderMark := by
  cases file with
  | absent =>
    cases readable
    exact nofun
  | unreadable => cases readable
  | text content =>
    cases readable
    intro mark
    have first := List.head?_dropWhile_not (· == byteOrderMark) content.toList
    rw [mark] at first
    simp at first

theorem update_error {fails : EnvCall → Bool}
    {error : EnvFileError} (failed : (update fails file updates).1 = .error error) :
    (update fails file updates).2 = file := by
  simp only [update] at failed ⊢
  split at failed
  · rfl
  · cases failed

theorem update_ok {fails : EnvCall → Bool} (done : (update fails file updates).1 = .ok ()) :
    (∀ update ∈ updates, validateUpdate update = .ok ()) ∧ ∃ text, read file = .ok text ∧
      (update fails file updates).2 = .text (String.ofList (updatedText text updates)) := by
  simp only [update] at done ⊢
  split at done
  · cases done
  · next result =>
    obtain ⟨_, valid, later⟩ := bind_ok.mp result
    obtain ⟨-, failed⟩ | ⟨-, later⟩ := ite_ok.mp later
    · cases failed
    · obtain ⟨text, readable, last⟩ := bind_ok.mp later
      obtain ⟨_, -, same⟩ := bind_ok.mp last
      cases same
      exact ⟨forM_ok valid, text, readable, rfl⟩

theorem update_calm
    (readable : read file = .ok text) (valid : ∀ update ∈ updates, validateUpdate update = .ok ()) :
    (update (fun _ => false) file updates).2 =
      .text (String.ofList (updatedText text updates)) := by
  have calm : firstFailing (fun _ => false) (publishCalls file) = .ok () := by
    rw [firstFailing, List.find?_eq_none.mpr fun _ _ => Bool.false_ne_true]
  simp [update, forM_total valid, readable, calm, bind, Except.bind, pure, Except.pure]

/-- **Once an update goes through, it is a faithful update of a map exactly when the reader gives
its values back as they are and the text does not end in a stray return; one that fails leaves
the file as it was.** -/
theorem update_faithful_iff (fails : EnvCall → Bool) (file : File) (updates : List EnvUpdate)
    (distinct : (namesOf updates).Nodup) :
    (∀ error, (update fails file updates).1 = .error error →
      (update fails file updates).2 = file) ∧
    ((update fails file updates).1 = .ok () →
      (Faithful updates file (update fails file updates).2 ↔
        Plain updates ∧ ¬StrayReturn updates (textOf file))) := by
  refine ⟨fun _ => update_error, fun done => ?_⟩
  obtain ⟨valid, text, readable, written⟩ := update_ok done
  have before : textOf file = text := by rw [textOf, readable]
  have reread : read (.text (String.ofList (updatedText text updates))) =
      .ok (updatedText text updates) := by
    rw [CodexRemote.Runtime.EnvFile.read, String.toList_ofList, updatedText_rows,
      unmarked_joined newRows_some (newRows_unmarked valid (read_unmarked readable))]
  have after : textOf (.text (String.ofList (updatedText text updates))) =
      updatedText text updates := by rw [textOf, reread]
  rw [written, before, strayReturn_iff valid distinct]
  constructor
  · rintro ⟨updated, -, kept, again⟩
    rw [before, after] at kept
    simp only [after] at updated
    have twice := again fun _ => false
    rw [update_calm reread valid] at twice
    have settled : updatedText (updatedText text updates) updates = updatedText text updates :=
      String.ofList_injective (MarkerFile.text.inj twice)
    exact ⟨fun update member => (get_updated_iff valid distinct member).mp (updated update member),
      fun single => ⟨(kept_iff valid).mp kept single, (again_iff valid distinct).mp settled single⟩⟩
  · rintro ⟨plain, tidy⟩
    refine ⟨fun update member => ?_, fun name other => ?_, ?_, fun fails => ?_⟩
    · rw [after, get_updated_iff valid distinct member]
      exact plain update member
    · rw [after, before, get_other valid other]
    · rw [after, before, kept_iff valid]
      exact fun single => (tidy single).1
    · have settled := (again_iff valid distinct).mpr fun single => (tidy single).2
      cases outcome : (update fails (.text (String.ofList (updatedText text updates))) updates).1 with
      | error error => exact update_error outcome
      | ok _ =>
        obtain ⟨-, again, same, twice⟩ := update_ok outcome
        cases reread.symm.trans same
        rw [twice, settled]

/-- A token is set in a file with a comment and another setting. -/
theorem token_updated : Faithful [("DISCORD_BOT_TOKEN", "abc")]
    (.text "# bot\r\nCODEX_HOME=/srv\r\n")
    (update (fun _ => false) (.text "# bot\r\nCODEX_HOME=/srv\r\n")
      [("DISCORD_BOT_TOKEN", "abc")]).2 :=
  ((update_faithful_iff _ _ _ (by decide)).2 rfl).mpr
    ⟨List.forall_mem_singleton.mpr (by decide), fun stray => absurd stray.1 (by decide)⟩

/-- A quoted token is accepted, and read without its quotes. -/
theorem quoted_token_misread :
    (update (fun _ => false) .absent [("DISCORD_BOT_TOKEN", "'abc'")]).1 = .ok () ∧
      ¬Faithful [("DISCORD_BOT_TOKEN", "'abc'")] .absent
        (update (fun _ => false) .absent [("DISCORD_BOT_TOKEN", "'abc'")]).2 := by
  refine ⟨rfl, fun faithful => ?_⟩
  have given := faithful.updated _ (List.mem_singleton_self _)
  have read : get (textOf (update (fun _ => false) .absent
      [("DISCORD_BOT_TOKEN", "'abc'")]).2) "DISCORD_BOT_TOKEN" = some "abc" := by decide +kernel
  rw [read] at given
  exact absurd given (by decide)

end CodexRemote.Verified.EnvFile
